import Dragonmouth.Transports.CutStreams

/-!
# The readers of a QUIC client

The first poll of the client's stream starts a task for every QUIC stream; no poll ever
yields an item. Each task reads one message after the other and sends it to Kafka,
again and again until the delivery is reported. The tasks run beside each other and
beside the send loop of the server, and the bytes of a stream arrive in any pieces,
with any delay, and possibly not at all.

`attempts` and `delivered` are history: what has been given to the producer, and the
deliveries it has reported.

## Main definitions

- `QuicClientStream.pollNext`, `ReaderTask`: the stream and its tasks
- `Fanout`, `Fanout.Step`, `Fanout.Reachable`: the server, the network and the tasks
- `Fanout.Relayed`: what Kafka is given

## Main result

- `Fanout.reachable_relayed`: every message once, in order on each stream
-/

namespace Dragonmouth.Transports

open Framing
open Plugin (RecvItem RecvError)
open Encoding (Prost wire wire_varints)

/-- A message that is sent to Kafka, with the stream it has come on and its id. -/
structure Handed where
  stream : ℕ
  msgId : ℕ
  message : Bytes
  deriving DecidableEq

/-- The message without the stream. -/
def Handed.numbered (handed : Handed) : ℕ × Bytes := (handed.msgId, handed.message)

/-- Where `process_reader` is. -/
inductive ReaderPc where
  | reading
  /-- in `send_message` -/
  | sending (handed : Handed)
  | finished

/-- The message that is being sent. -/
def ReaderPc.sent : ReaderPc → Option Handed
  | sending handed => some handed
  | _ => none

/-- A task of `process_reader`, with the bytes of its stream that have been consumed. -/
structure ReaderTask where
  index : ℕ
  stream : ℕ
  consumed : ℕ
  pc : ReaderPc

/-- The fields of the stream that are used, with the streams of its readers. -/
structure QuicClientStream where
  readers : List ℕ
  index : ℕ

/-- A task for each reader, with one index after the other. -/
def spawnReaders : List ℕ → ℕ → List ReaderTask
  | [], _ => []
  | stream :: readers, index =>
    ⟨index, stream, 0, .reading⟩ :: spawnReaders readers (index + 1)

/-- `poll_next`, with the tasks it spawns; the last reader is taken first, and what is
returned is `Ready(None)`. -/
def QuicClientStream.pollNext (me : QuicClientStream) : QuicClientStream × List ReaderTask :=
  if me.index = u64Max then (me, [])
  else (⟨[], u64Max⟩, spawnReaders me.readers.reverse me.index)

structure Fanout where
  loop : SendLoop
  stream : QuicClientStream
  tasks : List ReaderTask
  attempts : List Handed
  delivered : List Handed

namespace Fanout

/-- After `subscribe`. -/
def start (recvStreams : ℕ) : Fanout where
  loop := .start recvStreams
  stream := ⟨List.range recvStreams, 0⟩
  tasks := []
  attempts := []
  delivered := []

/-- What has been written on the stream of a task and not been consumed. -/
def unread (sys : Fanout) (task : ReaderTask) : Bytes :=
  (sys.loop.written task.stream).drop task.consumed

/-- The stream is polled. -/
def poll (sys : Fanout) : Fanout :=
  { sys with stream := sys.stream.pollNext.1, tasks := sys.tasks ++ sys.stream.pollNext.2 }

/-- The task that stands between `before` and `after` goes on. -/
def setTask (sys : Fanout) (before : List ReaderTask) (task : ReaderTask)
    (after : List ReaderTask) : Fanout :=
  { sys with tasks := before ++ task :: after }

/-- The steps of the server and of the tasks. What a task receives has arrived of its
stream. A stream may be lost after any part of it; its task then ends, as at any error. -/
inductive Step (P : Prost) (decode : Bytes → Except String ℤ) (maxBacklog : ℕ) (sys : Fanout) :
    Fanout → Prop where
  | server (loop : SendLoop) (step : SendLoop.Step P maxBacklog sys.loop loop) :
      Step P decode maxBacklog sys { sys with loop := loop }
  | poll : Step P decode maxBacklog sys sys.poll
  | recv (before after : List ReaderTask) (task : ReaderTask)
      (running : sys.tasks = before ++ task :: after) (reading : task.pc = .reading)
      (stream rest : Pieces UInt8) (msgId : ℕ) (message : Bytes)
      (arrived : stream.flatten <+: sys.unread task)
      (received : QuicClient.recv decode stream = .ok (rest, msgId, message)) :
      Step P decode maxBacklog sys (sys.setTask before
        { task with
          consumed := task.consumed + (stream.flatten.length - rest.flatten.length)
          pc := .sending ⟨task.stream, msgId, message⟩ } after)
  | fail (before after : List ReaderTask) (task : ReaderTask)
      (running : sys.tasks = before ++ task :: after) (reading : task.pc = .reading)
      (stream : Pieces UInt8) (error : ReceiveError)
      (arrived : stream.flatten <+: sys.unread task)
      (received : QuicClient.recv decode stream = .error error) :
      Step P decode maxBacklog sys (sys.setTask before { task with pc := .finished } after)
  | retry (before after : List ReaderTask) (task : ReaderTask)
      (running : sys.tasks = before ++ task :: after) (handed : Handed)
      (sends : task.pc = .sending handed) :
      Step P decode maxBacklog sys { sys with attempts := sys.attempts ++ [handed] }
  | deliver (before after : List ReaderTask) (task : ReaderTask)
      (running : sys.tasks = before ++ task :: after) (handed : Handed)
      (sends : task.pc = .sending handed) :
      Step P decode maxBacklog sys
        { sys.setTask before { task with pc := .reading } after with
          attempts := sys.attempts ++ [handed]
          delivered := sys.delivered ++ [handed] }

def Reachable (P : Prost) (decode : Bytes → Except String ℤ) (recvStreams maxBacklog : ℕ)
    (sys : Fanout) : Prop :=
  Relation.ReflTransGen (Step P decode maxBacklog) (start recvStreams) sys

/-- What has been delivered of a stream. -/
def deliveredOf (sys : Fanout) (stream : ℕ) : List Handed :=
  sys.delivered.filter fun handed => handed.stream = stream

/-- Every byte written has been received and read as far as it goes, and no reader is
sending. -/
def Idle (decode : Bytes → Except String ℤ) (sys : Fanout) : Prop :=
  ∀ task ∈ sys.tasks, task.pc.sent = none ∧
    ∃ error, QuicClient.recv decode [sys.unread task] = .error error

/-- Kafka is given the messages of the channel, each under the id of its place. -/
structure Relayed (decode : Bytes → Except String ℤ) (sys : Fanout) : Prop where
  /-- Whatever is given to the producer is a message of the channel. -/
  attempted : ∀ handed ∈ sys.attempts, sys.loop.received[handed.msgId]? = some handed.message
  delivered : ∀ handed ∈ sys.delivered,
    handed ∈ sys.attempts ∧ sys.loop.received[handed.msgId]? = some handed.message
  /-- A delivery is reported once. -/
  once : (sys.delivered.map Handed.msgId).Nodup
  /-- The messages of a stream are delivered in the order of the channel. -/
  ordered : ∀ stream, ((sys.deliveredOf stream).map Handed.msgId).Pairwise (· < ·)
  /-- When everything has been written and read, every message has been delivered. -/
  complete : sys.loop.phase = .ended → (∀ task ∈ sys.loop.set, task.rest = []) →
    sys.stream.readers = [] → sys.Idle decode →
    (sys.delivered.map fun handed => (handed.message, handed.msgId)).Perm
      sys.loop.received.zipIdx

end Fanout

-- ════════════════════════════════════════════════════════════════════════
-- What the server writes only grows
-- ════════════════════════════════════════════════════════════════════════

/-- The message of a frame, with its id. -/
def Frame.data : Frame → Option (ℕ × Bytes)
  | message msgId data => some (msgId, data)
  | close _ => none

@[simp] theorem Frame.data_message (msgId : ℕ) (message : RecvItem) :
    (Frame.message msgId message).data = some (msgId, message) := rfl

@[simp] theorem Frame.data_close (error : RecvError) : (Frame.close error).data = none := rfl

namespace SendLoop

variable {P : Prost} {loop loop' : SendLoop} {recvStreams maxBacklog : ℕ}

/-- The ids and the sizes fit into 64 bits. -/
structure Fits (loop : SendLoop) : Prop where
  ids : loop.msgId ≤ u64Max
  sizes : ∀ message ∈ loop.received, message.length < u64Max

/-- What a step adds. -/
structure Grows (loop loop' : SendLoop) : Prop where
  spawned : loop.spawned <+: loop'.spawned
  received : loop.received <+: loop'.received
  msgId : loop.msgId ≤ loop'.msgId
  written : ∀ stream, loop.written stream <+: loop'.written stream

theorem Grows.refl (loop : SendLoop) : Grows loop loop :=
  ⟨List.prefix_rfl, List.prefix_rfl, Nat.le_refl _, fun _ => List.prefix_rfl⟩

theorem Fits.of_grows (h : Fits loop') (hgrows : Grows loop loop') : Fits loop where
  ids := Nat.le_trans hgrows.msgId h.ids
  sizes message hmessage := h.sizes message (hgrows.received.subset hmessage)

theorem sendClose_grows (P : Prost) (loop : SendLoop) (error : RecvError) :
    Grows loop (loop.sendClose P error) := by
  rw [SendLoop.sendClose]
  split
  · exact ⟨List.prefix_append _ _, List.prefix_rfl, Nat.le_refl _, fun _ => List.prefix_rfl⟩
  · exact ⟨List.prefix_rfl, List.prefix_rfl, Nat.le_refl _, fun _ => List.prefix_rfl⟩

theorem Step.grows (h : Step P maxBacklog loop loop') : Grows loop loop' := by
  cases h with
  | dispatch =>
    obtain he | ⟨stream, streams, message, -, -, -, he⟩ := dispatch_cases P loop maxBacklog
    · rw [he]
      exact ⟨List.prefix_rfl, List.prefix_rfl, Nat.le_refl _, fun _ => List.prefix_rfl⟩
    · rw [he]
      exact ⟨List.prefix_append _ _, List.prefix_rfl, Nat.le_succ _, fun _ => List.prefix_rfl⟩
  | message =>
    exact ⟨List.prefix_rfl, List.prefix_append _ _, Nat.le_refl _, fun _ => List.prefix_rfl⟩
  | fail _ _ _ error =>
    rw [SendLoop.fail]
    split
    · exact ⟨List.prefix_rfl, List.prefix_rfl, Nat.le_refl _, fun _ => List.prefix_rfl⟩
    · have hgrows := sendClose_grows P { loop with failed := true } error
      exact ⟨hgrows.spawned, hgrows.received, hgrows.msgId, hgrows.written⟩
  | finish =>
    exact ⟨List.prefix_rfl, List.prefix_rfl, Nat.le_refl _, fun _ => List.prefix_rfl⟩
  | join =>
    exact ⟨List.prefix_rfl, List.prefix_rfl, Nat.le_refl _, fun _ => List.prefix_rfl⟩
  | joinClosing error _ task before after =>
    have hgrows := sendClose_grows P (loop.join task (before ++ after)) error
    exact ⟨hgrows.spawned, hgrows.received, hgrows.msgId, hgrows.written⟩
  | joinNothing =>
    exact ⟨List.prefix_rfl, List.prefix_rfl, Nat.le_refl _, fun _ => List.prefix_rfl⟩
  | write task before after _ n =>
    refine ⟨List.prefix_rfl, List.prefix_rfl, Nat.le_refl _, ?_⟩
    intro stream
    by_cases hstream : stream = task.stream
    · subst hstream
      change _ <+: Function.update loop.written task.stream _ task.stream
      rw [Function.update_self]
      exact List.prefix_append _ _
    · change _ <+: Function.update loop.written task.stream _ stream
      rw [Function.update_of_ne hstream]

theorem sendClose_spawned (loop : SendLoop) (error : RecvError) {spawned : ℕ × Frame}
    (h : spawned ∈ (loop.sendClose P error).spawned) :
    spawned ∈ loop.spawned ∨ spawned.1 ∈ loop.streams := by
  rw [SendLoop.sendClose] at h
  cases hstreams : loop.streams with
  | nil =>
    simp only [hstreams] at h
    exact .inl h
  | cons stream streams =>
    simp only [hstreams] at h
    obtain hold | hnew := List.mem_append.mp h
    · exact .inl hold
    · rw [List.mem_singleton.mp hnew]
      exact .inr List.mem_cons_self

/-- A task is spawned on a stream that was idle or has just been joined. -/
theorem Step.spawned_from (h : Step P maxBacklog loop loop') {spawned : ℕ × Frame}
    (hmem : spawned ∈ loop'.spawned) :
    spawned ∈ loop.spawned ∨ spawned.1 ∈ loop.streams ++ loop.set.map Task.stream := by
  cases h with
  | dispatch =>
    obtain he | ⟨stream, streams, message, -, -, hstreams, he⟩ := dispatch_cases P loop maxBacklog
    · rw [he] at hmem
      exact .inl hmem
    · rw [he] at hmem
      obtain hold | hnew := List.mem_append.mp hmem
      · exact .inl hold
      · rw [List.mem_singleton.mp hnew, hstreams]
        exact .inr (List.mem_append_left _ List.mem_cons_self)
  | fail _ _ _ error =>
    rw [SendLoop.fail] at hmem
    split at hmem
    · exact .inl hmem
    · exact (sendClose_spawned _ error hmem).imp id (List.mem_append_left _)
  | joinClosing error _ task before after hrun =>
    obtain hold | hidle := sendClose_spawned (loop.join task (before ++ after)) error hmem
    · exact .inl hold
    · right
      obtain hold | hnew := List.mem_append.mp hidle
      · exact List.mem_append_left _ hold
      · rw [List.mem_singleton.mp hnew, hrun]
        exact List.mem_append_right _
          (List.mem_map_of_mem (List.mem_append_right _ List.mem_cons_self))
  | _ => exact .inl hmem

/-- The messages that have been given to tasks, with the streams of the tasks. -/
def given (loop : SendLoop) : List Handed :=
  loop.spawned.filterMap fun spawned =>
    spawned.2.data.map fun numbered => ⟨spawned.1, numbered.1, numbered.2⟩

/-- The messages that have been given to a stream. -/
def givenOf (loop : SendLoop) (stream : ℕ) : List Handed :=
  loop.given.filter fun handed => handed.stream = stream

theorem Grows.givenOf (h : Grows loop loop') (stream : ℕ) :
    loop.givenOf stream <+: loop'.givenOf stream :=
  (h.spawned.filterMap _).filter _

theorem given_messages (loop : SendLoop) :
    loop.given.map (fun handed => (handed.message, handed.msgId)) = loop.messages := by
  rw [given, messages, List.map_filterMap]
  apply List.filterMap_congr
  rintro ⟨stream, frame⟩ -
  cases frame <;> rfl

/-- The messages of a stream are those of its frames. -/
theorem givenOf_numbered (loop : SendLoop) (stream : ℕ) :
    (loop.givenOf stream).map Handed.numbered = (loop.framesOf stream).filterMap Frame.data := by
  rw [givenOf, given, framesOf]
  induction loop.spawned with
  | nil => rfl
  | cons spawned rest ih =>
    obtain ⟨owner, frame⟩ := spawned
    by_cases howner : owner = stream
    · cases frame with
      | message msgId data => simpa [howner, Handed.numbered] using ih
      | close error => simpa [howner, List.filterMap_cons] using ih
    · cases frame with
      | message msgId data => simpa [howner] using ih
      | close error => simpa [howner, List.filterMap_cons] using ih

/-- The ids are given out one after the other. -/
theorem Numbered.given_increasing (h : Numbered loop) :
    (loop.given.map Handed.msgId).Pairwise (· < ·) := by
  obtain ⟨sent, hmessages, -, -⟩ := h.handed
  have hids : loop.given.map Handed.msgId = loop.messages.map Prod.snd := by
    rw [← given_messages, List.map_map]
    rfl
  rw [hids, hmessages, List.zipIdx_map_snd, ← List.range_eq_range']
  exact List.pairwise_lt_range

theorem Numbered.received_of_given (h : Numbered loop) {handed : Handed}
    (hgiven : handed ∈ loop.given) :
    handed.msgId < loop.msgId ∧ loop.received[handed.msgId]? = some handed.message := by
  obtain ⟨sent, hmessages, hlen, hreceived⟩ := h.handed
  have hmem : (handed.message, handed.msgId) ∈ loop.messages := by
    rw [← given_messages]
    exact List.mem_map_of_mem hgiven
  rw [hmessages] at hmem
  have hget := List.mem_zipIdx_iff_getElem?.mp hmem
  obtain ⟨hlt, -⟩ := List.getElem?_eq_some_iff.mp hget
  refine ⟨hlen ▸ hlt, ?_⟩
  rw [hreceived, List.getElem?_append_left hlt]
  exact hget

/-- An id is given out once. -/
theorem Numbered.given_unique (h : Numbered loop) {first second : Handed}
    (hfirst : first ∈ loop.given) (hsecond : second ∈ loop.given)
    (hid : first.msgId = second.msgId) : first = second := by
  have hnodup : (loop.given.map Handed.msgId).Nodup :=
    h.given_increasing.imp Nat.ne_of_lt
  exact List.inj_on_of_nodup_map hnodup hfirst hsecond hid

end SendLoop

-- ════════════════════════════════════════════════════════════════════════
-- The invariant
-- ════════════════════════════════════════════════════════════════════════

/-- The bytes that messages take on their stream. -/
def frameBytes (P : Prost) (messages : List Handed) : Bytes :=
  messages.flatMap fun handed => (Frame.ofNumbered handed.numbered).bytes P

namespace Fanout

variable {P : Prost} {decode : Bytes → Except String ℤ} {sys sys' : Fanout}
  {recvStreams maxBacklog : ℕ} {before after : List ReaderTask} {task : ReaderTask}

/-- The messages a task has received: those delivered, then the one that is being sent. -/
def taken (sys : Fanout) (task : ReaderTask) : List Handed :=
  sys.deliveredOf task.stream ++ task.pc.sent.toList

/-- A task has received the first messages of its stream, and consumed their frames. -/
structure TaskInv (P : Prost) (sys : Fanout) (task : ReaderTask) : Prop where
  taken : sys.taken task <+: sys.loop.givenOf task.stream
  consumed : task.consumed = (frameBytes P (sys.taken task)).length

structure Inv (P : Prost) (recvStreams maxBacklog : ℕ) (sys : Fanout) : Prop where
  loop : sys.loop.Inv P recvStreams maxBacklog
  closeLast : sys.loop.CloseLast
  /-- Every stream has one reader, which is spawned once. -/
  streams : (sys.stream.readers ++ sys.tasks.map ReaderTask.stream).Perm (List.range recvStreams)
  tasks : ∀ task ∈ sys.tasks, sys.TaskInv P task
  delivered : ∀ handed ∈ sys.delivered,
    handed ∈ sys.attempts ∧ ∃ task ∈ sys.tasks, task.stream = handed.stream
  attempted : ∀ handed ∈ sys.attempts, handed ∈ sys.loop.given
  opened : ∀ spawned ∈ sys.loop.spawned, spawned.1 < recvStreams

theorem Inv.start : Inv P recvStreams maxBacklog (start recvStreams) where
  loop := SendLoop.Parts.start.inv (.inl rfl)
  closeLast := .start
  streams := by
    rw [Fanout.start, List.map_nil, List.append_nil]
  tasks _ h := (nomatch h)
  delivered _ h := (nomatch h)
  attempted _ h := (nomatch h)
  opened _ h := (nomatch h)

/-- A task and the others have different streams. -/
theorem Inv.stream_ne (h : Inv P recvStreams maxBacklog sys)
    (hrun : sys.tasks = before ++ task :: after) {other : ReaderTask}
    (hother : other ∈ before ++ after) : other.stream ≠ task.stream := by
  have hnodup : (sys.tasks.map ReaderTask.stream).Nodup :=
    (List.nodup_append.mp (h.streams.nodup_iff.mpr List.nodup_range)).2.1
  rw [hrun, List.map_append, List.map_cons, List.nodup_middle, ← List.map_append,
    List.nodup_cons] at hnodup
  intro heq
  exact hnodup.1 (heq ▸ List.mem_map_of_mem hother)

theorem mem_middle {task' other : ReaderTask} (h : other ∈ before ++ task' :: after) :
    other = task' ∨ other ∈ before ++ after := by
  obtain hbefore | hafter := List.mem_append.mp h
  · exact .inr (List.mem_append_left _ hbefore)
  · obtain rfl | hafter := List.mem_cons.mp hafter
    · exact .inl rfl
    · exact .inr (List.mem_append_right _ hafter)

/-- The others are tasks as well. -/
theorem mem_tasks_of_mem (hrun : sys.tasks = before ++ task :: after) {other : ReaderTask}
    (h : other ∈ before ++ after) : other ∈ sys.tasks := by
  rw [hrun]
  obtain hbefore | hafter := List.mem_append.mp h
  · exact List.mem_append_left _ hbefore
  · exact List.mem_append_right _ (List.mem_cons_of_mem _ hafter)

/-- A stream keeps its task. -/
theorem owner_setTask (hrun : sys.tasks = before ++ task :: after) {task' : ReaderTask}
    (hstream : task'.stream = task.stream) {stream : ℕ}
    (h : ∃ owner ∈ sys.tasks, owner.stream = stream) :
    ∃ owner ∈ before ++ task' :: after, owner.stream = stream := by
  obtain ⟨owner, howner, rfl⟩ := h
  rw [hrun] at howner
  obtain hbefore | hafter := List.mem_append.mp howner
  · exact ⟨owner, List.mem_append_left _ hbefore, rfl⟩
  · obtain rfl | hafter := List.mem_cons.mp hafter
    · exact ⟨task', List.mem_append_right _ List.mem_cons_self, hstream⟩
    · exact ⟨owner, List.mem_append_right _ (List.mem_cons_of_mem _ hafter), rfl⟩

/-- A task that is replaced on the same stream. -/
theorem Inv.setTask (h : Inv P recvStreams maxBacklog sys)
    (hrun : sys.tasks = before ++ task :: after) {task' : ReaderTask}
    (hstream : task'.stream = task.stream) (htask : sys.TaskInv P task') :
    Inv P recvStreams maxBacklog (sys.setTask before task' after) where
  loop := h.loop
  closeLast := h.closeLast
  streams := by
    have hstreams := h.streams
    rw [hrun, List.map_append, List.map_cons, ← hstream] at hstreams
    rwa [Fanout.setTask, List.map_append, List.map_cons]
  tasks other hother := by
    obtain rfl | hother := mem_middle hother
    · exact ⟨htask.taken, htask.consumed⟩
    · have hinv := h.tasks other (mem_tasks_of_mem hrun hother)
      exact ⟨hinv.taken, hinv.consumed⟩
  delivered handed hhanded := by
    obtain ⟨hattempted, howner⟩ := h.delivered handed hhanded
    exact ⟨hattempted, owner_setTask hrun hstream howner⟩
  attempted := h.attempted
  opened := h.opened

theorem Inv.server (hpos : 0 < recvStreams) (h : Inv P recvStreams maxBacklog sys)
    {loop : SendLoop} (hstep : SendLoop.Step P maxBacklog sys.loop loop) :
    Inv P recvStreams maxBacklog { sys with loop := loop } where
  loop := h.loop.step hpos hstep
  closeLast := h.closeLast.step hstep
  streams := h.streams
  tasks task htask :=
    { taken := (h.tasks task htask).taken.trans (hstep.grows.givenOf task.stream)
      consumed := (h.tasks task htask).consumed }
  delivered := h.delivered
  attempted handed hhanded :=
    (hstep.grows.spawned.filterMap _).subset (h.attempted handed hhanded)
  opened spawned hspawned := by
    obtain hold | hstream := hstep.spawned_from hspawned
    · exact h.opened spawned hold
    · exact List.mem_range.mp (h.loop.parts.pool.streams.mem_iff.mp hstream)

theorem map_stream_spawnReaders (readers : List ℕ) (index : ℕ) :
    (spawnReaders readers index).map ReaderTask.stream = readers := by
  induction readers generalizing index with
  | nil => rfl
  | cons stream readers ih => rw [spawnReaders, List.map_cons, ih]

theorem of_mem_spawnReaders {readers : List ℕ} {index : ℕ} {task : ReaderTask}
    (h : task ∈ spawnReaders readers index) :
    task.stream ∈ readers ∧ task.consumed = 0 ∧ task.pc = .reading := by
  induction readers generalizing index with
  | nil => exact absurd h List.not_mem_nil
  | cons stream readers ih =>
    obtain rfl | h := List.mem_cons.mp h
    · exact ⟨List.mem_cons_self, rfl, rfl⟩
    · obtain ⟨hmem, hrest⟩ := ih h
      exact ⟨List.mem_cons_of_mem _ hmem, hrest⟩

/-- A poll spawns a task for each reader there is, which has received nothing yet. -/
theorem Inv.poll (h : Inv P recvStreams maxBacklog sys) :
    Inv P recvStreams maxBacklog sys.poll := by
  rw [Fanout.poll, QuicClientStream.pollNext]
  split
  · rw [List.append_nil]
    exact h
  · refine
      { loop := h.loop
        closeLast := h.closeLast
        streams := ?_
        tasks := ?_
        delivered := ?_
        attempted := h.attempted
        opened := h.opened }
    · rw [List.nil_append, List.map_append, map_stream_spawnReaders]
      refine List.Perm.trans ?_ h.streams
      exact List.perm_append_comm.trans ((List.reverse_perm _).append_right _)
    · intro task htask
      obtain hold | hnew := List.mem_append.mp htask
      · exact ⟨(h.tasks task hold).taken, (h.tasks task hold).consumed⟩
      · obtain ⟨hmem, hconsumed, hpc⟩ := of_mem_spawnReaders hnew
        have hnone : sys.deliveredOf task.stream = [] := by
          apply List.filter_eq_nil_iff.mpr
          intro handed hhanded hstream
          obtain ⟨-, owner, howner, heq⟩ := h.delivered handed hhanded
          have hdisjoint :=
            (List.nodup_append.mp (h.streams.nodup_iff.mpr List.nodup_range)).2.2
          refine hdisjoint _ (List.mem_reverse.mp hmem) _ (List.mem_map_of_mem howner) ?_
          rw [heq, of_decide_eq_true hstream]
        have htaken : sys.taken task = [] := by
          rw [taken, hnone, hpc]
          rfl
        exact ⟨htaken ▸ List.nil_prefix, by rw [hconsumed]; exact htaken ▸ rfl⟩
    · intro handed hhanded
      obtain ⟨hattempted, owner, howner, hstream⟩ := h.delivered handed hhanded
      exact ⟨hattempted, owner, List.mem_append_left _ howner, hstream⟩

/-- What a server has written on a stream is where its frames begin. -/
theorem Inv.written_prefix (h : Inv P recvStreams maxBacklog sys) (stream : ℕ) :
    sys.loop.written stream <+: sys.loop.frames P stream := by
  by_cases hidle : ∀ task ∈ sys.loop.set, task.stream ≠ stream
  · rw [h.loop.parts.pool.idle stream hidle]
  · simp only [not_forall, not_not] at hidle
    obtain ⟨task, htask, rfl⟩ := hidle
    exact ⟨task.rest, (h.loop.parts.pool.busy task htask).2⟩

/-- The bytes of a stream are those of its messages, and a close frame. -/
theorem Inv.frames_eq (h : Inv P recvStreams maxBacklog sys) (stream : ℕ) :
    ∃ close : Option RecvError, sys.loop.frames P stream =
      frameBytes P (sys.loop.givenOf stream) ++
        close.toList.flatMap fun error => (Frame.close error).bytes P := by
  obtain ⟨numbered, close, hframes⟩ := h.closeLast.framesOf stream
  have hnumbered : (sys.loop.givenOf stream).map Handed.numbered = numbered := by
    rw [SendLoop.givenOf_numbered, hframes, List.filterMap_append, List.filterMap_map,
      List.filterMap_map]
    have hdata : ∀ numbered : List (ℕ × Bytes),
        numbered.filterMap (Frame.data ∘ Frame.ofNumbered) = numbered := by
      intro numbered
      exact List.filterMap_some
    have hclose : close.toList.filterMap (Frame.data ∘ Frame.close) = [] := by
      cases close <;> rfl
    rw [hdata, hclose, List.append_nil]
  refine ⟨close, ?_⟩
  rw [SendLoop.frames_eq, hframes, List.flatMap_append, List.flatMap_map, List.flatMap_map,
    frameBytes, ← hnumbered, List.flatMap_map]

/-- The messages of a stream fit into frames. -/
theorem Inv.fits (h : Inv P recvStreams maxBacklog sys) (hfits : sys.loop.Fits) {stream : ℕ}
    {handed : Handed} (hgiven : handed ∈ sys.loop.givenOf stream) :
    handed.msgId < u64Max ∧ handed.message.length < 2 ^ 64 := by
  obtain ⟨hid, hreceived⟩ :=
    h.loop.parts.numbered.received_of_given (List.mem_of_mem_filter hgiven)
  have hlen := hfits.sizes _ (List.mem_of_getElem? hreceived)
  exact ⟨Nat.lt_of_lt_of_le hid hfits.ids, Nat.lt_of_lt_of_le hlen (Nat.sub_le _ _)⟩

/-- What a task has not read begins where its next message does. -/
theorem Inv.unread_prefix (h : Inv P recvStreams maxBacklog sys) {task : ReaderTask}
    (htask : sys.TaskInv P task) {more : List Handed}
    (hmore : sys.loop.givenOf task.stream = sys.taken task ++ more) :
    ∃ close : Option RecvError, sys.unread task <+:
      frameBytes P more ++ close.toList.flatMap fun error => (Frame.close error).bytes P := by
  obtain ⟨close, hframes⟩ := h.frames_eq task.stream
  refine ⟨close, ?_⟩
  have hwritten := (h.written_prefix task.stream).drop task.consumed
  rw [hframes, hmore, frameBytes, List.flatMap_append, List.append_assoc, htask.consumed,
    frameBytes, List.drop_left' rfl] at hwritten
  rwa [unread, htask.consumed]

/-- Nothing is received of a close frame. -/
theorem recv_close_prefix (hP : P.Varints) (hdecode : DecodesClose P decode)
    (close : Option RecvError)
    {stream : Pieces UInt8}
    (h : stream.flatten <+: close.toList.flatMap fun error => (Frame.close error).bytes P) :
    ∃ error, QuicClient.recv decode stream = .error error := by
  by_cases hlt : stream.flatten.length <
      (close.toList.flatMap fun error => (Frame.close error).bytes P).length
  · obtain ⟨error, hrecv, -⟩ := QuicClient.breaks_close hP close stream _ hlt
      (List.prefix_iff_eq_take.mp h)
    exact ⟨error, hrecv⟩
  · have hwhole := h.eq_of_length (Nat.le_antisymm h.length_le (Nat.le_of_not_lt hlt))
    exact ⟨_, QuicClient.recv_close hP hdecode close hwhole⟩

/-- A task receives the next message of its stream. -/
theorem Inv.received (hP : P.Varints) (hdecode : DecodesClose P decode)
    (h : Inv P recvStreams maxBacklog sys) (hfits : sys.loop.Fits) {task : ReaderTask}
    (htask : sys.TaskInv P task) {stream rest : Pieces UInt8} {msgId : ℕ} {message : Bytes}
    (harrived : stream.flatten <+: sys.unread task)
    (hrecv : QuicClient.recv decode stream = .ok (rest, msgId, message)) :
    sys.taken task ++ [⟨task.stream, msgId, message⟩] <+: sys.loop.givenOf task.stream ∧
      stream.flatten.length - rest.flatten.length =
        (frameBytes P [⟨task.stream, msgId, message⟩]).length := by
  obtain ⟨more, hmore⟩ := htask.taken
  obtain ⟨close, hunread⟩ := h.unread_prefix htask hmore.symm
  have hmem : ∀ handed ∈ more, handed ∈ sys.loop.givenOf task.stream := by
    intro handed hhanded
    rw [← hmore]
    exact List.mem_append_right _ hhanded
  have hnext : stream.flatten <+: (more.map Handed.numbered).flatMap
      (fun message => (Frame.ofNumbered message).bytes P) ++
        close.toList.flatMap fun error => (Frame.close error).bytes P := by
    rw [List.flatMap_map]
    exact harrived.trans hunread
  have htakes : ∀ numbered ∈ more.map Handed.numbered,
      Takes (QuicClient.recv decode) ((Frame.ofNumbered numbered).bytes P) numbered := by
    intro numbered hnumbered
    obtain ⟨handed, hhanded, rfl⟩ := List.mem_map.mp hnumbered
    obtain ⟨hid, hlen⟩ := h.fits hfits (hmem handed hhanded)
    exact QuicClient.takes_message hid hlen
  have hbreaks : ∀ numbered ∈ more.map Handed.numbered,
      Breaks (QuicClient.recv decode) ((Frame.ofNumbered numbered).bytes P)
        ReceiveError.CutOff := by
    intro numbered hnumbered
    obtain ⟨handed, hhanded, rfl⟩ := List.mem_map.mp hnumbered
    obtain ⟨hid, hlen⟩ := h.fits hfits (hmem handed hhanded)
    exact QuicClient.breaks_frame (.ofNumbered handed.numbered)
      (Nat.lt_of_lt_of_le hid (Nat.sub_le _ _)) hlen
  obtain ⟨numbered, hmap, hbytes⟩ :=
    next_of_prefix htakes hbreaks (fun _ => recv_close_prefix hP hdecode close) hnext hrecv
  cases more with
  | nil => cases hmap
  | cons first more =>
    rw [List.map_cons, List.cons.injEq] at hmap
    have hstream : first.stream = task.stream :=
      of_decide_eq_true (List.mem_filter.mp (hmem first List.mem_cons_self)).2
    have hfirst : first = ⟨task.stream, msgId, message⟩ := by
      obtain ⟨owner, id, data⟩ := first
      cases hmap.1
      cases hstream
      rfl
    subst hfirst
    constructor
    · rw [← hmore]
      exact ⟨more, by rw [List.append_assoc]; rfl⟩
    · rw [hbytes, List.length_append, Nat.add_sub_cancel, frameBytes, List.flatMap_singleton]
      rfl

theorem deliveredOf_append (sys : Fanout) (attempts : List Handed) (handed : Handed)
    (stream : ℕ) :
    deliveredOf { sys with attempts := attempts, delivered := sys.delivered ++ [handed] } stream =
      sys.deliveredOf stream ++ if handed.stream = stream then [handed] else [] := by
  rw [deliveredOf, List.filter_append, List.filter_singleton]
  by_cases hstream : handed.stream = stream
  · rw [if_pos hstream, decide_eq_true hstream]
    rfl
  · rw [if_neg hstream, decide_eq_false hstream]
    rfl

/-- The message that is being sent has been received from the stream of its task. -/
theorem TaskInv.sends (h : sys.TaskInv P task) {handed : Handed}
    (hsends : task.pc = .sending handed) : handed ∈ sys.loop.givenOf task.stream := by
  apply h.taken.subset
  rw [Fanout.taken, hsends]
  exact List.mem_append_right _ List.mem_cons_self

/-- The delivery of a message is reported. -/
theorem Inv.deliver (h : Inv P recvStreams maxBacklog sys)
    (hrun : sys.tasks = before ++ task :: after) {handed : Handed}
    (hsends : task.pc = .sending handed) :
    Inv P recvStreams maxBacklog { sys.setTask before { task with pc := .reading } after with
      attempts := sys.attempts ++ [handed]
      delivered := sys.delivered ++ [handed] } := by
  have hmem : task ∈ sys.tasks := hrun ▸ List.mem_append_right _ List.mem_cons_self
  have htask := h.tasks task hmem
  have hgiven := htask.sends hsends
  have hstream : handed.stream = task.stream :=
    of_decide_eq_true (List.mem_filter.mp hgiven).2
  have hkept : ({ task with pc := .reading } : ReaderTask).stream = task.stream := rfl
  refine
    { loop := h.loop
      closeLast := h.closeLast
      streams := ?_
      tasks := ?_
      delivered := ?_
      attempted := ?_
      opened := h.opened }
  · have hstreams := h.streams
    rw [hrun, List.map_append, List.map_cons] at hstreams
    rwa [Fanout.setTask, List.map_append, List.map_cons]
  · intro other hother
    obtain rfl | hother := mem_middle hother
    · have htaken : taken { sys.setTask before { task with pc := .reading } after with
          attempts := sys.attempts ++ [handed]
          delivered := sys.delivered ++ [handed] } { task with pc := .reading } =
          sys.taken task := by
        rw [taken, taken, hsends]
        change deliveredOf { sys with
          attempts := sys.attempts ++ [handed]
          delivered := sys.delivered ++ [handed] } task.stream ++ [] = _
        rw [deliveredOf_append, if_pos hstream, List.append_nil]
        rfl
      exact ⟨htaken ▸ htask.taken, htaken ▸ htask.consumed⟩
    · have hinv := h.tasks other (mem_tasks_of_mem hrun hother)
      have htaken : taken { sys.setTask before { task with pc := .reading } after with
          attempts := sys.attempts ++ [handed]
          delivered := sys.delivered ++ [handed] } other = sys.taken other := by
        rw [taken, taken]
        change deliveredOf { sys with
          attempts := sys.attempts ++ [handed]
          delivered := sys.delivered ++ [handed] } other.stream ++ _ = _
        have hne : handed.stream ≠ other.stream := by
          rw [hstream]
          exact (h.stream_ne hrun hother).symm
        rw [deliveredOf_append, if_neg hne, List.append_nil]
      exact ⟨htaken ▸ hinv.taken, htaken ▸ hinv.consumed⟩
  · intro other hother
    obtain hold | hnew := List.mem_append.mp hother
    · obtain ⟨hattempted, howner⟩ := h.delivered other hold
      exact ⟨List.mem_append_left _ hattempted, owner_setTask hrun hkept howner⟩
    · obtain rfl := List.mem_singleton.mp hnew
      exact ⟨List.mem_append_right _ List.mem_cons_self,
        owner_setTask hrun hkept ⟨task, hmem, hstream.symm⟩⟩
  · intro other hother
    obtain hold | hnew := List.mem_append.mp hother
    · exact h.attempted other hold
    · rw [List.mem_singleton.mp hnew]
      exact List.mem_of_mem_filter hgiven

theorem Inv.step (hpos : 0 < recvStreams) (hP : P.Varints) (hdecode : DecodesClose P decode)
    (h : Inv P recvStreams maxBacklog sys) (hfits : sys.loop.Fits)
    (hstep : Step P decode maxBacklog sys sys') : Inv P recvStreams maxBacklog sys' := by
  cases hstep with
  | server loop hserver => exact h.server hpos hserver
  | poll => exact h.poll
  | recv before after task hrun hreading stream rest msgId message harrived hrecv =>
    have htask := h.tasks task (hrun ▸ List.mem_append_right _ List.mem_cons_self)
    obtain ⟨hgiven, hbytes⟩ := h.received hP hdecode hfits htask harrived hrecv
    have htaken : sys.taken { task with
        consumed := task.consumed + (stream.flatten.length - rest.flatten.length)
        pc := .sending ⟨task.stream, msgId, message⟩ } =
        sys.taken task ++ [⟨task.stream, msgId, message⟩] := by
      simp only [taken, hreading, ReaderPc.sent, Option.toList_none, Option.toList_some,
        List.append_nil]
    refine h.setTask hrun rfl ⟨htaken ▸ hgiven, ?_⟩
    rw [htaken, frameBytes, List.flatMap_append, List.length_append, ← frameBytes,
      ← htask.consumed, ← frameBytes, ← hbytes]
  | fail before after task hrun hreading =>
    have htask := h.tasks task (hrun ▸ List.mem_append_right _ List.mem_cons_self)
    have htaken : sys.taken { task with pc := .finished } = sys.taken task := by
      simp only [taken, hreading, ReaderPc.sent]
    exact h.setTask hrun rfl ⟨htaken ▸ htask.taken, htaken ▸ htask.consumed⟩
  | retry before after task hrun handed hsends =>
    have htask := h.tasks task (hrun ▸ List.mem_append_right _ List.mem_cons_self)
    refine
      { loop := h.loop
        closeLast := h.closeLast
        streams := h.streams
        tasks := fun other hother => ⟨(h.tasks other hother).taken, (h.tasks other hother).consumed⟩
        delivered := fun other hother => ?_
        attempted := fun other hother => ?_
        opened := h.opened }
    · exact ⟨List.mem_append_left _ (h.delivered other hother).1, (h.delivered other hother).2⟩
    · obtain hold | hnew := List.mem_append.mp hother
      · exact h.attempted other hold
      · rw [List.mem_singleton.mp hnew]
        exact List.mem_of_mem_filter (htask.sends hsends)
  | deliver before after task hrun handed hsends => exact h.deliver hrun hsends

theorem Step.grows (hstep : Step P decode maxBacklog sys sys') :
    SendLoop.Grows sys.loop sys'.loop := by
  cases hstep with
  | server loop hserver => exact hserver.grows
  | _ => exact .refl _

theorem Reachable.inv (hpos : 0 < recvStreams) (hP : P.Varints) (hdecode : DecodesClose P decode)
    (h : Reachable P decode recvStreams maxBacklog sys) (hfits : sys.loop.Fits) :
    Inv P recvStreams maxBacklog sys := by
  induction h with
  | refl => exact .start
  | tail _ hstep ih =>
    have hfits' := hfits.of_grows hstep.grows
    exact (ih hfits').step hpos hP hdecode hfits' hstep

-- ════════════════════════════════════════════════════════════════════════
-- What Kafka is given
-- ════════════════════════════════════════════════════════════════════════

/-- The deliveries of a stream are the first messages given to it. -/
theorem Inv.deliveredOf_prefix (h : Inv P recvStreams maxBacklog sys) (stream : ℕ) :
    sys.deliveredOf stream <+: sys.loop.givenOf stream := by
  by_cases howner : ∃ task ∈ sys.tasks, task.stream = stream
  · obtain ⟨task, htask, rfl⟩ := howner
    exact (List.prefix_append _ _).trans (h.tasks task htask).taken
  · have hnone : sys.deliveredOf stream = [] := by
      apply List.filter_eq_nil_iff.mpr
      intro handed hhanded hstream
      rw [← of_decide_eq_true hstream] at howner
      exact howner (h.delivered handed hhanded).2
    rw [hnone]
    exact List.nil_prefix

theorem Inv.ordered (h : Inv P recvStreams maxBacklog sys) (stream : ℕ) :
    ((sys.deliveredOf stream).map Handed.msgId).Pairwise (· < ·) :=
  h.loop.parts.numbered.given_increasing.sublist
    (((h.deliveredOf_prefix stream).sublist.trans List.filter_sublist).map _)

/-- Two deliveries with one id would be of one stream, where the ids increase. -/
theorem Inv.once (h : Inv P recvStreams maxBacklog sys) :
    (sys.delivered.map Handed.msgId).Nodup := by
  rw [List.Nodup, List.pairwise_map, List.pairwise_iff_forall_sublist]
  intro first second hsub hid
  have hgiven : ∀ handed ∈ sys.delivered, handed ∈ sys.loop.given :=
    fun handed hhanded => h.attempted handed (h.delivered handed hhanded).1
  have hsame : first = second := h.loop.parts.numbered.given_unique
    (hgiven _ (hsub.subset List.mem_cons_self))
    (hgiven _ (hsub.subset (List.mem_cons_of_mem _ List.mem_cons_self))) hid
  subst hsame
  have htwice : List.Sublist [first, first] (sys.deliveredOf first.stream) := by
    have hpair : [first, first].filter (fun handed => handed.stream = first.stream) =
        [first, first] := by
      simp
    have hfilter := hsub.filter fun handed => handed.stream = first.stream
    rwa [hpair] at hfilter
  have hlt := (h.ordered first.stream).sublist (htwice.map _)
  rw [List.map_cons, List.pairwise_cons] at hlt
  exact Nat.lt_irrefl _ (hlt.1 first.msgId List.mem_cons_self)

/-- A task that can receive no more has received everything that was written. -/
theorem Inv.drained (h : Inv P recvStreams maxBacklog sys) (hfits : sys.loop.Fits)
    (hdone : ∀ task ∈ sys.loop.set, task.rest = []) {task : ReaderTask} (htask : task ∈ sys.tasks)
    (hsent : task.pc.sent = none) {error : ReceiveError}
    (hfails : QuicClient.recv decode [sys.unread task] = .error error) :
    sys.deliveredOf task.stream = sys.loop.givenOf task.stream := by
  have hinv := h.tasks task htask
  have htaken : sys.taken task = sys.deliveredOf task.stream := by
    rw [taken, hsent, Option.toList_none, List.append_nil]
  obtain ⟨more, hmore⟩ := hinv.taken
  cases more with
  | nil => rwa [List.append_nil, htaken] at hmore
  | cons first more =>
    obtain ⟨close, hframes⟩ := h.frames_eq task.stream
    have hwritten : sys.loop.written task.stream = sys.loop.frames P task.stream :=
      h.loop.parts.pool.written_eq fun other hother _ => hdone other hother
    have hunread : sys.unread task = (Frame.ofNumbered first.numbered).bytes P ++
        (frameBytes P more ++ close.toList.flatMap fun error => (Frame.close error).bytes P) := by
      rw [unread, hwritten, hframes, ← hmore, hinv.consumed, frameBytes, frameBytes,
        List.flatMap_append, List.append_assoc, List.drop_left' rfl, List.flatMap_cons,
        List.append_assoc]
      rfl
    have hmem : first ∈ sys.loop.givenOf task.stream := by
      rw [← hmore]
      exact List.mem_append_right _ List.mem_cons_self
    obtain ⟨hid, hlen⟩ := h.fits hfits hmem
    have hstream : List.flatten [sys.unread task] = (Frame.ofNumbered first.numbered).bytes P ++
        (frameBytes P more ++ close.toList.flatMap fun error => (Frame.close error).bytes P) := by
      rw [List.flatten_singleton, hunread]
    obtain ⟨rest, hrecv, -⟩ := QuicClient.takes_message hid hlen _ _ hstream
    rw [hfails] at hrecv
    cases hrecv

theorem Inv.complete (h : Inv P recvStreams maxBacklog sys) (hfits : sys.loop.Fits)
    (hended : sys.loop.phase = .ended) (hdone : ∀ task ∈ sys.loop.set, task.rest = [])
    (hspawned : sys.stream.readers = []) (hidle : sys.Idle decode) :
    (sys.delivered.map fun handed => (handed.message, handed.msgId)).Perm
      sys.loop.received.zipIdx := by
  obtain ⟨sent, hmessages, -, hreceived⟩ := h.loop.parts.numbered.handed
  rw [h.loop.ended hended, Option.toList_none, List.append_nil] at hreceived
  rw [hreceived, ← hmessages, ← SendLoop.given_messages]
  apply List.Perm.map
  have hnodup : sys.loop.given.Nodup :=
    .of_map _ (h.loop.parts.numbered.given_increasing.imp Nat.ne_of_lt)
  refine (List.perm_ext_iff_of_nodup (.of_map _ h.once) hnodup).mpr fun handed => ?_
  constructor
  · intro hdelivered
    exact h.attempted handed (h.delivered handed hdelivered).1
  · intro hgiven
    have hstreams := h.streams
    rw [hspawned, List.nil_append] at hstreams
    have hopened : handed.stream ∈ List.range recvStreams := by
      obtain ⟨spawned, hspawned, hdata⟩ := List.mem_filterMap.mp hgiven
      obtain ⟨numbered, -, rfl⟩ := Option.map_eq_some_iff.mp hdata
      exact List.mem_range.mpr (h.opened spawned hspawned)
    obtain ⟨task, htask, hstream⟩ := List.mem_map.mp (hstreams.mem_iff.mpr hopened)
    obtain ⟨hsent, error, hfails⟩ := hidle task htask
    have hall := h.drained hfits hdone htask hsent hfails
    have hmem : handed ∈ sys.loop.givenOf task.stream :=
      List.mem_filter.mpr ⟨hgiven, decide_eq_true hstream.symm⟩
    rw [← hall] at hmem
    exact List.mem_of_mem_filter hmem

/-- Whatever the readers and the server do in whatever order, Kafka is given the messages
of the channel; each delivery is reported once, in order on each stream. -/
theorem reachable_relayed (hpos : 0 < recvStreams) (hP : P.Varints)
    (hdecode : DecodesClose P decode) (h : Reachable P decode recvStreams maxBacklog sys)
    (hfits : sys.loop.Fits) :
    Relayed decode sys := by
  have hinv := h.inv hpos hP hdecode hfits
  have hreceived : ∀ handed ∈ sys.attempts,
      sys.loop.received[handed.msgId]? = some handed.message := fun handed hhanded =>
    (hinv.loop.parts.numbered.received_of_given (hinv.attempted handed hhanded)).2
  exact
    { attempted := hreceived
      delivered := fun handed hhanded =>
        ⟨(hinv.delivered handed hhanded).1, hreceived _ (hinv.delivered handed hhanded).1⟩
      once := hinv.once
      ordered := hinv.ordered
      complete := hinv.complete hfits }

/-- A message that is delivered after one failure. -/
theorem reachable_relayed_retried : ∃ sys, Reachable wire decodeClose 1 1 sys ∧
    sys.attempts = [⟨0, 0, [7]⟩, ⟨0, 0, [7]⟩] ∧ sys.delivered = [⟨0, 0, [7]⟩] ∧
    Relayed decodeClose sys := by
  let first := (SendLoop.start 1).dispatch wire 1
  let second : SendLoop :=
    { first with
      nextMessage := some [7]
      received := first.received ++ [[7]]
      phase := .head }
  let third := second.dispatch wire 1
  let task : Task := ⟨0, .message 0 [7], (Frame.message 0 [7]).bytes wire, 0⟩
  let loop := third.write task [] [] 17
  have h₁ : SendLoop.Step wire 1 (.start 1) first := .dispatch rfl
  have h₂ : SendLoop.Step wire 1 first second := .message rfl rfl rfl [7]
  have h₃ : SendLoop.Step wire 1 second third := .dispatch rfl
  have h₄ : SendLoop.Step wire 1 third loop := .write task [] [] (by rfl) 17
  let reading : ReaderTask := ⟨0, 0, 0, .reading⟩
  let sending : ReaderTask := ⟨0, 0, 17, .sending ⟨0, 0, [7]⟩⟩
  let opened : SendLoop → Fanout := fun loop => ⟨loop, ⟨[0], 0⟩, [], [], []⟩
  let polled : Fanout := ⟨loop, ⟨[], u64Max⟩, [reading], [], []⟩
  let received : Fanout := ⟨loop, ⟨[], u64Max⟩, [sending], [], []⟩
  let retried : Fanout := ⟨loop, ⟨[], u64Max⟩, [sending], [⟨0, 0, [7]⟩], []⟩
  let delivered : Fanout := ⟨loop, ⟨[], u64Max⟩, [⟨0, 0, 17, .reading⟩],
    [⟨0, 0, [7]⟩, ⟨0, 0, [7]⟩], [⟨0, 0, [7]⟩]⟩
  have hserver : ∀ before after, SendLoop.Step wire 1 before after →
      Step wire decodeClose 1 (opened before) (opened after) := fun _ after h => .server after h
  have hwritten : Reachable wire decodeClose 1 1 (opened loop) :=
    (((Relation.ReflTransGen.single (hserver _ _ h₁)).tail (hserver _ _ h₂)).tail
      (hserver _ _ h₃)).tail (hserver _ _ h₄)
  have hspawned : QuicClientStream.pollNext ⟨[0], 0⟩ = (⟨[], u64Max⟩, [reading]) :=
    if_neg (by decide)
  have hpoll : (opened loop).poll = polled := by
    rw [Fanout.poll, show (opened loop).stream.pollNext = _ from hspawned]
    rfl
  have hpolled : Step wire decodeClose 1 (opened loop) polled := hpoll ▸ .poll
  have hreceived : Step wire decodeClose 1 polled received :=
    .recv [] [] reading rfl rfl [(Frame.message 0 [7]).bytes wire] [[]] 0 [7] (by decide +kernel)
      (by decide +kernel)
  have hretried : Step wire decodeClose 1 received retried := .retry [] [] sending rfl _ rfl
  have hdelivered : Step wire decodeClose 1 retried delivered := .deliver [] [] sending rfl _ rfl
  have hreach : Reachable wire decodeClose 1 1 delivered :=
    (((hwritten.tail hpolled).tail hreceived).tail hretried).tail hdelivered
  have hfits : delivered.loop.Fits := by
    refine ⟨by decide +kernel, ?_⟩
    intro message hmessage
    rw [List.mem_singleton.mp hmessage]
    decide
  exact ⟨delivered, hreach, rfl, rfl,
    reachable_relayed Nat.one_pos wire_varints decodeClose_decodes hreach hfits⟩

end Fanout

end Dragonmouth.Transports
