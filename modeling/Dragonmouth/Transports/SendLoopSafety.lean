import Dragonmouth.Transports.SendLoop

/-!
# Safety of the send loop

No stream and no message is lost: whatever the order in which messages arrive
and tasks end, the streams are idle or held by one task each, messages are
handed to tasks in order under consecutive ids, and the ids in flight stay within
the backlog window.

The invariant has three parts, about the streams, the messages and the ids.
Spawning a task, joining one and writing are the only operations, and each part
has one lemma for each of them.

## Main definitions

- `SendLoop.Safe`: what holds wherever the loop is
- `SendLoop.Pool`, `SendLoop.Numbered`, `SendLoop.InFlight`: the invariant
-/

namespace Dragonmouth.Transports

open Plugin (RecvItem RecvError)
open Encoding (Prost wire)

namespace SendLoop

variable {P : Prost} {loop loop' : SendLoop} {recvStreams maxBacklog : ℕ}

/-- The messages handed to tasks, with their ids, in the order of the tasks. -/
def messages (loop : SendLoop) : List (RecvItem × ℕ) :=
  loop.spawned.filterMap fun spawned => spawned.2.numbered

/-- The frames given to the tasks of a stream, one after the other. -/
def frames (P : Prost) (loop : SendLoop) (stream : ℕ) : Bytes :=
  (loop.spawned.filter fun spawned => spawned.1 = stream).flatMap fun spawned => spawned.2.bytes P

/-- What holds wherever the loop is. -/
structure Safe (P : Prost) (recvStreams maxBacklog : ℕ) (loop : SendLoop) : Prop where
  /-- No stream is lost. -/
  streams : loop.streams.length + loop.set.length = recvStreams
  /-- A stream is idle or held by one task. -/
  separate : (loop.streams ++ loop.set.map Task.stream).Nodup
  /-- The `i`-th message received is handed to one task, with the id `i`, or waits. -/
  assigned : ∃ sent, loop.messages = sent.zipIdx ∧
    loop.received = sent ++ loop.nextMessage.toList
  /-- A stream carries whole frames, one after the other, up to what its task has
  still to write. -/
  framed : ∀ stream, (∀ task ∈ loop.set, task.stream = stream → task.rest <:+ task.frame.bytes P ∧
      loop.written stream ++ task.rest = loop.frames P stream) ∧
    ((∀ task ∈ loop.set, task.stream ≠ stream) → loop.written stream = loop.frames P stream)
  /-- The ids are those of the unfinished data tasks, one each. -/
  ids : (loop.set.filterMap Task.dataId).Nodup ∧
    ∀ k, k ∈ loop.msgIds ↔ k ∈ loop.set.filterMap Task.dataId
  below : ∀ k ∈ loop.msgIds, k < loop.msgId
  window : ∀ i ∈ loop.msgIds, ∀ j ∈ loop.msgIds, j < i + maxBacklog
  /-- When the loop has ended, every message received has been handed over. -/
  ended : loop.phase = .ended → loop.messages = loop.received.zipIdx
  /-- The guards of the error path never fail. -/
  guarded : loop.phase ≠ .panicked ∧ loop.phase ≠ .unavailable

-- ════════════════════════════════════════════════════════════════════════
-- Streams
-- ════════════════════════════════════════════════════════════════════════

/-- Every opened stream is idle or held by one task, and carries whole frames up
to what its task has still to write. -/
structure Pool (P : Prost) (recvStreams : ℕ) (loop : SendLoop) : Prop where
  streams : (loop.streams ++ loop.set.map Task.stream).Perm (List.range recvStreams)
  busy : ∀ task ∈ loop.set, task.rest <:+ task.frame.bytes P ∧
    loop.written task.stream ++ task.rest = loop.frames P task.stream
  idle : ∀ stream, (∀ task ∈ loop.set, task.stream ≠ stream) →
    loop.written stream = loop.frames P stream

theorem Pool.start : Pool P recvStreams (start recvStreams) := by
  refine ⟨?_, fun _ h => (nomatch h), fun _ _ => rfl⟩
  simp [SendLoop.start]

theorem Pool.nodup (h : Pool P recvStreams loop) :
    (loop.streams ++ loop.set.map Task.stream).Nodup :=
  h.streams.nodup_iff.mpr List.nodup_range

theorem frames_append {stream : ℕ} {frame : Frame}
    (h : loop'.spawned = loop.spawned ++ [(stream, frame)]) (k : ℕ) :
    loop'.frames P k = loop.frames P k ++ if stream = k then frame.bytes P else [] := by
  rw [frames, h]
  by_cases hk : stream = k <;> simp [frames, List.filter_append, hk]

/-- An idle stream is given to a new task. -/
theorem Pool.spawn (h : Pool P recvStreams loop) {stream msgId : ℕ} {frame : Frame}
    (hstreams : loop.streams = stream :: loop'.streams)
    (hset : loop'.set = ⟨stream, frame, frame.bytes P, msgId⟩ :: loop.set)
    (hspawned : loop'.spawned = loop.spawned ++ [(stream, frame)])
    (hwritten : loop'.written = loop.written) : Pool P recvStreams loop' := by
  have hnodup := h.nodup
  rw [hstreams, List.cons_append, List.nodup_cons] at hnodup
  have hfree : ∀ task ∈ loop.set, task.stream ≠ stream := by
    rintro task ht rfl
    exact hnodup.1 (List.mem_append_right _ (List.mem_map_of_mem ht))
  refine ⟨?_, fun task ht => ?_, fun k hk => ?_⟩
  · have hperm := h.streams
    rw [hstreams] at hperm
    rw [hset]
    exact List.perm_middle.trans hperm
  · rw [hset] at ht
    rw [hwritten, frames_append hspawned]
    rcases List.mem_cons.mp ht with rfl | ht
    · rw [if_pos rfl, h.idle stream hfree]
      exact ⟨List.suffix_refl _, rfl⟩
    · rw [if_neg (hfree task ht).symm, List.append_nil]
      exact h.busy task ht
  · rw [hset] at hk
    have hne : stream ≠ k := hk _ List.mem_cons_self
    rw [hwritten, frames_append hspawned, if_neg hne, List.append_nil]
    exact h.idle k fun task ht => hk task (List.mem_cons_of_mem _ ht)

/-- A task that has written its frame gives its stream back. -/
theorem Pool.join (h : Pool P recvStreams loop) {task : Task} {before after : List Task}
    (hrun : loop.set = before ++ task :: after) (hdone : task.rest = []) :
    Pool P recvStreams (loop.join task (before ++ after)) := by
  have hmem : ∀ t ∈ before ++ after, t ∈ loop.set := by
    intro t ht
    rw [hrun]
    rcases List.mem_append.mp ht with ht | ht
    · exact List.mem_append_left _ ht
    · exact List.mem_append_right _ (List.mem_cons_of_mem _ ht)
  refine ⟨?_, fun t ht => h.busy t (hmem t ht), fun k hk => ?_⟩
  · have hperm := h.streams
    rw [hrun, List.map_append, List.map_cons] at hperm
    refine List.Perm.trans ?_ hperm
    change (loop.streams ++ [task.stream] ++ (before ++ after).map Task.stream).Perm _
    rw [List.append_assoc, List.map_append, List.singleton_append]
    exact List.Perm.append_left _ List.perm_middle.symm
  · by_cases hstream : task.stream = k
    · have hbusy := (h.busy task (by rw [hrun]; simp)).2
      rw [hdone, List.append_nil, hstream] at hbusy
      exact hbusy
    · refine h.idle k fun t ht => ?_
      rw [hrun] at ht
      rcases List.mem_append.mp ht with ht | ht
      · exact hk t (List.mem_append_left _ ht)
      · rcases List.mem_cons.mp ht with rfl | ht
        · exact hstream
        · exact hk t (List.mem_append_right _ ht)

/-- Writing moves bytes of the frame to the stream. -/
theorem Pool.write (h : Pool P recvStreams loop) {task : Task} {before after : List Task}
    (hrun : loop.set = before ++ task :: after) (n : ℕ) :
    Pool P recvStreams (loop.write task before after n) := by
  have hnodup := (List.nodup_append.mp h.nodup).2.1
  rw [hrun, List.map_append, List.map_cons, List.nodup_middle, List.nodup_cons] at hnodup
  have hother : ∀ t, t ∈ before ∨ t ∈ after → t ∈ loop.set ∧ t.stream ≠ task.stream := by
    intro t ht
    refine ⟨by rw [hrun]; simp only [List.mem_append, List.mem_cons]; tauto, fun he => ?_⟩
    refine hnodup.1 (he ▸ ?_)
    simp only [List.mem_append, List.mem_map]
    rcases ht with ht | ht
    · exact .inl ⟨t, ht, rfl⟩
    · exact .inr ⟨t, ht, rfl⟩
  obtain ⟨hsuffix, hbytes⟩ := h.busy task (by rw [hrun]; simp)
  refine ⟨?_, fun t ht => ?_, fun k hk => ?_⟩
  · have hperm := h.streams
    rw [hrun] at hperm
    simpa [SendLoop.write] using hperm
  · have hcases : (t ∈ before ∨ t ∈ after) ∨ t = { task with rest := task.rest.drop n } := by
      have ht' : t ∈ before ++ { task with rest := task.rest.drop n } :: after := ht
      simp only [List.mem_append, List.mem_cons] at ht'
      tauto
    rcases hcases with ht | rfl
    · obtain ⟨hmem, hne⟩ := hother t ht
      change _ ∧ Function.update loop.written task.stream _ t.stream ++ _ = loop.frames P t.stream
      rw [Function.update_of_ne hne]
      exact h.busy t hmem
    · refine ⟨(List.drop_suffix n task.rest).trans hsuffix, ?_⟩
      change Function.update loop.written task.stream _ task.stream ++ task.rest.drop n =
        loop.frames P task.stream
      rw [Function.update_self, List.append_assoc, List.take_append_drop, hbytes]
  · have hne : k ≠ task.stream := fun he => hk { task with rest := task.rest.drop n }
      (by simp [SendLoop.write]) he.symm
    change Function.update loop.written task.stream _ k = loop.frames P k
    rw [Function.update_of_ne hne]
    refine h.idle k fun t ht => ?_
    rw [hrun] at ht
    rcases List.mem_append.mp ht with ht | ht
    · exact hk t (List.mem_append_left _ ht)
    · rcases List.mem_cons.mp ht with rfl | ht
      · exact hne.symm
      · exact hk t (List.mem_append_right _ (List.mem_cons_of_mem _ ht))

/-- The messages received are those handed to tasks, in order, and the one that
waits; an error comes only when none waits. -/
structure Numbered (loop : SendLoop) : Prop where
  handed : ∃ sent, loop.messages = sent.zipIdx ∧ sent.length = loop.msgId ∧
    loop.received = sent ++ loop.nextMessage.toList
  failed : loop.failed → loop.nextMessage = none

theorem messages_append {stream : ℕ} {frame : Frame}
    (h : loop'.spawned = loop.spawned ++ [(stream, frame)]) :
    loop'.messages = loop.messages ++ frame.numbered.toList := by
  rw [messages, h, List.filterMap_append]
  cases frame <;> rfl

/-- The ids in flight are those of the data tasks; a task for a close frame, of
which there is none before an error, returns the id that comes next. -/
structure InFlight (maxBacklog : ℕ) (loop : SendLoop) : Prop where
  nodup : (loop.set.filterMap Task.dataId).Nodup
  mem_iff : ∀ k, k ∈ loop.msgIds ↔ k ∈ loop.set.filterMap Task.dataId
  own : ∀ task ∈ loop.set, ∀ k, task.dataId = some k → task.msgId = k
  close : ∀ task ∈ loop.set, task.dataId = none → loop.failed ∧ task.msgId = loop.msgId
  below : ∀ k ∈ loop.msgIds, k < loop.msgId
  window : ∀ i ∈ loop.msgIds, ∀ j ∈ loop.msgIds, j < i + maxBacklog

/-- The first id is no greater than any other. -/
theorem firstId_le {k : ℕ} (h : k ∈ loop.msgIds) : loop.firstId ≤ k := by
  rw [firstId, dif_pos ⟨k, h⟩]
  exact Finset.min'_le _ _ h

/-- A message is handed to a task within the window. -/
theorem InFlight.dispatch (h : InFlight maxBacklog loop) {stream : ℕ} {data : RecvItem}
    {rest : Bytes} (hwindow : loop.msgId - loop.firstId < maxBacklog)
    (hopen : loop.failed = false)
    (hset : loop'.set = ⟨stream, .message loop.msgId data, rest, loop.msgId⟩ :: loop.set)
    (hids : loop'.msgIds = insert loop.msgId loop.msgIds) (hnext : loop'.msgId = loop.msgId + 1) :
    InFlight maxBacklog loop' := by
  have hfresh : loop.msgId ∉ loop.msgIds := fun hm => lt_irrefl _ (h.below _ hm)
  have hdata : loop'.set.filterMap Task.dataId = loop.msgId :: loop.set.filterMap Task.dataId := by
    rw [hset]
    rfl
  refine ⟨?_, fun k => ?_, ?_, ?_, ?_, ?_⟩
  · rw [hdata, List.nodup_cons, ← h.mem_iff]
    exact ⟨hfresh, h.nodup⟩
  · rw [hids, hdata, Finset.mem_insert, List.mem_cons, h.mem_iff]
  · rw [hset]
    intro task ht k hk
    rcases List.mem_cons.mp ht with rfl | ht
    · exact Option.some.inj hk
    · exact h.own task ht k hk
  · rw [hset]
    intro task ht hk
    rcases List.mem_cons.mp ht with rfl | ht
    · cases hk
    · have := (h.close task ht hk).1
      rw [hopen] at this
      cases this
  · rw [hids, hnext]
    intro k hk
    rcases Finset.mem_insert.mp hk with rfl | hk
    · exact Nat.lt_succ_self _
    · exact (h.below k hk).trans (Nat.lt_succ_self _)
  · rw [hids]
    intro i hi j hj
    have hpos : 0 < maxBacklog := by omega
    rcases Finset.mem_insert.mp hi with rfl | hi
    · rcases Finset.mem_insert.mp hj with rfl | hj
      · omega
      · have := h.below j hj
        omega
    · rcases Finset.mem_insert.mp hj with rfl | hj
      · have := firstId_le hi
        omega
      · exact h.window i hi j hj

/-- The id of a joined task is no longer in flight. -/
theorem InFlight.join (h : InFlight maxBacklog loop) {task : Task} {before after : List Task}
    (hrun : loop.set = before ++ task :: after) :
    InFlight maxBacklog (loop.join task (before ++ after)) := by
  have hmem : ∀ t ∈ before ++ after, t ∈ loop.set := by
    intro t ht
    rw [hrun]
    simp only [List.mem_append, List.mem_cons] at ht ⊢
    tauto
  have hids : ((loop.join task (before ++ after)).set.filterMap Task.dataId).Nodup ∧
      ∀ k, k ∈ loop.msgIds.erase task.msgId ↔ k ∈ (before ++ after).filterMap Task.dataId := by
    have hnodup := h.nodup
    have hiff := h.mem_iff
    have htask : task ∈ loop.set := by
      rw [hrun]
      simp
    rw [hrun, List.filterMap_append, List.filterMap_cons] at hnodup hiff
    change ((before ++ after).filterMap Task.dataId).Nodup ∧ _
    rw [List.filterMap_append]
    cases hd : task.dataId with
    | none =>
      -- the task of the close frame returns an id that is not in flight
      have hnot : task.msgId ∉ loop.msgIds := fun hm => by
        have := h.below _ hm
        rw [(h.close task htask hd).2] at this
        exact lt_irrefl _ this
      simp only [hd] at hnodup hiff
      rw [Finset.erase_eq_of_notMem hnot]
      exact ⟨hnodup, hiff⟩
    | some id =>
      simp only [hd] at hnodup hiff
      rw [List.nodup_middle, List.nodup_cons] at hnodup
      refine ⟨hnodup.2, fun k => ?_⟩
      rw [h.own task htask id hd, Finset.mem_erase, hiff, List.mem_append, List.mem_cons,
        List.mem_append]
      have hfresh := hnodup.1
      rw [List.mem_append] at hfresh
      by_cases hk : k = id
      · subst hk
        simpa using hfresh
      · simp [hk]
  exact
    { nodup := hids.1
      mem_iff := hids.2
      own := fun t ht => h.own t (hmem t ht)
      close := fun t ht => h.close t (hmem t ht)
      below := fun k hk => h.below k (Finset.mem_of_mem_erase hk)
      window := fun i hi j hj =>
        h.window i (Finset.mem_of_mem_erase hi) j (Finset.mem_of_mem_erase hj) }

/-- A task that writes a close frame adds no id. -/
theorem InFlight.close_spawn (h : InFlight maxBacklog loop) {stream : ℕ} {error : RecvError}
    {rest : Bytes} (hfailed : loop'.failed = true)
    (hset : loop'.set = ⟨stream, .close error, rest, loop.msgId⟩ :: loop.set)
    (hids : loop'.msgIds = loop.msgIds) (hnext : loop'.msgId = loop.msgId) :
    InFlight maxBacklog loop' := by
  have hdata : loop'.set.filterMap Task.dataId = loop.set.filterMap Task.dataId := by
    rw [hset]
    rfl
  refine ⟨hdata ▸ h.nodup, fun k => by rw [hids, hdata, h.mem_iff], ?_, ?_, ?_, hids ▸ h.window⟩
  · rw [hset]
    intro task ht k hk
    rcases List.mem_cons.mp ht with rfl | ht
    · cases hk
    · exact h.own task ht k hk
  · rw [hset, hnext]
    intro task ht hk
    rcases List.mem_cons.mp ht with rfl | ht
    · exact ⟨hfailed, rfl⟩
    · exact ⟨hfailed, (h.close task ht hk).2⟩
  · rw [hids, hnext]
    exact h.below

/-- Writing changes neither the frames of the tasks nor their ids. -/
theorem InFlight.write (h : InFlight maxBacklog loop) {task : Task} {before after : List Task}
    (hrun : loop.set = before ++ task :: after) (n : ℕ) :
    InFlight maxBacklog (loop.write task before after n) := by
  have hdata : (loop.write task before after n).set.filterMap Task.dataId =
      loop.set.filterMap Task.dataId := by
    rw [hrun]
    simp only [SendLoop.write, List.filterMap_append, List.filterMap_cons]
    rfl
  have hold : ∀ t ∈ (loop.write task before after n).set, ∃ t' ∈ loop.set,
      t.dataId = t'.dataId ∧ t.msgId = t'.msgId := by
    intro t ht
    have ht' : t ∈ before ++ { task with rest := task.rest.drop n } :: after := ht
    rw [hrun]
    rcases List.mem_append.mp ht' with ht | ht
    · exact ⟨t, List.mem_append_left _ ht, rfl, rfl⟩
    · rcases List.mem_cons.mp ht with rfl | ht
      · exact ⟨task, by simp, rfl, rfl⟩
      · exact ⟨t, by simp [ht], rfl, rfl⟩
  refine ⟨hdata ▸ h.nodup, fun k => by rw [hdata]; exact h.mem_iff k, ?_, ?_, h.below, h.window⟩
  · intro t ht k hk
    obtain ⟨t', ht', hd, hid⟩ := hold t ht
    rw [hid]
    exact h.own t' ht' k (hd ▸ hk)
  · intro t ht hk
    obtain ⟨t', ht', hd, hid⟩ := hold t ht
    rw [hid]
    exact h.close t' ht' (hd ▸ hk)

-- ════════════════════════════════════════════════════════════════════════
-- The loop
-- ════════════════════════════════════════════════════════════════════════

/-- The three parts of the invariant. -/
structure Parts (P : Prost) (recvStreams maxBacklog : ℕ) (loop : SendLoop) : Prop where
  pool : Pool P recvStreams loop
  numbered : Numbered loop
  inFlight : InFlight maxBacklog loop

/-- The invariant: its parts, and what holds where the loop waits for a stream or
has ended. -/
structure Inv (P : Prost) (recvStreams maxBacklog : ℕ) (loop : SendLoop) : Prop where
  parts : Parts P recvStreams maxBacklog loop
  closing : ∀ error, loop.phase = .closing error → loop.failed = true ∧ loop.streams = []
  ended : loop.phase = .ended → loop.nextMessage = none
  guarded : loop.phase ≠ .panicked ∧ loop.phase ≠ .unavailable

theorem Parts.start : Parts P recvStreams maxBacklog (start recvStreams) where
  pool := .start
  numbered := ⟨⟨[], rfl, rfl, rfl⟩, fun _ => rfl⟩
  inFlight :=
    { nodup := List.nodup_nil
      mem_iff := fun k => by simp [SendLoop.start]
      own := fun _ h => (nomatch h)
      close := fun _ h => (nomatch h)
      below := fun _ h => absurd h (Finset.notMem_empty _)
      window := fun _ h => absurd h (Finset.notMem_empty _) }

/-- The parts do not depend on where the loop is. -/
theorem Parts.atPhase (h : Parts P recvStreams maxBacklog loop) (phase : Phase) :
    Parts P recvStreams maxBacklog { loop with phase := phase } :=
  ⟨⟨h.pool.streams, h.pool.busy, h.pool.idle⟩, ⟨h.numbered.handed, h.numbered.failed⟩,
    ⟨h.inFlight.nodup, h.inFlight.mem_iff, h.inFlight.own, h.inFlight.close, h.inFlight.below,
      h.inFlight.window⟩⟩

theorem Parts.inv (h : Parts P recvStreams maxBacklog loop)
    (hp : loop.phase = .head ∨ loop.phase = .select) : Inv P recvStreams maxBacklog loop := by
  have hne : ∀ phase, phase ≠ .head → phase ≠ .select → loop.phase ≠ phase := by
    rintro phase hhead hselect rfl
    exact hp.elim hhead hselect
  exact ⟨h, fun error he => absurd he (hne _ (by simp) (by simp)),
    fun he => absurd he (hne _ (by simp) (by simp)), hne _ (by simp) (by simp),
    hne _ (by simp) (by simp)⟩

/-- What the beginning of an iteration does. -/
theorem dispatch_cases (P : Prost) (loop : SendLoop) (maxBacklog : ℕ) :
    loop.dispatch P maxBacklog = { loop with phase := .select } ∨
    ∃ stream streams message, loop.msgId - loop.firstId < maxBacklog ∧
      loop.nextMessage = some message ∧ loop.streams = stream :: streams ∧
      loop.dispatch P maxBacklog =
        { loop with
          streams := streams
          msgId := loop.msgId + 1
          msgIds := insert loop.msgId loop.msgIds
          nextMessage := none
          set := ⟨stream, .message loop.msgId message, (Frame.message loop.msgId message).bytes P,
            loop.msgId⟩ :: loop.set
          phase := .select
          spawned := loop.spawned ++ [(stream, .message loop.msgId message)] } := by
  by_cases hw : loop.msgId - loop.firstId < maxBacklog
  · cases hn : loop.nextMessage with
    | none =>
      refine .inl ?_
      simp [dispatch, hn]
    | some message =>
      cases hs : loop.streams with
      | nil =>
        refine .inl ?_
        simp [dispatch, hn, hs]
      | cons stream streams =>
        refine .inr ⟨stream, streams, message, hw, rfl, rfl, ?_⟩
        have hw' : { loop with phase := .select }.msgId -
            { loop with phase := .select }.firstId < maxBacklog := hw
        rw [dispatch]
        simp only [if_pos hw']
        simp only [hn, hs, spawn]
  · refine .inl ?_
    have hw' : ¬{ loop with phase := .select }.msgId -
        { loop with phase := .select }.firstId < maxBacklog := hw
    rw [dispatch]
    simp only [if_neg hw']

theorem Parts.dispatch (h : Parts P recvStreams maxBacklog loop) :
    Parts P recvStreams maxBacklog (loop.dispatch P maxBacklog) := by
  rcases dispatch_cases P loop maxBacklog with
    he | ⟨stream, streams, message, hw, hn, hs, he⟩
  · rw [he]
    exact h.atPhase .select
  · rw [he]
    have hopen : loop.failed = false := by
      cases hf : loop.failed with
      | false => rfl
      | true =>
        have hnone := h.numbered.failed hf
        rw [hn] at hnone
        cases hnone
    obtain ⟨sent, hsent, hlen, hreceived⟩ := h.numbered.handed
    refine ⟨h.pool.spawn hs rfl rfl rfl, ⟨⟨sent ++ [message], ?_, ?_, ?_⟩, fun _ => rfl⟩,
      h.inFlight.dispatch hw hopen rfl rfl rfl⟩
    · rw [messages_append rfl, hsent, List.zipIdx_append, hlen, Nat.zero_add]
      rfl
    · rw [List.length_append, hlen]
      rfl
    · rw [hn] at hreceived
      simpa using hreceived

theorem dispatch_phase (P : Prost) (loop : SendLoop) (maxBacklog : ℕ) :
    (loop.dispatch P maxBacklog).phase = .select := by
  rcases dispatch_cases P loop maxBacklog with he | ⟨stream, streams, message, -, -, -, he⟩
  · rw [he]
  · rw [he]

/-- The close frame is given to the first idle stream. -/
theorem Parts.sendClose (h : Parts P recvStreams maxBacklog loop) (hfailed : loop.failed = true)
    (error : RecvError) (hs : loop.streams ≠ []) :
    Inv P recvStreams maxBacklog (loop.sendClose P error) := by
  obtain ⟨stream, streams, hs⟩ := List.exists_cons_of_ne_nil hs
  rw [SendLoop.sendClose, hs]
  refine Parts.inv ⟨h.pool.spawn hs rfl rfl rfl, ⟨?_, h.numbered.failed⟩,
    h.inFlight.close_spawn hfailed rfl rfl rfl⟩ (.inl rfl)
  obtain ⟨sent, hsent, hlen, hreceived⟩ := h.numbered.handed
  exact ⟨sent, by rw [messages_append rfl, hsent]; exact List.append_nil _, hlen, hreceived⟩

theorem Parts.fail (h : Parts P recvStreams maxBacklog loop) (hnone : loop.nextMessage = none)
    (error : RecvError) : Inv P recvStreams maxBacklog (loop.fail P error) := by
  have hfailed : Parts P recvStreams maxBacklog { loop with failed := true } :=
    ⟨⟨h.pool.streams, h.pool.busy, h.pool.idle⟩, ⟨h.numbered.handed, fun _ => hnone⟩,
      ⟨h.inFlight.nodup, h.inFlight.mem_iff, h.inFlight.own,
        fun t ht hk => ⟨rfl, (h.inFlight.close t ht hk).2⟩, h.inFlight.below, h.inFlight.window⟩⟩
  rw [SendLoop.fail]
  by_cases hs : loop.streams = []
  · rw [if_pos hs]
    exact ⟨hfailed.atPhase _, fun _ _ => ⟨rfl, hs⟩, fun hp => (nomatch hp),
      fun hp => (nomatch hp), fun hp => (nomatch hp)⟩
  · rw [if_neg hs]
    exact hfailed.sendClose rfl error hs

theorem Parts.join (h : Parts P recvStreams maxBacklog loop) {task : Task}
    {before after : List Task} (hrun : loop.set = before ++ task :: after)
    (hdone : task.rest = []) : Parts P recvStreams maxBacklog (loop.join task (before ++ after)) :=
  ⟨h.pool.join hrun hdone, ⟨h.numbered.handed, h.numbered.failed⟩, h.inFlight.join hrun⟩

/-- Every step keeps the invariant. -/
theorem Inv.step (hpos : 0 < recvStreams) (h : Inv P recvStreams maxBacklog loop)
    (hstep : Step P maxBacklog loop loop') : Inv P recvStreams maxBacklog loop' := by
  cases hstep with
  | dispatch => exact h.parts.dispatch.inv (.inr (dispatch_phase P loop maxBacklog))
  | message _ hempty hopen message =>
    obtain ⟨sent, hsent, hlen, hreceived⟩ := h.parts.numbered.handed
    have hpool := h.parts.pool
    have hin := h.parts.inFlight
    refine Parts.inv ⟨⟨hpool.streams, hpool.busy, hpool.idle⟩,
      ⟨⟨sent, hsent, hlen, ?_⟩, fun hf => ?_⟩,
      ⟨hin.nodup, hin.mem_iff, hin.own, hin.close, hin.below, hin.window⟩⟩ (.inl rfl)
    · rw [hempty, Option.toList_none, List.append_nil] at hreceived
      rw [hreceived]
      rfl
    · have hf' : loop.failed = true := hf
      rw [hopen] at hf'
      cases hf'
  | fail _ hempty _ error => exact h.parts.fail hempty error
  | finish _ hempty =>
    exact ⟨h.parts.atPhase _, fun _ hp => (nomatch hp), fun _ => hempty,
      fun hp => (nomatch hp), fun hp => (nomatch hp)⟩
  | join _ task before after hrun hdone =>
    exact ((h.parts.join hrun hdone).atPhase .head).inv (.inl rfl)
  | joinClosing error hcloses task before after hrun hdone =>
    obtain ⟨hfailed, -⟩ := h.closing error hcloses
    exact (h.parts.join hrun hdone).sendClose hfailed error (by simp [SendLoop.join])
  | joinNothing error hcloses hnothing =>
    -- all streams are idle or held, and there is at least one
    obtain ⟨-, hstreams⟩ := h.closing error hcloses
    have hlen := h.parts.pool.streams.length_eq
    simp only [hstreams, hnothing, List.map_nil, List.append_nil, List.length_nil,
      List.length_range] at hlen
    omega
  | write task before after hrun n =>
    exact ⟨⟨h.parts.pool.write hrun n, ⟨h.parts.numbered.handed, h.parts.numbered.failed⟩,
      h.parts.inFlight.write hrun n⟩, h.closing, h.ended, h.guarded⟩

theorem Inv.safe (h : Inv P recvStreams maxBacklog loop) : Safe P recvStreams maxBacklog loop := by
  obtain ⟨sent, hsent, hlen, hreceived⟩ := h.parts.numbered.handed
  have hpool := h.parts.pool
  have hin := h.parts.inFlight
  refine
    { streams := ?_
      separate := hpool.nodup
      assigned := ⟨sent, hsent, hreceived⟩
      framed := fun stream => ⟨?_, hpool.idle stream⟩
      ids := ⟨hin.nodup, hin.mem_iff⟩
      below := hin.below
      window := hin.window
      ended := fun hp => ?_
      guarded := h.guarded }
  · have hcount := hpool.streams.length_eq
    simpa using hcount
  · rintro task ht rfl
    exact hpool.busy task ht
  · rw [h.ended hp, Option.toList_none, List.append_nil] at hreceived
    rw [hsent, hreceived]

theorem Reachable.inv (hpos : 0 < recvStreams) (h : Reachable P recvStreams maxBacklog loop) :
    Inv P recvStreams maxBacklog loop := by
  induction h with
  | refl => exact Parts.start.inv (.inl rfl)
  | tail _ hstep ih => exact ih.step hpos hstep

/-- Whatever the order in which messages arrive and tasks end, no stream and no
message is lost and the window is kept. -/
theorem reachable_safe (hpos : 0 < recvStreams) (h : Reachable P recvStreams maxBacklog loop) :
    Safe P recvStreams maxBacklog loop :=
  (h.inv hpos).safe

/-- A message that has been handed to the only stream's task is in flight. -/
theorem reachable_safe_one : ∃ loop, Reachable wire 1 1 loop ∧ loop.received = [[7]] ∧
    loop.streams = [] ∧ 0 ∈ loop.msgIds ∧ Safe wire 1 1 loop := by
  let first := (start 1).dispatch wire 1
  let second : SendLoop :=
    { first with
      nextMessage := some [7]
      received := first.received ++ [[7]]
      phase := .head }
  have h₁ : Step wire 1 (start 1) first := .dispatch rfl
  have h₂ : Step wire 1 first second := .message rfl rfl rfl [7]
  have h₃ : Step wire 1 second (second.dispatch wire 1) := .dispatch rfl
  have hreach : Reachable wire 1 1 (second.dispatch wire 1) :=
    ((Relation.ReflTransGen.single h₁).tail h₂).tail h₃
  exact ⟨_, hreach, by decide +kernel, by decide +kernel, by decide +kernel,
    reachable_safe (by decide) hreach⟩

end SendLoop

end Dragonmouth.Transports
