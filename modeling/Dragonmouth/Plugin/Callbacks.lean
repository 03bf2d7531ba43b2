import Dragonmouth.Encoding.Agreement
import Dragonmouth.Plugin.StatusGaps
import Dragonmouth.Plugin.Wakeups

/-!
# The callbacks of the validator

Between `on_load` and `on_unload` the validator calls the plugin from several threads,
while subscribers work on the channel. What a callback is given becomes a message of the
channel, with messages before it for the statuses that have been missed. `on_unload` has
the plugin for itself: it closes the channel, and no callback comes after it.

## Main definitions

- `Callback.message`: the message a callback pushes
- `PluginRun`, `PluginRun.Step`: the plugin with its channel, and its steps
- `Follows`: what the channel is given for the messages of the callbacks

## Main results

- `PluginRun.accepted`: the channel holds what the callbacks have pushed, in order
- `unloaded_streams_end`: when `on_unload` has closed the channel, every stream ends
-/

namespace Dragonmouth.Plugin

open RingLog Shared
open Encoding (Buffer Prost Generated encodeRaw encodeProst wire generated)

-- ════════════════════════════════════════════════════════════════════════
-- Callbacks
-- ════════════════════════════════════════════════════════════════════════

inductive ReplicaAccountInfoVersions where
  | v001
  | v002
  | v003 (info : ReplicaAccountInfoV3)

inductive ReplicaTransactionInfoVersions where
  | v001
  | v002 (info : ReplicaTransactionInfoV2)

inductive ReplicaEntryInfoVersions where
  | v001
  | v002 (info : ReplicaEntryInfoV2)

inductive ReplicaBlockInfoVersions where
  | v001
  | v002
  | v003
  | v004 (info : ReplicaBlockInfoV4)

/-- What the validator hands over. -/
inductive Callback where
  | updateAccount (account : ReplicaAccountInfoVersions) (slot : Slot) (isStartup : Bool)
  | notifyEndOfStartup
  | updateSlotStatus (slot : Slot) (parent : Option Slot) (status : SlotStatus)
  | notifyTransaction (transaction : ReplicaTransactionInfoVersions) (slot : Slot)
  | notifyEntry (entry : ReplicaEntryInfoVersions)
  | notifyBlockMetadata (blockinfo : ReplicaBlockInfoVersions)

/-- The message that is pushed, if any, or the text of the panic. -/
def Callback.message : Callback → Except String (Option ProtobufMessage)
  | .updateAccount account slot isStartup =>
    if isStartup then .ok none
    else match account with
      | .v001 => .error "ReplicaAccountInfoVersions::V0_0_1 is not supported"
      | .v002 => .error "ReplicaAccountInfoVersions::V0_0_2 is not supported"
      | .v003 info => .ok (some (.account slot info))
  | .notifyEndOfStartup => .ok none
  | .updateSlotStatus slot parent status => .ok (some (.slot slot parent status))
  | .notifyTransaction .v001 _ =>
    .error "ReplicaAccountInfoVersions::V0_0_1 is not supported"
  | .notifyTransaction (.v002 info) slot => .ok (some (.transaction slot info))
  | .notifyEntry .v001 => .error "ReplicaEntryInfoVersions::V0_0_1 is not supported"
  | .notifyEntry (.v002 info) => .ok (some (.entry info))
  | .notifyBlockMetadata (.v004 info) => .ok (some (.blockMeta info))
  -- other versions are ignored with a warning
  | .notifyBlockMetadata _ => .ok none

inductive ProtobufEncoder where
  | prost
  | raw
  deriving DecidableEq

section

variable (P : Prost) (G : Generated)

/-- `ProtobufMessage::encode`, at a time and with what the buffer of the thread holds. -/
def ProtobufMessage.encode (self : ProtobufMessage) (encoder : ProtobufEncoder)
    (createdAt : Proto.Timestamp) (buffer : Buffer) : Bytes :=
  match encoder with
  | .prost => encodeProst G self createdAt
  | .raw => (encodeRaw P G self createdAt buffer).1.2

/-- A message, with the time and the buffer at its encoding. -/
structure Encoded where
  message : ProtobufMessage
  createdAt : Proto.Timestamp
  buffer : Buffer

def Encoded.data (encoder : ProtobufEncoder) (self : Encoded) : Bytes :=
  self.message.encode P G encoder self.createdAt self.buffer

def Encoded.stored (encoder : ProtobufEncoder) (self : Encoded) : Stored :=
  self.message.stored (self.data P G encoder)

end

-- ════════════════════════════════════════════════════════════════════════
-- Runs of the plugin
-- ════════════════════════════════════════════════════════════════════════

/-- A message that a callback has pushed; a push may panic half-way. -/
structure Submitted where
  message : ProtobufMessage
  returns : Bool

namespace System

/-- The messages the push in progress has still to store. -/
def underway (sys : System) : List Stored :=
  match sys.lock with
  | .pushing todo _ => todo.filterMap fun w => w.toStore.map Prod.fst
  | _ => []

/-- The messages stored so far, and those of the push in progress. -/
def accepted (sys : System) : List Stored := sys.log ++ sys.underway

/-- No push begins in a step. -/
def NoPush (sys sys' : System) : Prop :=
  sys.lock = .free → ∀ todo outcome, sys'.lock ≠ .pushing todo outcome

/-- No `close` begins in a step. -/
def NoClose (sys sys' : System) : Prop := ∀ id, sys.closers id = none → sys'.closers id = none

end System

/-- The plugin after `on_load`. The last two fields are history: the messages of the
callbacks, and the messages stored for them. -/
structure PluginRun where
  channel : System
  /-- `inner` is there -/
  loaded : Bool
  calls : List Submitted
  handed : List Encoded

namespace PluginRun

/-- `on_load` has created the channel. -/
def load (config : ConfigChannel) : PluginRun where
  channel := .new config
  loaded := true
  calls := []
  handed := []

section

variable (P : Prost) (G : Generated) (encoder : ProtobufEncoder)

/-- Encode every message at its time. -/
def encodeAt (context : ProtobufMessage → Proto.Timestamp × Buffer) (message : ProtobufMessage) :
    Bytes := message.encode P G encoder (context message).1 (context message).2

/-- A push has found the mutex free. -/
def push (run : PluginRun) (message : ProtobufMessage)
    (context : ProtobufMessage → Proto.Timestamp × Buffer) (batch : List ProtobufMessage)
    (outcome : Outcome) : PluginRun where
  channel := { run.channel with lock := .pushing outcome.shared.writes outcome }
  loaded := run.loaded
  calls := run.calls ++ [⟨message, Except.toBool outcome⟩]
  handed := run.handed ++
    (batch.take (outcome.shared.writes.filterMap CellWrite.toStore).length).map fun message =>
      ⟨message, (context message).1, (context message).2⟩

inductive Step (run : PluginRun) : PluginRun → Prop where
  | callback (callback : Callback) (message : ProtobufMessage)
      (context : ProtobufMessage → Proto.Timestamp × Buffer) (batch : List ProtobufMessage)
      (outcome : Outcome) (loaded : run.loaded = true)
      (pushes : callback.message = .ok (some message)) (free : run.channel.lock = .free)
      (walked : run.channel.shared.batch message = some batch)
      (runs : run.channel.shared.push (encodeAt P G encoder context) message = some outcome) :
      Step run (run.push message context batch outcome)
  /-- The channel and its subscribers go on, and so do a push and a `close`. -/
  | channel (channel' : System) (step : Plugin.Step run.channel channel')
      (noPush : run.channel.NoPush channel') (noClose : run.channel.NoClose channel') :
      Step run { run with channel := channel' }
  /-- `on_unload` takes `inner`, which no callback has at that time. -/
  | unload (id : ℕ) (loaded : run.loaded = true)
      (idle : ∀ todo outcome, run.channel.lock ≠ .pushing todo outcome)
      (fresh : run.channel.closers id = none) :
      Step run { run with
        loaded := false
        channel := { run.channel with
          closers := Function.update run.channel.closers id (some 0), closeBegan := true } }

abbrev Reachable (config : ConfigChannel) : PluginRun → Prop :=
  Relation.ReflTransGen (Step P G encoder) (load config)

end

/-- `on_unload` has closed the channel. -/
def Unloaded (run : PluginRun) : Prop :=
  run.loaded = false ∧ ∀ id, run.channel.closers id = none

end PluginRun

/-- A status of another slot, which a message makes up for before its own. -/
inductive MadeUpFor : ProtobufMessage → ProtobufMessage → Prop where
  | slot (slot slot' : Slot) (parent parent' : Option Slot) (status : SlotStatus) :
      MadeUpFor (.slot slot parent status) (.slot slot' parent' status)

/-- The messages stored for one that has been pushed; all of them if the push returns. -/
def Serves (call : Submitted) (part : List ProtobufMessage) : Prop :=
  ∃ missed, (∀ m ∈ missed, MadeUpFor call.message m) ∧ part <+: missed ++ [call.message] ∧
    (call.returns = true → part = missed ++ [call.message])

/-- The messages stored are those that have been pushed, in order, each after the statuses
it makes up for. -/
def Follows (calls : List Submitted) (handed : List ProtobufMessage) : Prop :=
  ∃ parts, List.Forall₂ Serves calls parts ∧ handed = parts.flatten

/-- One more call, with what is stored for it. -/
theorem Follows.snoc {calls : List Submitted}
    {handed part : List ProtobufMessage} {call : Submitted} (h : Follows calls handed)
    (hpart : Serves call part) : Follows (calls ++ [call]) (handed ++ part) := by
  obtain ⟨parts, hparts, rfl⟩ := h
  refine ⟨parts ++ [part], List.rel_append hparts (.cons hpart .nil), ?_⟩
  rw [List.flatten_append, List.flatten_singleton]

-- ════════════════════════════════════════════════════════════════════════
-- What a push stores
-- ════════════════════════════════════════════════════════════════════════

section

variable {sh : Shared} {log : List Stored} {pending : ℕ} {encode : ProtobufMessage → Bytes}
  {message : ProtobufMessage} {batch : List ProtobufMessage} {outcome : Outcome}

/-- A batch ends with its message, after messages that make up for its status. -/
theorem Shared.batch_madeUp (hbatch : sh.batch message = some batch) :
    ∃ missed, (∀ m ∈ missed, MadeUpFor message m) ∧ batch = missed ++ [message] := by
  cases message with
  | slot slot parent status =>
    obtain ⟨missed, hrun, rfl⟩ := Option.map_eq_some_iff.mp hbatch
    refine ⟨missed.reverse, fun m hm => ?_, List.reverse_cons⟩
    obtain ⟨k, entry, -, rfl⟩ := backfill_makesUp hrun m (List.mem_reverse.mp hm)
    exact .slot ..
  | account | transaction | entry | blockMeta =>
    cases hbatch
    exact ⟨[], fun _ hm => absurd hm List.not_mem_nil, rfl⟩

/-- The writes of a push store the first messages of its batch, and all if it returns. -/
theorem Shared.push_stores (h : sh.Sound log pending) (hwrites : sh.writes = [])
    (hbatch : sh.batch message = some batch) (hrun : sh.push encode message = some outcome) :
    (outcome.shared.writes.filterMap fun w => w.toStore.map Prod.fst) =
        (storedBatch encode batch).take
          (outcome.shared.writes.filterMap CellWrite.toStore).length ∧
      (Except.toBool outcome = true →
        (outcome.shared.writes.filterMap CellWrite.toStore).length = batch.length) := by
  have hfirst : ∀ writes : List CellWrite,
      (writes.filterMap fun w => w.toStore.map Prod.fst) =
        (writes.filterMap CellWrite.toStore).map Prod.fst := fun writes =>
    (List.map_filterMap ..).symm
  have hprogress : ∀ {sh' : Shared} {new : List Stored}, Progress sh sh' new →
      (sh'.writes.filterMap CellWrite.toStore) = new.zipIdx sh.state.tail := by
    intro sh' new hp
    obtain ⟨ws, hws, -, hstores⟩ := hp.writes
    rw [hws, hwrites, List.nil_append, hstores]
  rw [push_eq, hbatch, Option.map_some, Option.some.injEq] at hrun
  subst hrun
  rcases pushBatch_spec encode batch h with
    ⟨sh', hok, -, hp, -⟩ | ⟨e, new, -, herr, hpre, -, -, hp⟩
  · rw [hok]
    change (sh'.writes.filterMap _) = (storedBatch encode batch).take
        (sh'.writes.filterMap CellWrite.toStore).length ∧
      (_ → (sh'.writes.filterMap CellWrite.toStore).length = batch.length)
    rw [hfirst, hprogress hp, List.zipIdx_map_fst, List.length_zipIdx, List.take_length]
    exact ⟨rfl, fun _ => List.length_map _⟩
  · rw [herr]
    change (e.shared.writes.filterMap _) = (storedBatch encode batch).take
        (e.shared.writes.filterMap CellWrite.toStore).length ∧ (_ → _)
    rw [hfirst, hprogress hp, List.zipIdx_map_fst, List.length_zipIdx]
    exact ⟨List.prefix_iff_eq_take.mp hpre, fun h => (nomatch h)⟩

end

-- ════════════════════════════════════════════════════════════════════════
-- The channel without new calls
-- ════════════════════════════════════════════════════════════════════════

section

variable {config : ConfigChannel} {sys sys' : System}

/-- A push that goes on stores the messages it has still to store. -/
theorem Step.accepted (hs : Step sys sys') (hpush : sys.NoPush sys') :
    sys'.accepted = sys.accepted := by
  have hheld : ∀ {sys₁ sys₂ : System}, sys₁.history = sys₂.history → sys₁.lock = sys₂.lock →
      sys₁.accepted = sys₂.accepted := by
    intro sys₁ sys₂ hhistory hlock
    rw [System.accepted, System.accepted, System.log, System.log, System.underway,
      System.underway, hhistory, hlock]
  have hidle : ∀ {sys₁ sys₂ : System}, sys₁.history = sys₂.history →
      sys₁.underway = [] → sys₂.underway = [] → sys₁.accepted = sys₂.accepted := by
    intro sys₁ sys₂ hhistory h₁ h₂
    rw [System.accepted, System.accepted, System.log, System.log, hhistory, h₁, h₂]
  cases hs with
  | pushLock encode message outcome hfree => exact absurd rfl (hpush hfree _ _)
  | pushWrite w todo outcome hholds =>
    rw [System.accepted, System.accepted, System.log_write, System.underway, System.underway,
      hholds, List.append_assoc]
    congr 1
    cases hw : w.toStore <;> simp [hw]
  | pushUnlock outcome hholds =>
    refine hidle ?_ ?_ ?_
    · cases outcome <;> rfl
    · cases outcome <;> rfl
    · rw [System.underway, hholds]
      rfl
  | lockState id c hc hpc hfree =>
    refine hidle rfl rfl ?_
    rw [System.underway, hfree]
  | recheck id c hc hpc hholds =>
    refine hidle rfl rfl ?_
    rw [System.underway, hholds]
  | closeEnd id hdone hfree => exact hheld rfl rfl
  | subscribe | closeBegin | closeMark | poll | read => exact hheld rfl rfl

/-- Where no push begins, none is in progress afterwards that was not before. -/
theorem Step.not_pushing (hs : Step sys sys') (hpush : sys.NoPush sys')
    (h : ∀ todo outcome, sys.lock ≠ .pushing todo outcome) (todo : List CellWrite)
    (outcome : Outcome) : sys'.lock ≠ .pushing todo outcome := by
  cases hs with
  | pushLock encode message outcome' hfree => exact absurd rfl (hpush hfree _ _)
  | pushWrite w todo' outcome' hholds => exact absurd hholds (h _ _)
  | pushUnlock outcome' hholds => exact absurd hholds (h _ _)
  | lockState => exact fun hlock => (nomatch hlock)
  | recheck => exact fun hlock => (nomatch hlock)
  | subscribe | closeBegin | closeMark | closeEnd | poll | read => exact h todo outcome

/-- Where no `close` begins, none has begun afterwards that had not before. -/
theorem Step.closeBegan (hs : Step sys sys') (hclose : sys.NoClose sys') :
    sys'.closeBegan = sys.closeBegan := by
  cases hs with
  | closeBegin id hfresh =>
    have hnone := hclose id hfresh
    change Function.update sys.closers id (some 0) id = none at hnone
    rw [Function.update_self] at hnone
    cases hnone
  | pushUnlock outcome => cases outcome <;> rfl
  | _ => rfl

/-- A `close` goes on until it returns. -/
theorem System.closing (sys' : System) (h : ∃ id, (sys.closers id).isSome) :
    (∃ id, (sys'.closers id).isSome) ∨ sys.closeReturned sys' := by
  obtain ⟨id, hid⟩ := h
  by_cases hid' : (sys'.closers id).isSome
  · exact .inl ⟨id, hid'⟩
  · exact .inr ⟨id, hid, Option.not_isSome_iff_eq_none.mp hid'⟩

end

-- ════════════════════════════════════════════════════════════════════════
-- What holds in every run
-- ════════════════════════════════════════════════════════════════════════

namespace PluginRun

section

variable {P : Prost} {G : Generated} {encoder : ProtobufEncoder} {config : ConfigChannel}
  {run run' : PluginRun}

variable (P G encoder config) in
structure Inv (run : PluginRun) : Prop where
  observed : ∃ stored closed, Observed config run.channel stored closed ∧
    (run.loaded = false → (∃ id, (run.channel.closers id).isSome) ∨ closed)
  idle : run.loaded = false → ∀ todo outcome, run.channel.lock ≠ .pushing todo outcome
  began : run.channel.closeBegan = true → run.loaded = false
  accepted : run.channel.accepted = run.handed.map (Encoded.stored P G encoder)
  follows : Follows run.calls (run.handed.map Encoded.message)

theorem Inv.reachable (h : run.Inv P G encoder config) :
    Plugin.Reachable config run.channel := by
  obtain ⟨_, _, hobserved, -⟩ := h.observed
  exact hobserved.reachable

theorem Inv.load (config : ConfigChannel) : (load config).Inv P G encoder config where
  observed := ⟨[], False, .new, fun h => (nomatch h)⟩
  idle h := (nomatch h)
  began h := (nomatch h)
  accepted := rfl
  follows := ⟨[], .nil, rfl⟩

theorem Inv.push (h : run.Inv P G encoder config) {message : ProtobufMessage}
    {context : ProtobufMessage → Proto.Timestamp × Buffer} {batch : List ProtobufMessage}
    {outcome : Outcome} (hloaded : run.loaded = true) (hfree : run.channel.lock = .free)
    (hbatch : run.channel.shared.batch message = some batch)
    (hrun : run.channel.shared.push (encodeAt P G encoder context) message = some outcome) :
    (run.push message context batch outcome).Inv P G encoder config := by
  obtain ⟨stored, closed, hobserved, hclosed⟩ := h.observed
  obtain ⟨pending, hsound⟩ := hobserved.reachable.inv.1.sound hfree
  obtain ⟨hstores, hall⟩ := push_stores hsound rfl hbatch hrun
  refine
    { observed := ⟨_, _, hobserved.step (.pushLock _ message outcome hfree hrun), ?_⟩
      idle := ?_
      began := h.began
      accepted := ?_
      follows := ?_ }
  · intro hunloaded
    cases hloaded.symm.trans hunloaded
  · intro hunloaded
    cases hloaded.symm.trans hunloaded
  · have haccepted := h.accepted
    rw [System.accepted, System.underway, hfree, List.append_nil] at haccepted
    change run.channel.log ++ outcome.shared.writes.filterMap _ = _
    rw [hstores, haccepted, PluginRun.push, List.map_append, List.map_map, storedBatch,
      List.map_take]
    rfl
  · obtain ⟨missed, hmissed, rfl⟩ := batch_madeUp hbatch
    have hpart : (((missed ++ [message]).take
        (outcome.shared.writes.filterMap CellWrite.toStore).length).map fun message =>
          (⟨message, (context message).1, (context message).2⟩ : Encoded)).map Encoded.message =
        (missed ++ [message]).take
          (outcome.shared.writes.filterMap CellWrite.toStore).length := by
      rw [List.map_map]
      exact List.map_id _
    rw [PluginRun.push, List.map_append, hpart]
    refine h.follows.snoc ⟨missed, hmissed, List.take_prefix _ _, fun hreturns => ?_⟩
    rw [hall hreturns, List.take_length]

theorem Step.inv (hs : Step P G encoder run run') (h : run.Inv P G encoder config) :
    run'.Inv P G encoder config := by
  obtain ⟨stored, closed, hobserved, hclosed⟩ := h.observed
  cases hs with
  | callback _ message context batch outcome hloaded _ hfree hbatch hrun =>
    exact h.push hloaded hfree hbatch hrun
  | channel channel' hs hpush hclose =>
    refine
      { observed := ⟨_, _, hobserved.step hs, fun hunloaded => ?_⟩
        idle := fun hunloaded => hs.not_pushing hpush (h.idle hunloaded)
        began := fun hbegan => h.began ((hs.closeBegan hclose).symm.trans hbegan)
        accepted := (hs.accepted hpush).trans h.accepted
        follows := h.follows }
    · obtain hclosing | hdone := hclosed hunloaded
      · exact (System.closing channel' hclosing).imp_right .inr
      · exact .inr (.inl hdone)
  | unload id hloaded hidle hfresh =>
    refine
      { observed := ⟨_, _, hobserved.step (.closeBegin id hfresh), fun _ => .inl ⟨id, ?_⟩⟩
        idle := fun _ => hidle
        began := fun _ => rfl
        accepted := h.accepted
        follows := h.follows }
    change (Function.update run.channel.closers id (some 0) id).isSome
    rw [Function.update_self]
    rfl

end

end PluginRun

-- ════════════════════════════════════════════════════════════════════════
-- After the channel has been closed
-- ════════════════════════════════════════════════════════════════════════

/-- The cells of the ring are closed. -/
def System.Closed (sys : System) : Prop := ∀ i < sys.mask + 1, (sys.buffer i).closed = true

theorem System.Closed.item {sys : System} (h : sys.Closed) (pos : ℕ) :
    (sys.item pos).closed = true := h _ (Nat.lt_succ_of_le Nat.and_le_right)

/-- All a stream still yields is the error that it is closed. -/
inductive Ended (c c' : Client) : Prop where
  | same (yielded : c'.yielded = c.yielded)
      (finished : c'.receiver.finished = c.receiver.finished)
  | closed (yielded : c'.yielded = c.yielded ++ [.error .closed])
      (unfinished : c.receiver.finished = false) (finished : c'.receiver.finished = true)

theorem Ended.refl (c : Client) : Ended c c := .same rfl rfl

theorem Ended.trans {c c' c'' : Client} (h : Ended c c') (h' : Ended c' c'') : Ended c c'' := by
  cases h with
  | same hyielded hfinished =>
    cases h' with
    | same hyielded' hfinished' =>
      exact .same (hyielded'.trans hyielded) (hfinished'.trans hfinished)
    | closed hyielded' hunfinished hfinished' =>
      exact .closed (hyielded ▸ hyielded') (hfinished ▸ hunfinished) hfinished'
  | closed hyielded hunfinished hfinished =>
    cases h' with
    | same hyielded' hfinished' =>
      exact .closed (hyielded'.trans hyielded) hunfinished (hfinished'.trans hfinished)
    | closed hyielded' hunfinished' hfinished' => cases hfinished.symm.trans hunfinished'

theorem Ended.read {c : Client} {item : Item} (hitem : item.closed = true)
    (hc : c.receiver.finished = false) : Ended c (c.read item) := by
  rw [Client.read, if_pos hitem]
  exact .closed rfl hc rfl

theorem Ended.recheck {c : Client} {item : Item} (hitem : item.closed = true)
    (hc : c.receiver.finished = false) (pushed : ℕ) : Ended c (c.recheck item pushed) := by
  rw [Client.recheck, if_pos hitem]
  exact .closed rfl hc rfl

theorem Ended.poll (c : Client) : Ended c c.poll := by
  rw [Client.poll]
  split
  · exact .refl c
  · exact .same rfl rfl

section

variable {config : ConfigChannel} {sys sys' : System} {id : ℕ} {c : Client}

theorem Step.ended (hs : Step sys sys') (hclosed : sys.Closed) (hinv : SystemInv config sys)
    (hc : sys.clients id = some c) : ∃ c', sys'.clients id = some c' ∧ Ended c c' := by
  have hset : ∀ j d d', sys.clients j = some d → Ended d d' →
      ∃ c', (sys.setClient j d').clients id = some c' ∧ Ended c c' := by
    intro j d d' hd hended
    by_cases he : id = j
    · subst he
      obtain rfl : d = c := Option.some.inj (hd.symm.trans hc)
      exact ⟨d', Function.update_self .., hended⟩
    · exact ⟨c, (Function.update_of_ne he ..).trans hc, .refl c⟩
  have hwake : ∀ ids, ∃ c', (sys.wake ids).clients id = some c' ∧ Ended c c' := fun ids =>
    ⟨_, congrArg (Option.map _) hc, .same rfl rfl⟩
  have hopen : ∀ j d, sys.clients j = some d → d.pc ≠ .idle → d.receiver.finished = false := by
    intro j d hd hpc
    obtain ⟨n, hn⟩ := hinv.clients j d hd
    exact (hn.running hpc).1
  cases hs with
  | subscribe j _ _ receiver _ hfresh =>
    have hne : id ≠ j := fun he => by
      rw [← he, hc] at hfresh
      cases hfresh
    exact ⟨c, (Function.update_of_ne hne ..).trans hc, .refl c⟩
  | pushUnlock outcome =>
    cases outcome with
    | error e => exact ⟨c, hc, .refl c⟩
    | ok sh => exact hwake _
  | closeEnd => exact hwake _
  | poll j d hd => exact hset j d _ hd (.poll d)
  | read j d hd hpc =>
    exact hset j d _ hd (.read (hclosed.item _) (hopen j d hd (by rw [hpc]; decide)))
  | lockState j d hd => exact hset j d _ hd (.same rfl rfl)
  | recheck j d hd hpc =>
    exact hset j d _ hd (.recheck (hclosed.item _) (hopen j d hd (by rw [hpc]; decide)) _)
  | pushLock | pushWrite | closeBegin | closeMark => exact ⟨c, hc, .refl c⟩

/-- A poll that ends when the cells are closed yields that the channel is. -/
theorem Step.poll_ends {c' : Client} (hs : Step sys sys') (hclosed : sys.Closed)
    (hc : sys.clients id = some c) (hc' : sys'.clients id = some c') (hpc : c.pc ≠ .idle)
    (hidle : c'.pc = .idle) :
    c'.yielded = c.yielded ++ [.error .closed] ∧ c'.receiver.finished = true := by
  have hsame : c'.pc ≠ c.pc := fun he => hpc (he ▸ hidle)
  have hset : ∀ j d d', sys.clients j = some d → (sys.setClient j d').clients id = some c' →
      (d = c → d' = c' → c'.yielded = c.yielded ++ [.error .closed] ∧
        c'.receiver.finished = true) →
      c'.yielded = c.yielded ++ [.error .closed] ∧ c'.receiver.finished = true := by
    intro j d d' hd hd' hends
    by_cases he : id = j
    · subst he
      have hself : (sys.setClient id d').clients id = some d' := Function.update_self ..
      exact hends (Option.some.inj (hd.symm.trans hc)) (Option.some.inj (hself.symm.trans hd'))
    · have hother : sys.clients id = some c' := (Function.update_of_ne he ..).symm.trans hd'
      cases hother.symm.trans hc
      exact absurd rfl hsame
  have hwake : ∀ ids, (sys.wake ids).clients id = some c' → c'.pc = c.pc := by
    intro ids hwoken
    cases (congrArg (Option.map _) hc).symm.trans hwoken
    rfl
  cases hs with
  | subscribe j _ _ receiver _ hfresh =>
    have hne : id ≠ j := fun he => by
      rw [← he, hc] at hfresh
      cases hfresh
    have hother : sys.clients id = some c' := (Function.update_of_ne hne ..).symm.trans hc'
    cases hother.symm.trans hc
    exact absurd rfl hsame
  | pushUnlock outcome =>
    cases outcome with
    | error e =>
      cases hc.symm.trans hc'
      exact absurd rfl hsame
    | ok sh => exact absurd (hwake _ hc') hsame
  | closeEnd => exact absurd (hwake _ hc') hsame
  | poll j d hd hpoll =>
    refine hset j d _ hd hc' fun hdc _ => ?_
    subst hdc
    exact absurd hpoll hpc
  | read j d hd =>
    refine hset j d _ hd hc' fun hdc hread => ?_
    subst hdc hread
    rw [Client.read, if_pos (hclosed.item _)]
    exact ⟨rfl, rfl⟩
  | lockState j d hd =>
    refine hset j d _ hd hc' fun _ hlocked => ?_
    subst hlocked
    cases hidle
  | recheck j d hd =>
    refine hset j d _ hd hc' fun hdc hread => ?_
    subst hdc hread
    rw [Client.recheck, if_pos (hclosed.item _)]
    exact ⟨rfl, rfl⟩
  | pushLock | pushWrite | closeBegin | closeMark =>
    cases hc.symm.trans hc'
    exact absurd rfl hsame

end

namespace PluginRun

section

variable {P : Prost} {G : Generated} {encoder : ProtobufEncoder} {config : ConfigChannel}
  {run run' : PluginRun}

/-- What has become of a plugin after `on_unload` has closed its channel. -/
structure Shut (P : Prost) (G : Generated) (encoder : ProtobufEncoder) (run run' : PluginRun) :
    Prop where
  unloaded : run'.Unloaded
  /-- Nothing more is pushed, and every push has ended. -/
  handed : run'.handed = run.handed
  stored : run'.channel.log = run.handed.map (Encoded.stored P G encoder)
  streams : ∀ id c, run.channel.clients id = some c →
    ∃ c', run'.channel.clients id = some c' ∧ Ended c c'
  woken : ∀ id c, run'.channel.clients id = some c → c.waiting = false
  /-- Every poll that ends from now on yields that the channel is closed. -/
  ends : ∀ run'', Step P G encoder run' run'' → ∀ id c c', run'.channel.clients id = some c →
    run''.channel.clients id = some c' → c.pc ≠ .idle → c'.pc = .idle →
      c'.yielded = c.yielded ++ [.error .closed] ∧ c'.receiver.finished = true
  /-- A stream that is still open can be polled to its end. -/
  polled : ∀ id c, run'.channel.clients id = some c → c.pc = .idle →
    c.receiver.finished = false → ∃ run'' c', Relation.ReflTransGen (Step P G encoder) run' run'' ∧
      run''.channel.clients id = some c' ∧ c'.receiver.finished = true ∧
      c'.yielded = c.yielded ++ [.error .closed]

theorem Inv.closed (h : run.Inv P G encoder config) (hu : run.Unloaded) :
    run.channel.Closed ∧ ∀ id c, run.channel.clients id = some c → c.waiting = false := by
  obtain ⟨stored, closed, hobserved, hclosed⟩ := h.observed
  have hdone : closed := (hclosed hu.1).resolve_left fun ⟨id, hid⟩ => by
    rw [hu.2 id] at hid
    cases hid
  refine ⟨hobserved.wakeInv.closed hdone, fun id c hc => ?_⟩
  cases hw : c.waiting with
  | false => rfl
  | true => exact absurd hdone (hobserved.wakeInv.parked id c hc hw).2.opened

theorem Inv.log (h : run.Inv P G encoder config) (hloaded : run.loaded = false) :
    run.channel.log = run.handed.map (Encoded.stored P G encoder) := by
  rw [← h.accepted, System.accepted, System.underway]
  cases hlock : run.channel.lock with
  | pushing todo outcome => exact absurd hlock (h.idle hloaded todo outcome)
  | free | receiving => exact (List.append_nil _).symm

/-- Steps of the channel alone. -/
theorem Step.of_channel {channel' : System} (hs : Plugin.Step run.channel channel')
    (hlock : channel'.lock = run.channel.lock) (hclosers : channel'.closers = run.channel.closers) :
    Step P G encoder run { run with channel := channel' } := by
  refine .channel channel' hs (fun hfree todo outcome h => ?_) fun id hid => hclosers ▸ hid
  rw [hlock, hfree] at h
  cases h

theorem polled_of_closed (hclosed : run.channel.Closed) {id : ℕ} {c : Client}
    (hc : run.channel.clients id = some c) (hpc : c.pc = .idle)
    (hopen : c.receiver.finished = false) : ∃ run'' c',
      Relation.ReflTransGen (Step P G encoder) run run'' ∧ run''.channel.clients id = some c' ∧
      c'.receiver.finished = true ∧ c'.yielded = c.yielded ++ [.error .closed] := by
  have hpoll : c.poll = { c with pc := .reading, waiting := false, pendingAt := none } := by
    rw [Client.poll, hopen, if_neg Bool.false_ne_true]
  have h₁ : Step P G encoder run { run with channel := run.channel.setClient id c.poll } :=
    .of_channel (.poll id c hc hpc) rfl rfl
  let polled : PluginRun := { run with channel := run.channel.setClient id c.poll }
  have hpolled : polled.channel.clients id = some c.poll := Function.update_self ..
  have hreading : c.poll.pc = .reading := by rw [hpoll]
  have h₂ : Step P G encoder polled { polled with
      channel := polled.channel.setClient id (c.poll.read (polled.channel.item _)) } :=
    .of_channel (.read id c.poll hpolled hreading) rfl rfl
  have hitem : (polled.channel.item c.poll.receiver.next).closed = true := hclosed.item _
  refine ⟨_, _, .tail (.single h₁) h₂, Function.update_self .., ?_, ?_⟩
  · rw [Client.read, if_pos hitem]
    rfl
  · rw [Client.read, if_pos hitem, hpoll]
    rfl

theorem Step.unloaded (hs : Step P G encoder run run') (hu : run.Unloaded) :
    run'.Unloaded ∧ run'.handed = run.handed ∧ Plugin.Step run.channel run'.channel := by
  cases hs with
  | callback _ _ _ _ _ hloaded => cases hloaded.symm.trans hu.1
  | channel channel' hs hpush hclose =>
    exact ⟨⟨hu.1, fun id => hclose id (hu.2 id)⟩, rfl, hs⟩
  | unload id hloaded => cases hloaded.symm.trans hu.1

theorem Reachable.inv (h : Reachable P G encoder config run) : run.Inv P G encoder config := by
  induction h with
  | refl => exact .load config
  | tail _ hs ih => exact hs.inv ih

/-- When `on_unload` has closed the channel, nothing is pushed any more and every stream
ends, at its next poll if it has not ended before. -/
theorem unloaded_streams_end (h : Reachable P G encoder config run) (hu : run.Unloaded)
    (hrun : Relation.ReflTransGen (Step P G encoder) run run') :
    Shut P G encoder run run' := by
  have hgoes : run'.Unloaded ∧ run'.handed = run.handed ∧
      ∀ id c, run.channel.clients id = some c →
        ∃ c', run'.channel.clients id = some c' ∧ Ended c c' := by
    induction hrun with
    | refl => exact ⟨hu, rfl, fun id c hc => ⟨c, hc, .refl c⟩⟩
    | tail hrun hs ih =>
      obtain ⟨hu', hhanded, hstreams⟩ := ih
      have hinv := Reachable.inv (h.trans hrun)
      obtain ⟨hu'', hhanded', hstep⟩ := hs.unloaded hu'
      refine ⟨hu'', hhanded'.trans hhanded, fun id c hc => ?_⟩
      obtain ⟨c', hc', hended⟩ := hstreams id c hc
      obtain ⟨c'', hc'', hended'⟩ := hstep.ended (hinv.closed hu').1 hinv.reachable.inv.1 hc'
      exact ⟨c'', hc'', hended.trans hended'⟩
  obtain ⟨hu', hhanded, hstreams⟩ := hgoes
  have hinv := Reachable.inv (h.trans hrun)
  exact
    { unloaded := hu'
      handed := hhanded
      stored := hhanded ▸ hinv.log hu'.1
      streams := hstreams
      woken := (hinv.closed hu').2
      ends := fun run'' hs id c c' hc hc' =>
        (hs.unloaded hu').2.2.poll_ends (hinv.closed hu').1 hc hc'
      polled := fun id c hc hpc hopen => polled_of_closed (hinv.closed hu').1 hc hpc hopen }

/-- A subscriber waits for a message when the plugin is unloaded; it is woken and told. -/
theorem unloaded_streams_end_waiting : ∃ run c,
    Reachable wire (generated wire) .raw ⟨1, 1, 10⟩ run ∧ run.Unloaded ∧
      run.channel.clients 0 = some c ∧ c.pendingAt = some 0 ∧ c.waiting = false ∧
      ∃ run'' c', Relation.ReflTransGen (Step wire (generated wire) .raw) run run'' ∧
        run''.channel.clients 0 = some c' ∧ c'.yielded = [.error .closed] := by
  have hgo : ∀ {run : PluginRun} {channel' : System},
      Reachable wire (generated wire) .raw ⟨1, 1, 10⟩ run →
      Plugin.Step run.channel channel' → run.channel.NoPush channel' →
      run.channel.NoClose channel' →
      Reachable wire (generated wire) .raw ⟨1, 1, 10⟩ { run with channel := channel' } :=
    fun h hs hp hc => h.tail (.channel _ hs hp hc)
  have h₀ : Reachable wire (generated wire) .raw ⟨1, 1, 10⟩ (load ⟨1, 1, 10⟩) := .refl
  have h₁ := hgo h₀ (.subscribe 0 none ⟨false, false, false⟩
    ⟨(Sender.new ⟨1, 1, 10⟩).state.tail, false, true, true, true⟩ rfl rfl rfl)
    (fun _ _ _ h => (nomatch h)) fun _ => id
  have h₂ := hgo h₁ (.poll 0 _ rfl rfl) (fun _ _ _ h => (nomatch h)) fun _ => id
  have h₃ := hgo h₂ (.read 0 _ rfl rfl) (fun _ _ _ h => (nomatch h)) fun _ => id
  have h₄ := hgo h₃ (.lockState 0 _ rfl (by decide +kernel) rfl) (fun _ _ _ h => (nomatch h))
    fun _ => id
  have h₅ := hgo h₄ (.recheck 0 _ rfl rfl rfl) (fun _ _ _ h => (nomatch h)) fun _ => id
  have h₆ := h₅.tail (.unload 0 rfl (fun _ _ h => (nomatch h)) rfl)
  have hother : ∀ (closers : ℕ → Option ℕ) (marked : Option ℕ) (id : ℕ),
      (closers 0).isSome → closers id = none → Function.update closers 0 marked id = none := by
    intro closers marked id hsome hid
    have hne : id ≠ 0 := by
      rintro rfl
      rw [hid] at hsome
      cases hsome
    rw [Function.update_of_ne hne, hid]
  have h₇ := hgo h₆ (.closeMark 0 0 rfl (by decide)) (fun _ _ _ h => (nomatch h))
    fun id hid => hother _ _ id rfl hid
  have h₈ := hgo h₇ (.closeEnd 0 (by decide +kernel) rfl) (fun _ _ _ h => (nomatch h))
    fun id hid => hother _ _ id rfl hid
  obtain ⟨run, c, h, hu, hc, hpending, hidle, hopen, hnone⟩ : ∃ run c,
      Reachable wire (generated wire) .raw ⟨1, 1, 10⟩ run ∧ run.Unloaded ∧
      run.channel.clients 0 = some c ∧ c.pendingAt = some 0 ∧ c.pc = .idle ∧
      c.receiver.finished = false ∧ c.yielded = [] := by
    refine ⟨_, _, h₈, ⟨rfl, fun id => ?_⟩, rfl, by decide +kernel, by decide +kernel,
      by decide +kernel, by decide +kernel⟩
    change Function.update (Function.update (Function.update (fun _ => none) 0 (some 0)) 0
      (some 1)) 0 none id = none
    rw [Function.update_idem, Function.update_idem]
    exact congrFun (Function.update_eq_self 0 fun _ => none) id
  have hshut := unloaded_streams_end h hu .refl
  obtain ⟨run'', c', hrun, hc', -, hyielded⟩ := hshut.polled 0 c hc hidle hopen
  rw [hnone] at hyielded
  exact ⟨run, c, h, hu, hc, hpending, hshut.woken 0 c hc, run'', c', hrun, hc', hyielded⟩

end

end PluginRun

end Dragonmouth.Plugin
