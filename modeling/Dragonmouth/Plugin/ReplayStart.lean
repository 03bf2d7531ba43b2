import Dragonmouth.Plugin.ChannelPanic
import Dragonmouth.Plugin.Stream

/-!
# Where a replay of the plugin starts

A receiver that asks for a slot starts at the position in the slot's entry. An
entry is made at the first message that finds none, and eviction removes the
entries of the evicted message's slot and of all slots below. So an entry is the
position of the first message of its slot as long as no message is pushed of a
slot that has lost its entry.

## Main definitions

- `Runs`: runs of pushes, every one made in a state that meets a condition
- `Shared.Admits`: a message that finds room and makes no second entry
- `Shared.ReplaysWhole`: what a replay of a slot delivers
-/

namespace Dragonmouth.Plugin

open RingLog

/-- The states runs of pushes lead to, if every push is made in a state that
meets the condition. A push that panics leaves the state of the panic behind. -/
inductive Runs (condition : Shared → Call → Prop) (config : ConfigChannel) : Shared → Prop where
  | new : Runs condition config (Sender.new config)
  | push {sh : Shared} (runs : Runs condition config sh) (call : Call) (meets : condition sh call)
      (outcome : Outcome) (ends : sh.push call.encode call.message = some outcome) :
      Runs condition config outcome.shared

namespace Shared

variable {sh sh' : Shared} {config : ConfigChannel}

/-- The messages stored so far. -/
def storedMessages (sh : Shared) : List Stored :=
  sh.writes.filterMap fun w => w.toStore.map Prod.fst

/-- The message is no longer than the byte limit, there is room for its slot,
and the slot is indexed or this is its first message. -/
def Admits (sh : Shared) (message : ProtobufMessage) (data : Bytes) : Prop :=
  data.length ≤ sh.state.bytesMax ∧ sh.RoomFor message.getSlot ∧
    (message.getSlot ∈ sh.state.slots ∨ ∀ x ∈ sh.storedMessages, x.1 ≠ message.getSlot)

/-- Every message of a batch is admitted when its turn comes. -/
def AdmitsBatch (encode : ProtobufMessage → Bytes) : Shared → List ProtobufMessage → Prop
  | _, [] => True
  | sh, message :: messages => sh.Admits message (encode message) ∧
      ∀ sh', sh.pushMsg message (encode message) = .ok sh' → AdmitsBatch encode sh' messages

/-- Every message of the batch of a call is admitted. -/
def AdmitsCall (sh : Shared) (call : Call) : Prop :=
  ∀ messages, sh.batch call.message = some messages → AdmitsBatch call.encode sh messages

/-- A replay of a slot starts at the first message of the slot ever pushed, which
is retained; once a message of the slot has been evicted, it is refused. -/
structure ReplaysWhole (sh : Shared) (slot : Slot) (filter : RichatFilter) : Prop where
  /-- The `i`-th message is stored at the position `ringSize + i`. -/
  positions : sh.writes.filterMap CellWrite.toStore = sh.storedMessages.zipIdx sh.ringSize
  starts : ∀ receiver, sh.subscribe (some slot) filter = .ok receiver →
    sh.state.head ≤ receiver.next ∧
      (sh.storedMessages[receiver.next - sh.ringSize]?).map Prod.fst = some slot ∧
      ∀ i x, sh.storedMessages[i]? = some x → x.1 = slot → receiver.next ≤ sh.ringSize + i
  refused : ∀ i x, sh.storedMessages[i]? = some x → x.1 = slot →
    sh.ringSize + i < sh.state.head →
      sh.subscribe (some slot) filter = .error .notInitialized ∨
        ∃ first, sh.subscribe (some slot) filter = .error (.slotNotAvailable first)

theorem Progress.storedMessages {new : List Stored} (h : Progress sh sh' new) :
    sh'.storedMessages = sh.storedMessages ++ new := by
  obtain ⟨ws, hws, -, hst⟩ := h.writes
  have hnew : (ws.filterMap fun w => w.toStore.map Prod.fst) = new := by
    rw [← List.map_filterMap, hst, List.zipIdx_map_fst]
  rw [Shared.storedMessages, hws, List.filterMap_append, hnew]
  rfl

/-- The channel agrees with its log and every entry is the position of the first
message of its slot. -/
structure FirstHeads (sh : Shared) : Prop where
  inv : sh.Inv sh.storedMessages
  positions : sh.writes.filterMap CellWrite.toStore = sh.storedMessages.zipIdx sh.ringSize
  first : ∀ s p, headOf sh.state.slots s = some p → ∀ i x, sh.storedMessages[i]? = some x →
    x.1 = s → p ≤ sh.ringSize + i

theorem FirstHeads.new (config : ConfigChannel) : (Sender.new config).FirstHeads :=
  ⟨.new config, rfl, fun _ _ _ _ _ hx => by cases hx⟩

/-- After the slots have been updated for an admitted message, every entry is a
first position in the log that ends with the message. -/
theorem FirstHeads.updateSlot (h : sh.FirstHeads) {message : ProtobufMessage} {data : Bytes}
    (hadm : sh.Admits message data) {s : Slot} {p i : ℕ} {x : Stored}
    (hp : headOf (sh.updateSlot sh.state.tail message).state.slots s = some p)
    (hx : (sh.storedMessages ++ [message.stored data])[i]? = some x) (hs : x.1 = s) :
    p ≤ sh.ringSize + i := by
  have htail := h.inv.core.window.tail_eq
  have hlt : i < sh.storedMessages.length + 1 := by
    have := (List.getElem?_eq_some_iff.mp hx).1
    simpa using this
  have hold : ∀ q, headOf sh.state.slots s = some q → q ≤ sh.ringSize + i := by
    intro q hq
    rcases Nat.lt_succ_iff_lt_or_eq.mp hlt with hlt' | rfl
    · rw [List.getElem?_append_left hlt'] at hx
      exact h.first s q hq i x hx hs
    · have := (h.inv.index s q hq).2.1
      omega
  rw [headOf_updateSlot] at hp
  by_cases hslot : s = message.getSlot
  · rw [if_pos hslot, Option.some.injEq] at hp
    subst hp
    cases hq : headOf sh.state.slots s with
    | some q => exact hold q hq
    | none =>
      -- the slot is not indexed, so this is its first message
      have hnone := headOf_eq_none.mp hq
      have hfresh := hadm.2.2.resolve_left (hslot ▸ hnone)
      rcases Nat.lt_succ_iff_lt_or_eq.mp hlt with hlt' | rfl
      · rw [List.getElem?_append_left hlt'] at hx
        exact absurd (hs.trans hslot) (hfresh x (List.mem_of_getElem? hx))
      · exact htail.le
  · rw [if_neg hslot] at hp
    exact hold p hp

/-- An admitted message is pushed and keeps the entries right. -/
theorem FirstHeads.pushMsg (h : sh.FirstHeads) {message : ProtobufMessage} {data : Bytes}
    (hadm : sh.Admits message data) :
    ∃ sh', sh.pushMsg message data = .ok sh' ∧ sh'.FirstHeads := by
  obtain ⟨sh', hok⟩ := (pushMsg_returns_iff h.inv message hadm.1).mpr hadm.2.1
  refine ⟨sh', hok, ?_⟩
  rcases pushMsg_spec h.inv.sound message data with
    ⟨sh₁, hrun, -, hp, hsub, hinv⟩ | ⟨e, -, hrun, -⟩
  · rw [hok, Except.ok.injEq] at hrun
    subst hrun
    have hsize : sh'.ringSize = sh.ringSize := congrArg (· + 1) hp.mask
    have hlog := hp.storedMessages
    refine ⟨hlog ▸ hinv h.inv, ?_, fun s p hs i x hx hxs => ?_⟩
    · obtain ⟨ws, hws, -, hst⟩ := hp.writes
      rw [hws, List.filterMap_append, h.positions, hst, hlog, hsize, List.zipIdx_append,
        h.inv.core.window.tail_eq]
    · rw [hlog] at hx
      rw [hsize]
      exact h.updateSlot hadm (headOf_sub hsub hs) hx hxs
  · rw [hok] at hrun
    cases hrun

theorem FirstHeads.pushBatch (h : sh.FirstHeads) {encode : ProtobufMessage → Bytes}
    {messages : List ProtobufMessage} (hadm : sh.AdmitsBatch encode messages) :
    ∃ sh', Shared.pushBatch encode sh messages = .ok sh' ∧ sh'.FirstHeads := by
  induction messages generalizing sh with
  | nil => exact ⟨sh, rfl, h⟩
  | cons message messages ih =>
    obtain ⟨sh₁, hok, h₁⟩ := h.pushMsg hadm.1
    rw [Shared.pushBatch, hok]
    exact ih h₁ (hadm.2 sh₁ hok)

/-- A call whose messages are admitted keeps the entries right. -/
theorem FirstHeads.push (h : sh.FirstHeads) {call : Call} (hadm : sh.AdmitsCall call)
    {outcome : Outcome} (hrun : sh.push call.encode call.message = some outcome) :
    outcome.shared.FirstHeads := by
  rw [push_eq, Option.map_eq_some_iff] at hrun
  obtain ⟨messages, hb, rfl⟩ := hrun
  obtain ⟨sh', hok, h'⟩ := h.pushBatch (hadm messages hb)
  rw [hok]
  exact ⟨h'.inv.drained, h'.positions, h'.first⟩

theorem FirstHeads.replaysWhole (h : sh.FirstHeads) (slot : Slot) (filter : RichatFilter) :
    sh.ReplaysWhole slot filter := by
  have hsub : ∀ p, headOf sh.state.slots slot = some p → sh.state.head ≤ p ∧
      (sh.storedMessages[p - sh.ringSize]?).map Prod.fst = some slot := fun p hp =>
    ⟨(h.inv.index slot p hp).1, (h.inv.index slot p hp).2.2⟩
  refine ⟨h.positions, fun receiver hok => ?_, fun i x hx hs hlt => ?_⟩
  · rw [subscribe] at hok
    cases hl : sh.state.slots.lookup slot with
    | none =>
      simp only [hl] at hok
      cases hf : sh.state.slots.firstKey <;> rw [hf] at hok <;> cases hok
    | some info =>
      simp only [hl] at hok
      cases hok
      have hp : headOf sh.state.slots slot = some info.head := by rw [headOf, hl]; rfl
      exact ⟨(hsub _ hp).1, (hsub _ hp).2, h.first slot info.head hp⟩
  · rw [subscribe]
    cases hl : sh.state.slots.lookup slot with
    | none =>
      cases hf : sh.state.slots.firstKey with
      | none => exact .inl rfl
      | some key => exact .inr ⟨key, rfl⟩
    | some info =>
      exfalso
      have hp : headOf sh.state.slots slot = some info.head := by rw [headOf, hl]; rfl
      have hle := (hsub _ hp).1
      have hle' := h.first slot info.head hp i x hx hs
      omega

end Shared

open Shared

variable {config : ConfigChannel} {sh sh' : Shared}

theorem Runs.firstHeads (h : Runs AdmitsCall config sh) : sh.FirstHeads := by
  induction h with
  | new => exact .new config
  | push _ call hadm outcome hrun ih => exact ih.push hadm hrun

/-- Without a condition, calls that have returned extend a run. -/
theorem Runs.pushCalls {calls : List Call} (h : Runs (fun _ _ => True) config sh)
    (hok : sh.pushCalls calls = some (.ok sh')) : Runs (fun _ _ => True) config sh' := by
  induction calls generalizing sh with
  | nil =>
    cases hok
    exact h
  | cons call calls ih =>
    rw [Shared.pushCalls] at hok
    split at hok
    · rename_i sh₁ hpush
      exact ih (h.push call trivial (.ok sh₁) hpush) hok
    · rename_i hne
      exact absurd hok (hne sh')

/-- The messages of a batch are admitted; room is found where the push returns. -/
def Shared.admitsBatch (encode : ProtobufMessage → Bytes) :
    Shared → List ProtobufMessage → Bool
  | _, [] => true
  | sh, message :: messages =>
    decide ((encode message).length ≤ sh.state.bytesMax) &&
    (decide (message.getSlot ∈ sh.state.slots) ||
      sh.storedMessages.all fun x => x.1 != message.getSlot) &&
    match sh.pushMsg message (encode message) with
    | .ok sh => admitsBatch encode sh messages
    | .error _ => false

/-- The calls return, and their messages are admitted. -/
def Shared.admitsCalls : Shared → List Call → Bool
  | _, [] => true
  | sh, call :: calls =>
    (sh.batch call.message).any (sh.admitsBatch call.encode) &&
    match sh.push call.encode call.message with
    | some (.ok sh) => admitsCalls sh calls
    | _ => false

theorem Shared.FirstHeads.admitsBatch (h : sh.FirstHeads) {encode : ProtobufMessage → Bytes}
    {messages : List ProtobufMessage} (hb : sh.admitsBatch encode messages) :
    sh.AdmitsBatch encode messages := by
  induction messages generalizing sh with
  | nil => trivial
  | cons message messages ih =>
    rw [Shared.admitsBatch, Bool.and_eq_true, Bool.and_eq_true, decide_eq_true_eq,
      Bool.or_eq_true, decide_eq_true_eq, List.all_eq_true] at hb
    obtain ⟨⟨hfit, hfirst⟩, hrest⟩ := hb
    cases hrun : sh.pushMsg message (encode message) with
    | error e =>
      rw [hrun] at hrest
      cases hrest
    | ok sh₁ =>
      rw [hrun] at hrest
      have hadm : sh.Admits message (encode message) :=
        ⟨hfit, (pushMsg_returns_iff h.inv message hfit).mp ⟨sh₁, hrun⟩,
          hfirst.imp_right fun hall x hx => bne_iff_ne.mp (hall x hx)⟩
      obtain ⟨sh₂, hok, h₂⟩ := h.pushMsg hadm
      rw [hrun] at hok
      cases hok
      refine ⟨hadm, fun sh₂ hok => ?_⟩
      rw [hrun] at hok
      cases hok
      exact ih h₂ hrest

/-- Calls that pass the check extend a run. -/
theorem Runs.admitsCalls {calls : List Call} (h : Runs AdmitsCall config sh)
    (hc : sh.admitsCalls calls) :
    ∃ sh', sh.pushCalls calls = some (.ok sh') ∧ Runs AdmitsCall config sh' := by
  induction calls generalizing sh with
  | nil => exact ⟨sh, rfl, h⟩
  | cons call calls ih =>
    rw [Shared.admitsCalls, Bool.and_eq_true] at hc
    obtain ⟨hbatch, hrest⟩ := hc
    have hadm : sh.AdmitsCall call := by
      intro messages hmessages
      rw [hmessages] at hbatch
      exact h.firstHeads.admitsBatch hbatch
    rw [Shared.pushCalls]
    cases hpush : sh.push call.encode call.message with
    | none =>
      rw [hpush] at hrest
      cases hrest
    | some outcome =>
      rw [hpush] at hrest
      cases outcome with
      | error e => cases hrest
      | ok sh₁ => exact ih (h.push call hadm _ hpush) hrest

/-- In every run whose messages find room and make no second entry for their
slot, every state reached replays whole slots or refuses to. -/
theorem runs_replay_whole (h : Runs AdmitsCall config sh) (slot : Slot) (filter : RichatFilter) :
    sh.ReplaysWhole slot filter :=
  h.firstHeads.replaysWhole slot filter

/-- Three slots in an index for two: the first slot, whose two messages are evicted for
the last one, is refused, and the others start at their first messages. -/
theorem runs_replay_whole_evicted : ∃ sh, Runs AdmitsCall ⟨4, 2, 10⟩ sh ∧
    sh.storedMessages.map Prod.fst = [5, 5, 6, 6, 7] ∧
    [5, 6, 7].map (headOf sh.state.slots) = [none, some 6, some 8] ∧ sh.state.head = 6 ∧
    ∀ slot, sh.ReplaysWhole slot ⟨false, false, false⟩ := by
  have hadm : (Sender.new ⟨4, 2, 10⟩).admitsCalls (slotCalls [5, 5, 6, 6, 7]) = true := by
    decide +kernel
  have hread : readOff (fun sh => (sh.storedMessages.map Prod.fst,
      [5, 6, 7].map (headOf sh.state.slots), sh.state.head))
      ((Sender.new ⟨4, 2, 10⟩).pushCalls (slotCalls [5, 5, 6, 6, 7])) =
      some ([5, 5, 6, 6, 7], [none, some 6, some 8], 6) := by
    decide +kernel
  obtain ⟨sh, hok, hruns⟩ := Runs.new.admitsCalls hadm
  rw [hok] at hread
  have hfacts := Option.some.inj hread
  rw [Prod.mk.injEq, Prod.mk.injEq] at hfacts
  obtain ⟨hlog, hheads, hhead⟩ := hfacts
  exact ⟨sh, hruns, hlog, hheads, hhead, fun slot => runs_replay_whole hruns slot _⟩

/-- Three messages of a slot in a ring for three bytes: the first is evicted by
the second, and the third makes a new entry. -/
theorem reentered_slot_replays : ¬∀ (config : ConfigChannel) (sh : Shared),
    Runs (fun _ _ => True) config sh → ∀ slot filter, sh.ReplaysWhole slot filter := by
  intro hall
  have hrun : readOff (fun sh => (sh.ringSize, headOf sh.state.slots 5,
      sh.storedMessages.map Prod.fst)) ((Sender.new ⟨4, 2, 3⟩).pushCalls
      ([[1, 2], [1, 2], [1]].map fun data => ⟨fun _ => data, .slot 5 none .processed⟩)) =
      some (4, some 6, [5, 5, 5]) := by
    decide +kernel
  obtain ⟨sh, hok, hf⟩ := exists_of_readOff hrun
  rw [Prod.mk.injEq, Prod.mk.injEq] at hf
  obtain ⟨hsize, hhead, hlog⟩ := hf
  have hw := hall ⟨4, 2, 3⟩ sh (Runs.new.pushCalls hok) 5 ⟨false, false, false⟩
  obtain ⟨info, hinfo, hnext⟩ := Option.map_eq_some_iff.mp hhead
  have hsub : sh.subscribe (some 5) ⟨false, false, false⟩ =
      .ok ⟨info.head, false, true, true, true⟩ := by
    rw [subscribe, hinfo]
    rfl
  obtain ⟨x, hx, hxs⟩ : ∃ x, sh.storedMessages[0]? = some x ∧ x.1 = 5 := by
    have h₀ := congrArg (fun l => l[0]?) hlog
    simpa using h₀
  have hle := (hw.starts _ hsub).2.2 0 x hx hxs
  change info.head ≤ sh.ringSize + 0 at hle
  omega

end Dragonmouth.Plugin
