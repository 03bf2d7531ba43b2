import Mathlib.Logic.Relation
import Dragonmouth.Plugin.ChannelPanic
import Dragonmouth.Plugin.StreamDelivery

/-!
# Missed slot statuses of the plugin

A push of a slot status first makes up for the ancestors that have not seen the
status. The walk to them starts at the parent link recorded before the message
and stops at the first ancestor that has seen it. So no gap is left exactly as
far as the walk reaches: an ancestor behind a link that only the message itself
carries, or behind one that has seen the status, is passed over.

## Main definitions

- `Handed`: runs of pushes with the messages handed to `push_msg`
- `Ancestor`: a tracked slot on the parent links from a message's slot
- `Shared.NoGap`: every tracked ancestor has seen a status
- `Shared.Covers`: the walk reaches every ancestor that has not
-/

namespace Dragonmouth.Plugin

open Relation

/-- The parent link a message carries. -/
def ProtobufMessage.carried : ProtobufMessage → Option Slot
  | .slot _ parent _ => parent
  | _ => none

/-- The flag of a slot status; a status without a flag counts as seen. -/
def SlotInfo.flagged (entry : SlotInfo) : SlotStatus → Bool
  | .confirmed => entry.confirmed
  | .rooted => entry.finalized
  | _ => true

/-- A message's parent link replaces the recorded one, if it carries one. -/
theorem SlotInfo.parentSlot_update (entry : SlotInfo) (message : ProtobufMessage) :
    (entry.update message).parentSlot = (message.carried <|> entry.parentSlot) := by
  cases message with
  | slot slot parent status =>
    cases parent <;> simp only [SlotInfo.update] <;> split_ifs <;> rfl
  | _ => rfl

theorem SlotInfo.flagged_update_self (entry : SlotInfo) (slot : Slot) (parent : Option Slot)
    (status : SlotStatus) : (entry.update (.slot slot parent status)).flagged status := by
  cases parent <;> cases status <;> rfl

/-- Only a message with the status sets its flag. -/
theorem SlotInfo.of_flagged_update {entry : SlotInfo} {message : ProtobufMessage}
    {status : SlotStatus} (hs : status = .confirmed ∨ status = .rooted)
    (h : (entry.update message).flagged status) :
    entry.flagged status ∨ ∃ slot parent, message = .slot slot parent status := by
  cases message with
  | slot slot parent status' =>
    by_cases hst : status' = status
    · exact .inr ⟨slot, parent, by rw [hst]⟩
    · refine .inl ?_
      rcases hs with rfl | rfl <;> cases parent <;> simp only [SlotInfo.update] at h <;>
        split_ifs at h <;> exact h
  | _ => exact .inl h

/-- The parent link tracked for a slot. -/
def recorded (slots : OrderedMap Slot SlotInfo) (slot : Slot) : Option Slot :=
  (slots.lookup slot).bind SlotInfo.parentSlot

/-- A tracked parent link between tracked slots. -/
def Link (slots : OrderedMap Slot SlotInfo) (child parent : Slot) : Prop :=
  recorded slots child = some parent ∧ parent ∈ slots

/-- A tracked slot reached from `slot` along tracked parent links, the first of
which may be the one carried by the message. -/
def Ancestor (slots : OrderedMap Slot SlotInfo) (carried : Option Slot)
    (slot ancestor : Slot) : Prop :=
  ∃ p, (carried <|> recorded slots slot) = some p ∧ p ∈ slots ∧
    ReflTransGen (Link slots) p ancestor

/-- The slot is tracked and has the flag of the status. -/
def Flagged (slots : OrderedMap Slot SlotInfo) (status : SlotStatus) (slot : Slot) : Prop :=
  ∃ entry, slots.lookup slot = some entry ∧ entry.flagged status

/-- A link the walk takes: to a tracked slot that has missed the status. -/
def MissedLink (slots : OrderedMap Slot SlotInfo) (status : SlotStatus)
    (child parent : Slot) : Prop :=
  recorded slots child = some parent ∧
    ∃ entry, slots.lookup parent = some entry ∧ entry.missed status

namespace Shared

variable {sh sh' base : Shared} {log : List Stored} {pending : ℕ} {status : SlotStatus}

/-- Every tracked ancestor has the flag, and its status has been handed over. -/
def NoGap (sh : Shared) (handed : List ProtobufMessage) (slot : Slot) (carried : Option Slot)
    (status : SlotStatus) : Prop :=
  ∀ ancestor, Ancestor sh.state.slots carried slot ancestor →
    Flagged sh.state.slots status ancestor ∧
      ∃ parent, ProtobufMessage.slot ancestor parent status ∈ handed

/-- Before the push, every tracked ancestor has the flag or is walked to: over
links recorded earlier, and over slots without the flag only. -/
def Covers (sh : Shared) (slot : Slot) (carried : Option Slot) (status : SlotStatus) : Prop :=
  ∀ ancestor, Ancestor sh.state.slots carried slot ancestor →
    Flagged sh.state.slots status ancestor ∨
      TransGen (MissedLink sh.state.slots status) slot ancestor

/-- The messages of a batch that are handed to `push_msg`: all up to the one at
which it panics. -/
def handedOf (encode : ProtobufMessage → Bytes) :
    Shared → List ProtobufMessage → List ProtobufMessage
  | _, [] => []
  | sh, message :: messages =>
    match sh.pushMsg message (encode message) with
    | .ok sh' => message :: handedOf encode sh' messages
    | .error _ => [message]

/-- The messages a call hands to `push_msg`. -/
def handed (sh : Shared) (call : Call) : List ProtobufMessage :=
  match sh.batch call.message with
  | some messages => handedOf call.encode sh messages
  | none => []

end Shared

/-- Runs of pushes whose slot messages name parents below, with the messages
handed to `push_msg` so far. A push that panics leaves the state of the panic
behind. -/
inductive Handed (config : ConfigChannel) : Shared → List ProtobufMessage → Prop where
  | new : Handed config (Sender.new config) []
  | push {sh : Shared} {handed : List ProtobufMessage} (run : Handed config sh handed)
      (call : Call) (below : call.message.ParentBelow) (outcome : Outcome)
      (ends : sh.push call.encode call.message = some outcome) :
      Handed config outcome.shared (handed ++ sh.handed call)

namespace Shared

variable {sh sh' base : Shared} {log : List Stored} {pending : ℕ} {status : SlotStatus}
  {messages handed : List ProtobufMessage} {encode : ProtobufMessage → Bytes}

/-- A message that makes up for a missed status. -/
def MakesUp (slots : OrderedMap Slot SlotInfo) (status : SlotStatus)
    (message : ProtobufMessage) : Prop :=
  ∃ k entry, slots.lookup k = some entry ∧ message = .slot k entry.parentSlot status

theorem backfill_makesUp {slots : OrderedMap Slot SlotInfo} {n : ℕ} {slot : Slot}
    (hrun : backfill slots status n slot = some messages) :
    ∀ m ∈ messages, MakesUp slots status m := by
  induction n generalizing slot messages with
  | zero => cases hrun
  | succ n ih =>
    rw [backfill] at hrun
    cases hp : (slots.lookup slot).bind SlotInfo.parentSlot with
    | none =>
      simp only [hp] at hrun
      cases hrun
      simp
    | some parent =>
      simp only [hp] at hrun
      cases he : slots.lookup parent with
      | none =>
        simp only [he] at hrun
        cases hrun
        simp
      | some entry =>
        simp only [he] at hrun
        split at hrun
        · obtain ⟨rest, hrest, rfl⟩ := Option.map_eq_some_iff.mp hrun
          intro m hm
          rcases List.mem_cons.mp hm with rfl | hm
          · exact ⟨parent, entry, he, rfl⟩
          · exact ih hrest m hm
        · cases hrun
          simp

/-- The walk makes up for every slot behind links to slots without the flag. -/
theorem backfill_reaches {slots : OrderedMap Slot SlotInfo} {n : ℕ} {slot ancestor : Slot}
    (hrun : backfill slots status n slot = some messages)
    (hwalk : TransGen (MissedLink slots status) slot ancestor) :
    ∃ parent, ProtobufMessage.slot ancestor parent status ∈ messages := by
  induction n generalizing slot messages with
  | zero => cases hrun
  | succ n ih =>
    -- the links are a function, so the first link of the walk is the loop's
    have hfirst : ∀ {next}, MissedLink slots status slot next →
        ∃ (entry : SlotInfo) (rest : _), messages = .slot next entry.parentSlot status :: rest ∧
          backfill slots status n next = some rest := by
      rintro next ⟨hp, entry, he, hmissed⟩
      have hp' : (slots.lookup slot).bind SlotInfo.parentSlot = some next := hp
      rw [backfill] at hrun
      simp only [hp', he, hmissed, if_true] at hrun
      obtain ⟨rest, hrest, hcons⟩ := Option.map_eq_some_iff.mp hrun
      exact ⟨entry, rest, hcons.symm, hrest⟩
    rcases TransGen.head'_iff.mp hwalk with ⟨next, hlink, hrest⟩
    obtain ⟨entry, rest, rfl, hnext⟩ := hfirst hlink
    rcases reflTransGen_iff_eq_or_transGen.mp hrest with rfl | htrans
    · exact ⟨_, List.mem_cons_self⟩
    · obtain ⟨parent, hmem⟩ := ih hnext htrans
      exact ⟨parent, List.mem_cons_of_mem _ hmem⟩

-- ════════════════════════════════════════════════════════════════════════
-- What a message changes
-- ════════════════════════════════════════════════════════════════════════

/-- Eviction by bytes only removes entries, whether an assertion fails or not. -/
theorem dropBytes_slots (h : sh.Core log pending) :
    (dropBytes (sh.state.tail - sh.state.head) sh).shared.state.slots.Sub sh.state.slots := by
  rcases dropBytes_spec h le_rfl with ⟨sh₁, hrun, hev, -⟩ | ⟨sh₁, hrun, hev, -⟩
  · rw [hrun]
    exact hev.evicts.slots
  · rw [hrun]
    exact hev.evicts.slots

/-- Making room only removes entries besides updating the one of the slot. -/
theorem makeRoom_slots (h : sh.Sound log pending) (message : ProtobufMessage) (data : Bytes) :
    (sh.makeRoom message data).shared.state.slots.Sub
      (sh.updateSlot sh.state.tail message).state.slots := by
  have hu := h.updateSlot message
  rw [makeRoom]
  rcases dropSlots_spec hu le_rfl with ⟨sh₁, hrun, hev, -⟩ | ⟨sh₁, hrun, hev⟩
  · simp only [hrun]
    have hcore := ((hev.sound hu).bytesAdded data.length).core
    exact (dropBytes_slots hcore).trans hev.evicts.slots
  · simp only [hrun]
    exact hev.evicts.slots

/-- Whatever its outcome, a push of a message only removes entries besides
updating the one of its slot. -/
theorem pushMsg_slots (h : sh.Sound log pending) (message : ProtobufMessage) (data : Bytes) :
    (sh.pushMsg message data).shared.state.slots.Sub
      (sh.updateSlot sh.state.tail message).state.slots := by
  rw [pushMsg_eq]
  rcases makeRoom_spec h message data with ⟨sh₂, hok, hs, hp, hsub, -⟩ | ⟨e, -, herr, -⟩
  · obtain ⟨sh', hok', -, -, hsub', -⟩ := storeItem_spec (x := message.stored data) hs
    have htail : sh₂.state.tail = sh.state.tail := hp.tail
    rw [htail] at hok'
    rw [hok]
    change (sh₂.tailMoved.storeItem sh.state.tail _ _).shared.state.slots.Sub _
    rw [hok']
    exact hsub'.trans hsub
  · have hsub := makeRoom_slots h message data
    rw [herr] at hsub ⊢
    exact hsub

theorem lookup_updateSlot (sh : Shared) (pos : ℕ) (message : ProtobufMessage) (k : Slot) :
    (sh.updateSlot pos message).state.slots.lookup k =
      if k = message.getSlot then
        some (((sh.state.slots.lookup k).getD ⟨pos, none, false, false⟩).update message)
      else sh.state.slots.lookup k := by
  rw [updateSlot]
  simp only [Finmap.lookup_insert_eq]
  split
  · rename_i hk
    rw [hk]
  · rfl

/-- Every flag has been set by a message handed over. -/
def Announced (sh : Shared) (handed : List ProtobufMessage) : Prop :=
  ∀ status, status = .confirmed ∨ status = .rooted → ∀ k, Flagged sh.state.slots status k →
    ∃ parent, ProtobufMessage.slot k parent status ∈ handed

theorem Announced.pushMsg (h : sh.Announced handed) (hs : sh.Sound log pending)
    (message : ProtobufMessage) (data : Bytes) :
    (sh.pushMsg message data).shared.Announced (handed ++ [message]) := by
  rintro status hst k ⟨entry, he, hf⟩
  have hl := pushMsg_slots hs message data k entry he
  rw [lookup_updateSlot] at hl
  have hold : ∀ info, sh.state.slots.lookup k = some info → info.flagged status →
      ∃ parent, ProtobufMessage.slot k parent status ∈ handed ++ [message] := by
    intro info hi hfi
    obtain ⟨parent, hmem⟩ := h status hst k ⟨info, hi, hfi⟩
    exact ⟨parent, List.mem_append_left _ hmem⟩
  split at hl
  · rename_i hk
    rw [← Option.some.inj hl] at hf
    rcases SlotInfo.of_flagged_update hst hf with hf | ⟨slot, parent, rfl⟩
    · cases hi : sh.state.slots.lookup k with
      | some info =>
        rw [hi] at hf
        exact hold info hi hf
      | none =>
        rw [hi] at hf
        rcases hst with rfl | rfl <;> cases hf
    · rw [hk]
      exact ⟨parent, List.mem_append_right _ List.mem_cons_self⟩
  · exact hold entry hl hf

theorem Announced.pushBatch (h : sh.Announced handed) (hs : sh.Sound log pending) :
    (pushBatch encode sh messages).shared.Announced (handed ++ handedOf encode sh messages) := by
  induction messages generalizing sh log handed with
  | nil =>
    rw [handedOf, List.append_nil]
    exact h
  | cons message messages ih =>
    have hmsg := h.pushMsg hs message (encode message)
    rw [Shared.pushBatch, handedOf]
    rcases pushMsg_spec hs message (encode message) with ⟨sh₁, hok, hs₁, -⟩ | ⟨e, -, herr, -⟩
    · rw [hok] at hmsg ⊢
      have hrest := ih hmsg hs₁
      rw [List.append_assoc] at hrest
      exact hrest
    · rw [herr] at hmsg ⊢
      exact hmsg

/-- Since `base`, slots have only been removed and made up for: whatever is
tracked has its old parent link and keeps its flag, and has the flag if a
message has been handed over for it. -/
def MadeUp (base sh : Shared) (status : SlotStatus) (done : List ProtobufMessage) : Prop :=
  ∀ k entry, sh.state.slots.lookup k = some entry → ∃ entry₀,
    base.state.slots.lookup k = some entry₀ ∧ entry.parentSlot = entry₀.parentSlot ∧
      (entry₀.flagged status ∨ (∃ parent, ProtobufMessage.slot k parent status ∈ done) →
        entry.flagged status)

theorem MadeUp.refl (sh : Shared) (status : SlotStatus) : MadeUp sh sh status [] := by
  refine fun k entry he => ⟨entry, he, rfl, fun hf => ?_⟩
  rcases hf with hf | ⟨parent, hmem⟩
  · exact hf
  · cases hmem

theorem MadeUp.pushMsg {done : List ProtobufMessage} (h : MadeUp base sh status done)
    (hs : sh.Sound log pending) {message : ProtobufMessage}
    (hm : MakesUp base.state.slots status message) (data : Bytes) :
    MadeUp base (sh.pushMsg message data).shared status (done ++ [message]) := by
  obtain ⟨slot, entry₀, he₀, rfl⟩ := hm
  intro k entry he
  have hl := pushMsg_slots hs _ data k entry he
  rw [lookup_updateSlot] at hl
  split at hl
  · rename_i hk
    have hk' : k = slot := hk
    subst hk'
    rw [← Option.some.inj hl]
    refine ⟨entry₀, he₀, ?_, fun _ => SlotInfo.flagged_update_self _ _ _ _⟩
    -- a removed entry has come back with the parent link of the message
    rw [SlotInfo.parentSlot_update]
    change (entry₀.parentSlot <|> _) = _
    cases hi : sh.state.slots.lookup k with
    | none => cases entry₀.parentSlot <;> rfl
    | some info =>
      obtain ⟨entry₁, he₁, hp, -⟩ := h k info hi
      rw [he₀, Option.some.injEq] at he₁
      rw [Option.getD_some, hp, ← he₁]
      cases entry₀.parentSlot <;> rfl
  · rename_i hk
    obtain ⟨entry₁, he₁, hp, hf⟩ := h k entry hl
    refine ⟨entry₁, he₁, hp, fun hor => hf ?_⟩
    rcases hor with hfl | ⟨parent, hmem⟩
    · exact .inl hfl
    · rcases List.mem_append.mp hmem with hmem | hmem
      · exact .inr ⟨parent, hmem⟩
      · rw [List.mem_singleton, ProtobufMessage.slot.injEq] at hmem
        exact absurd hmem.1 hk

theorem MadeUp.pushBatch {done : List ProtobufMessage} (h : MadeUp base sh status done)
    (hs : sh.Sound log pending) (hm : ∀ m ∈ messages, MakesUp base.state.slots status m)
    (hok : pushBatch encode sh messages = .ok sh') :
    MadeUp base sh' status (done ++ messages) := by
  induction messages generalizing sh log done with
  | nil =>
    cases hok
    rwa [List.append_nil]
  | cons message messages ih =>
    have hmsg := h.pushMsg hs (hm message List.mem_cons_self) (encode message)
    rw [Shared.pushBatch] at hok
    rcases pushMsg_spec hs message (encode message) with ⟨sh₁, hrun, hs₁, -⟩ | ⟨e, -, hrun, -⟩
    · rw [hrun] at hmsg hok
      have hrest := ih hmsg hs₁ (fun m hmem => hm m (List.mem_cons_of_mem _ hmem)) hok
      rwa [List.append_assoc] at hrest
    · rw [hrun] at hok
      cases hok

theorem pushBatch_append (encode : ProtobufMessage → Bytes) (sh : Shared)
    (messages messages' : List ProtobufMessage) :
    pushBatch encode sh (messages ++ messages') =
      pushBatch encode sh messages >>= fun sh' => pushBatch encode sh' messages' := by
  induction messages generalizing sh with
  | nil => rfl
  | cons message messages ih =>
    rw [List.cons_append, pushBatch, pushBatch, bind_assoc]
    congr 1
    funext sh₁
    exact ih sh₁

-- ════════════════════════════════════════════════════════════════════════
-- Ancestors
-- ════════════════════════════════════════════════════════════════════════

/-- What is tracked after the message itself has been pushed: its slot, with the
flag and with the carried parent link, and slots made up for. -/
def After (base : Shared) (slots : OrderedMap Slot SlotInfo) (slot : Slot)
    (carried : Option Slot) (status : SlotStatus) (done : List ProtobufMessage) : Prop :=
  ∀ k entry, slots.lookup k = some entry →
    (k = slot ∧ entry.flagged status ∧ ∀ p, entry.parentSlot = some p →
      (carried <|> recorded base.state.slots slot) = some p) ∨
    (k ≠ slot ∧ ∃ entry₀, base.state.slots.lookup k = some entry₀ ∧
      entry.parentSlot = entry₀.parentSlot ∧
      (entry₀.flagged status ∨ (∃ parent, ProtobufMessage.slot k parent status ∈ done) →
        entry.flagged status))

theorem MadeUp.after {done : List ProtobufMessage} (h : MadeUp base sh status done)
    (hs : sh.Sound log pending) (slot : Slot) (carried : Option Slot) (data : Bytes) :
    After base (sh.pushMsg (.slot slot carried status) data).shared.state.slots slot carried
      status done := by
  intro k entry he
  have hl := pushMsg_slots hs (.slot slot carried status) data k entry he
  rw [lookup_updateSlot] at hl
  split at hl
  · rename_i hk
    have hk' : k = slot := hk
    subst hk'
    rw [← Option.some.inj hl]
    refine .inl ⟨rfl, SlotInfo.flagged_update_self _ _ _ _, fun p hp => ?_⟩
    rw [SlotInfo.parentSlot_update] at hp
    cases carried with
    | some q => exact hp
    | none =>
      cases hi : sh.state.slots.lookup k with
      | none =>
        rw [hi] at hp
        cases hp
      | some info =>
        rw [hi] at hp
        obtain ⟨entry₀, he₀, hp₀, -⟩ := h k info hi
        have hinfo : info.parentSlot = some p := hp
        exact Option.bind_eq_some_iff.mpr ⟨entry₀, he₀, hp₀.symm.trans hinfo⟩
  · rename_i hk
    exact .inr ⟨hk, h k entry hl⟩

section

variable {slots : OrderedMap Slot SlotInfo} {slot : Slot} {carried : Option Slot}
  {done : List ProtobufMessage}

theorem After.mem (h : After base slots slot carried status done) {k : Slot} (hk : k ∈ slots) :
    k = slot ∨ k ∈ base.state.slots := by
  obtain ⟨entry, he⟩ := Finmap.mem_iff.mp hk
  rcases h k entry he with ⟨hks, -⟩ | ⟨-, entry₀, he₀, -⟩
  · exact .inl hks
  · exact .inr (Finmap.mem_iff.mpr ⟨entry₀, he₀⟩)

/-- The link of the message's slot is the carried one, if there is one. -/
theorem After.recorded_self (h : After base slots slot carried status done) {p : Slot}
    (hp : recorded slots slot = some p) :
    (carried <|> recorded base.state.slots slot) = some p := by
  obtain ⟨entry, he, hparent⟩ := Option.bind_eq_some_iff.mp hp
  rcases h slot entry he with ⟨-, -, hlink⟩ | ⟨hne, -⟩
  · exact hlink p hparent
  · exact absurd rfl hne

theorem After.recorded_of_ne (h : After base slots slot carried status done) {k p : Slot}
    (hk : k ≠ slot) (hp : recorded slots k = some p) : recorded base.state.slots k = some p := by
  obtain ⟨entry, he, hparent⟩ := Option.bind_eq_some_iff.mp hp
  rcases h k entry he with ⟨hks, -⟩ | ⟨-, entry₀, he₀, hp₀, -⟩
  · exact absurd hks hk
  · exact Option.bind_eq_some_iff.mpr ⟨entry₀, he₀, hp₀.symm.trans hparent⟩

/-- Pushing the message itself adds no ancestor but its slot. -/
theorem After.ancestor (h : After base slots slot carried status done) {ancestor : Slot}
    (ha : Ancestor slots carried slot ancestor) :
    ancestor = slot ∨ Ancestor base.state.slots carried slot ancestor := by
  have hstart : ∀ p, (carried <|> recorded base.state.slots slot) = some p → p ∈ slots →
      p = slot ∨ Ancestor base.state.slots carried slot p := by
    intro p hp hpm
    rcases h.mem hpm with hps | hpb
    · exact .inl hps
    · exact .inr ⟨p, hp, hpb, .refl⟩
  obtain ⟨p, hp, hpm, hlinks⟩ := ha
  have hfirst : (carried <|> recorded base.state.slots slot) = some p := by
    cases carried with
    | some q => exact hp
    | none => exact h.recorded_self hp
  induction hlinks with
  | refl => exact hstart p hfirst hpm
  | @tail x y _ hlink ih =>
    obtain ⟨hrec, hym⟩ := hlink
    by_cases hx : x = slot
    · exact hstart y (h.recorded_self (hx ▸ hrec)) hym
    · obtain ⟨q, hq, hqm, hrest⟩ := ih.resolve_left hx
      rcases h.mem hym with hys | hyb
      · exact .inl hys
      · exact .inr ⟨q, hq, hqm, hrest.tail ⟨h.recorded_of_ne hx hrec, hyb⟩⟩

end

theorem mem_of_ancestor {slots : OrderedMap Slot SlotInfo} {carried : Option Slot}
    {slot ancestor : Slot} (ha : Ancestor slots carried slot ancestor) : ancestor ∈ slots := by
  obtain ⟨p, -, hpm, hlinks⟩ := ha
  rcases ReflTransGen.cases_tail hlinks with rfl | ⟨x, -, -, hmem⟩
  · exact hpm
  · exact hmem

-- ════════════════════════════════════════════════════════════════════════
-- Runs
-- ════════════════════════════════════════════════════════════════════════

theorem Announced.push (h : sh.Announced handed) (hs : sh.Sound log pending) {call : Call}
    {outcome : Outcome} (hrun : sh.push call.encode call.message = some outcome) :
    outcome.shared.Announced (handed ++ sh.handed call) := by
  rw [push_eq, Option.map_eq_some_iff] at hrun
  obtain ⟨messages, hb, rfl⟩ := hrun
  have hbatch : (Shared.pushBatch call.encode sh messages).shared.Announced
      (handed ++ handedOf call.encode sh messages) := h.pushBatch hs
  rw [Shared.handed, hb]
  cases hp : Shared.pushBatch call.encode sh messages with
  | ok sh₁ =>
    rw [hp] at hbatch
    exact hbatch
  | error e =>
    rw [hp] at hbatch
    exact hbatch

/-- The batch of a slot message: what the walk makes up for, then the message. -/
theorem batch_slot {slot : Slot} {carried : Option Slot}
    (hb : sh.batch (.slot slot carried status) = some messages) :
    ∃ missed, backfill sh.state.slots status (sh.state.slots.len + 1) slot = some missed ∧
      messages = missed.reverse ++ [.slot slot carried status] := by
  rw [batch] at hb
  obtain ⟨missed, hmissed, rfl⟩ := Option.map_eq_some_iff.mp hb
  exact ⟨missed, hmissed, List.reverse_cons⟩

/-- A push whose walk reaches every ancestor without the flag leaves every
ancestor with the flag. -/
theorem Covers.flagged {slot ancestor : Slot} {carried : Option Slot}
    (hcov : sh.Covers slot carried status) (hs : sh.Sound log pending)
    (hok : sh.push encode (.slot slot carried status) = some (.ok sh'))
    (ha : Ancestor sh'.state.slots carried slot ancestor) :
    Flagged sh'.state.slots status ancestor := by
  rw [push_eq, Option.map_eq_some_iff] at hok
  obtain ⟨messages, hb, hrun⟩ := hok
  obtain ⟨missed, hmissed, rfl⟩ := batch_slot hb
  rw [pushBatch_append] at hrun
  rcases pushBatch_spec encode missed.reverse hs with
    ⟨sh₁, hok₁, hs₁, -, -⟩ | ⟨e, -, -, herr, -⟩
  · have hup := (MadeUp.refl sh status).pushBatch hs
      (fun m hm => backfill_makesUp hmissed m (List.mem_reverse.mp hm)) hok₁
    rw [hok₁] at hrun
    change (sh₁.pushMsg (.slot slot carried status) _ >>= fun sh₂ => .ok sh₂).map drained =
      _ at hrun
    rcases pushMsg_spec hs₁ (.slot slot carried status) (encode (.slot slot carried status)) with
      ⟨sh₂, hok₂, -⟩ | ⟨e, -, herr, -⟩
    · rw [hok₂] at hrun
      cases hrun
      have hafter := hup.after hs₁ slot carried (encode (.slot slot carried status))
      rw [hok₂] at hafter
      obtain ⟨entry, he⟩ := Finmap.mem_iff.mp (mem_of_ancestor ha)
      rcases hafter ancestor entry he with ⟨-, hf, -⟩ | ⟨hne, entry₀, he₀, -, hf⟩
      · exact ⟨entry, he, hf⟩
      · refine ⟨entry, he, hf ?_⟩
        rcases hcov ancestor ((hafter.ancestor ha).resolve_left hne) with
          ⟨info, hi, hfi⟩ | hwalk
        · rw [he₀, Option.some.injEq] at hi
          exact .inl (hi ▸ hfi)
        · obtain ⟨parent, hmem⟩ := backfill_reaches hmissed hwalk
          exact .inr ⟨parent, List.mem_append_right _ (List.mem_reverse.mpr hmem)⟩
    · rw [herr] at hrun
      cases hrun
  · rw [herr] at hrun
    cases hrun

end Shared

open Shared

variable {config : ConfigChannel} {sh sh' : Shared} {handed : List ProtobufMessage}

theorem Handed.sound (h : Handed config sh handed) : ∃ log pending, sh.Sound log pending := by
  induction h with
  | new => exact ⟨[], 0, (Inv.new config).sound⟩
  | push _ call _ outcome hrun ih =>
    obtain ⟨log, pending, hs⟩ := ih
    obtain ⟨new, pending', hs', -⟩ := push_outcome hs hrun
    exact ⟨log ++ new, pending', hs'⟩

theorem Handed.announced (h : Handed config sh handed) : sh.Announced handed := by
  induction h with
  | new =>
    rintro status - k ⟨entry, he, -⟩
    cases he
  | push run call _ outcome hrun ih =>
    obtain ⟨log, pending, hs⟩ := run.sound
    exact ih.push hs hrun

/-- In every run, a push of a confirmed or rooted slot whose walk reaches the
ancestors without the flag leaves no gap. -/
theorem handed_no_gap (h : Handed config sh handed) {call : Call} {slot : Slot}
    {carried : Option Slot} {status : SlotStatus}
    (hmessage : call.message = .slot slot carried status)
    (hstatus : status = .confirmed ∨ status = .rooted) (hcov : sh.Covers slot carried status)
    (hok : sh.push call.encode call.message = some (.ok sh')) :
    sh'.NoGap (handed ++ sh.handed call) slot carried status := by
  obtain ⟨log, pending, hs⟩ := h.sound
  have hann := h.announced.push hs hok
  intro ancestor ha
  have hf := hcov.flagged hs (hmessage ▸ hok) ha
  exact ⟨hf, hann status hstatus ancestor hf⟩

/-- A slot message of two bytes. -/
def statusCall (slot : Slot) (parent : Option Slot) (status : SlotStatus) : Call :=
  ⟨fun _ => [1, 2], .slot slot parent status⟩

theorem exists_of_pushCalls_cons {call : Call} {calls : List Call}
    (hok : sh.pushCalls (call :: calls) = some (.ok sh')) :
    ∃ sh₁, sh.push call.encode call.message = some (.ok sh₁) ∧
      sh₁.pushCalls calls = some (.ok sh') := by
  rw [pushCalls] at hok
  split at hok
  · rename_i sh₁ hpush
    exact ⟨sh₁, hpush, hok⟩
  · rename_i hne
    exact absurd hok (hne sh')

/-- The parent of a confirmed slot is made up for over the link recorded before. -/
theorem handed_no_gap_recorded : ∃ sh handed, Handed ⟨8, 8, 100⟩ sh handed ∧
    recorded sh.state.slots 6 = some 5 ∧ sh.NoGap handed 6 (some 5) .confirmed := by
  let first := statusCall 5 none .processed
  let second := statusCall 6 (some 5) .processed
  let third := statusCall 6 (some 5) .confirmed
  have hrun : readOff (fun sh => (recorded sh.state.slots 6, recorded sh.state.slots 5,
      (sh.state.slots.lookup 5).map fun entry => entry.missed .confirmed))
      ((Sender.new ⟨8, 8, 100⟩).pushCalls [first, second]) =
      some (some 5, none, some true) := by
    decide +kernel
  have hrun' : readOff (fun sh => recorded sh.state.slots 6)
      ((Sender.new ⟨8, 8, 100⟩).pushCalls [first, second, third]) = some (some 5) := by
    decide +kernel
  obtain ⟨sh, hok, hf⟩ := exists_of_readOff hrun
  obtain ⟨sh', hok', hf'⟩ := exists_of_readOff hrun'
  obtain ⟨sh₁, h₁, hrest₁⟩ := exists_of_pushCalls_cons hok'
  obtain ⟨sh₂, h₂, hrest₂⟩ := exists_of_pushCalls_cons hrest₁
  obtain ⟨sh₃, h₃, hrest₃⟩ := exists_of_pushCalls_cons hrest₂
  cases hrest₃
  have hsh : sh₂ = sh := by
    rw [pushCalls, h₁] at hok
    change sh₁.pushCalls [second] = _ at hok
    rw [pushCalls, h₂] at hok
    cases hok
    rfl
  subst hsh
  rw [Prod.mk.injEq, Prod.mk.injEq] at hf
  obtain ⟨h65, h5, hmissed⟩ := hf
  have hhanded := (Handed.new.push first trivial _ h₁).push second
    (by decide : (5 : ℕ) < 6) _ h₂
  have hcov : sh₂.Covers 6 (some 5) .confirmed := by
    rintro ancestor ⟨p, hp, -, hlinks⟩
    obtain ⟨entry, he, hm⟩ := Option.map_eq_some_iff.mp hmissed
    cases hp
    rcases ReflTransGen.cases_head hlinks with rfl | ⟨x, ⟨hx, -⟩, -⟩
    · exact .inr (.single ⟨h65, entry, he, hm⟩)
    · rw [h5] at hx
      cases hx
  have hmessage : third.message = .slot 6 (some 5) .confirmed := rfl
  have hno := handed_no_gap hhanded hmessage (.inl rfl) hcov h₃
  exact ⟨_, _, hhanded.push third (by decide : (5 : ℕ) < 6) _ h₃, hf', hno⟩

/-- A slot that brings its parent link with its first message, which is its
confirmation: the walk does not know the link yet. -/
theorem carried_link_leaves_gap : ¬∀ (config : ConfigChannel) (sh : Shared)
    (handed : List ProtobufMessage), Handed config sh handed →
    ∀ (call : Call) (slot : Slot) (carried : Option Slot) (status : SlotStatus),
      call.message = .slot slot carried status → call.message.ParentBelow →
      status = .confirmed ∨ status = .rooted →
      ∀ sh', sh.push call.encode call.message = some (.ok sh') →
        sh'.NoGap (handed ++ sh.handed call) slot carried status := by
  intro hall
  let first := statusCall 5 none .processed
  let second := statusCall 6 (some 5) .confirmed
  have hrun : readOff (fun sh => (sh.state.slots.lookup 5).map SlotInfo.confirmed)
      ((Sender.new ⟨8, 8, 100⟩).pushCalls [first, second]) = some (some false) := by
    decide +kernel
  obtain ⟨sh', hok, hf⟩ := exists_of_readOff hrun
  obtain ⟨sh₁, h₁, hrest⟩ := exists_of_pushCalls_cons hok
  obtain ⟨sh₂, h₂, hrest₂⟩ := exists_of_pushCalls_cons hrest
  cases hrest₂
  obtain ⟨entry, he, hconf⟩ := Option.map_eq_some_iff.mp hf
  have hno := hall _ _ _ (Handed.new.push first trivial _ h₁) second 6 (some 5) .confirmed rfl
    (by decide : (5 : ℕ) < 6) (.inl rfl) sh' h₂
  have hancestor : Ancestor sh'.state.slots (some 5) 6 5 :=
    ⟨5, rfl, Finmap.mem_iff.mpr ⟨entry, he⟩, .refl⟩
  obtain ⟨entry', he', hflag⟩ := (hno 5 hancestor).1
  rw [he, Option.some.injEq] at he'
  subst he'
  change entry.confirmed = true at hflag
  rw [hconf] at hflag
  cases hflag

end Dragonmouth.Plugin
