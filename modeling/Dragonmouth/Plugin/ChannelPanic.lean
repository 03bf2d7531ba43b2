import Mathlib.Data.Finset.Filter
import Dragonmouth.Plugin.ChannelRetained

/-!
# When a push panics

The loop that enforces the slot limit removes the least slot, which need not be
the oldest. A run of pushes returns from every call exactly if, whenever a
message of a new slot meets a full index, its slot is greater than the least
one and some message after the beginning of the least slot is of another slot.

## Main definitions

- `Shared.RoomFor`: the condition on the channel before a message
- `Shared.RoomForCalls`: the condition along a run
- `Shared.Admissible`: what the validator promises about a run
-/

namespace Dragonmouth.Plugin

open RingLog

/-- A slot message names a parent below its slot. -/
def ProtobufMessage.ParentBelow : ProtobufMessage → Prop
  | .slot child (some parent) _ => parent < child
  | _ => True

namespace Shared

variable {sh sh' : Shared} {log : List Stored}

/-- Every tracked parent is below its slot. -/
def ParentsBelow (sh : Shared) : Prop :=
  ∀ s info p, sh.state.slots.lookup s = some info → info.parentSlot = some p → p < s

/-- The walk visits ever smaller indexed slots, so it ends; what it returns are
slot messages with tracked parents. -/
theorem backfill_spec (h : sh.ParentsBelow) (status : SlotStatus) {n : ℕ} {slot : Slot}
    (hn : (sh.state.slots.keys.filter (· < slot)).card < n) :
    ∃ messages, backfill sh.state.slots status n slot = some messages ∧
      ∀ m ∈ messages, m.ParentBelow := by
  induction n generalizing slot with
  | zero => exact absurd hn (Nat.not_lt_zero _)
  | succ n ih =>
    rw [backfill]
    cases hp : (sh.state.slots.lookup slot).bind SlotInfo.parentSlot with
    | none => exact ⟨[], rfl, by simp⟩
    | some parent =>
      obtain ⟨info, hinfo, hparent⟩ := Option.bind_eq_some_iff.mp hp
      have hlt : parent < slot := h slot info parent hinfo hparent
      cases he : sh.state.slots.lookup parent with
      | none =>
        simp only [he]
        exact ⟨[], rfl, by simp⟩
      | some entry =>
        simp only [he]
        by_cases hm : entry.missed status
        · have hmem : parent ∈ sh.state.slots.keys.filter (· < slot) :=
            Finset.mem_filter.mpr
              ⟨Finmap.mem_keys.mpr (Finmap.mem_iff.mpr ⟨entry, he⟩), hlt⟩
          have hcard : (sh.state.slots.keys.filter (· < parent)).card <
              (sh.state.slots.keys.filter (· < slot)).card := by
            refine Finset.card_lt_card (Finset.ssubset_iff_of_subset ?_ |>.mpr ⟨parent, hmem, ?_⟩)
            · intro k hk
              obtain ⟨hk, hk'⟩ := Finset.mem_filter.mp hk
              exact Finset.mem_filter.mpr ⟨hk, hk'.trans hlt⟩
            · simp
          have hcard' : (sh.state.slots.keys.filter (· < parent)).card < n := by
            omega
          obtain ⟨messages, hrun, hall⟩ := ih hcard'
          rw [if_pos hm, hrun]
          refine ⟨_, rfl, fun m hmem => ?_⟩
          rcases List.mem_cons.mp hmem with rfl | hmem
          · cases hps : entry.parentSlot with
            | none => trivial
            | some p => exact h parent entry p he hps
          · exact hall m hmem
        · rw [if_neg hm]
          exact ⟨[], rfl, by simp⟩

/-- The messages of a batch can be determined, and name parents below. -/
theorem batch_spec (h : sh.ParentsBelow) {message : ProtobufMessage} (hm : message.ParentBelow) :
    ∃ messages, sh.batch message = some messages ∧ ∀ m ∈ messages, m.ParentBelow := by
  cases message with
  | slot slot parent status =>
    have hcard : (sh.state.slots.keys.filter (· < slot)).card < sh.state.slots.len + 1 :=
      Nat.lt_succ_of_le (Finset.card_filter_le _ _)
    obtain ⟨messages, hrun, hall⟩ := backfill_spec h status hcard
    refine ⟨_, by rw [batch, hrun]; rfl, fun m hmem => ?_⟩
    rcases List.mem_cons.mp (List.mem_reverse.mp hmem) with rfl | hmem
    · exact hm
    · exact hall m hmem
  | _ => exact ⟨_, rfl, fun m hmem => by rw [List.mem_singleton.mp hmem]; exact hm⟩

/-- Updating the info of a slot sets no parent that is not below it. -/
theorem ParentsBelow.updateSlot (h : sh.ParentsBelow) {message : ProtobufMessage}
    (hm : message.ParentBelow) (pos : ℕ) : (sh.updateSlot pos message).ParentsBelow := by
  have hold : ∀ p, ((sh.state.slots.lookup message.getSlot).getD
      ⟨pos, none, false, false⟩).parentSlot = some p → p < message.getSlot := by
    intro p hp
    cases hl : sh.state.slots.lookup message.getSlot with
    | none => rw [hl] at hp; cases hp
    | some info => rw [hl] at hp; exact h _ info p hl hp
  intro s info p hs hp
  rw [Shared.updateSlot] at hs
  simp only [Finmap.lookup_insert_eq] at hs
  split at hs
  · rename_i hslot
    subst s
    rw [← Option.some.inj hs] at hp
    cases message with
    | slot slot parent status =>
      cases parent with
      | none =>
        refine hold p ?_
        simp only [SlotInfo.update] at hp
        split_ifs at hp <;> exact hp
      | some parent =>
        have he : some parent = some p := by
          simp only [SlotInfo.update] at hp
          split_ifs at hp <;> exact hp
        rw [← Option.some.inj he]
        exact hm
    | _ => exact hold p hp
  · exact h s info p hs hp

theorem ParentsBelow.pushMsg {pending : ℕ} (h : sh.ParentsBelow) (hs : sh.Sound log pending)
    {message : ProtobufMessage} (hm : message.ParentBelow) {data : Bytes}
    (hok : sh.pushMsg message data = .ok sh') : sh'.ParentsBelow := by
  rcases pushMsg_spec hs message data with ⟨sh₁, hrun, -, -, hsub, -⟩ | ⟨e, -, hrun, -⟩
  · rw [hrun] at hok
    cases hok
    exact fun s info p hl hp => h.updateSlot hm _ s info p (hsub s info hl) hp
  · rw [hrun] at hok
    cases hok

/-- There is room for a message of the slot: the slot is indexed, or the index
is not full, or the least slot is below it and a retained message after the
least slot's first one is of another slot. -/
def RoomFor (sh : Shared) (slot : Slot) : Prop :=
  slot ∈ sh.state.slots ∨ sh.state.slots.len < sh.state.slotsMax ∨
    ∃ least info, sh.state.slots.lookup least = some info ∧ (∀ k ∈ sh.state.slots, least ≤ k) ∧
      least < slot ∧ ∃ p, info.head ≤ p ∧ p < sh.state.tail ∧
        (sh.buffer (sh.getIdx p)).slot ≠ least

theorem mem_updateSlot {message : ProtobufMessage} {pos : ℕ} {k : Slot} :
    k ∈ (sh.updateSlot pos message).state.slots ↔ k = message.getSlot ∨ k ∈ sh.state.slots :=
  Finmap.mem_insert

/-- In terms of the log, the messages after a position are of one slot. -/
theorem Core.otherFrom_iff {pending p : ℕ} {slot : Slot} (h : sh.Core log pending)
    (hp : sh.state.head ≤ p) : sh.OtherFrom log slot p ↔
      ∃ q, p ≤ q ∧ q < sh.state.tail ∧ (sh.buffer (sh.getIdx q)).slot ≠ slot := by
  constructor
  · rintro ⟨q, x, hpq, hq, hx, hne⟩
    obtain ⟨y, hy, -, hslot, -⟩ := h.item (hp.trans hpq) hq
    rw [hx] at hy
    rw [← Option.some.inj hy] at hslot
    exact ⟨q, hpq, hq, by rwa [hslot]⟩
  · rintro ⟨q, hpq, hq, hne⟩
    obtain ⟨x, hx, -, hslot, -⟩ := h.item (hp.trans hpq) hq
    exact ⟨q, x, hpq, hq, hx, by rwa [← hslot]⟩

/-- No entry points before the head. -/
theorem Inv.otherFrom_entry (h : sh.Inv log) {k : Slot} {info : SlotInfo}
    (hk : sh.state.slots.lookup k = some info) :
    sh.OtherFrom log k (max sh.state.head info.head) ↔
      ∃ q, info.head ≤ q ∧ q < sh.state.tail ∧ (sh.buffer (sh.getIdx q)).slot ≠ k := by
  have hle : sh.state.head ≤ info.head := (h.index k info.head (by rw [headOf, hk]; rfl)).1
  rw [max_eq_right hle]
  exact h.core.otherFrom_iff hle

section

variable {message : ProtobufMessage}

theorem lookup_updateSlot_of_ne {k : Slot} (hk : k ≠ message.getSlot) :
    (sh.updateSlot sh.state.tail message).state.slots.lookup k = sh.state.slots.lookup k :=
  Finmap.lookup_insert_of_ne _ hk

/-- Nothing follows the first message of a new slot. -/
theorem not_otherFrom_new (hmem : message.getSlot ∉ sh.state.slots) {info : SlotInfo}
    (hinfo : (sh.updateSlot sh.state.tail message).state.slots.lookup message.getSlot =
      some info) :
    ¬sh.OtherFrom log message.getSlot (max sh.state.head info.head) := by
  have htail : headOf (sh.updateSlot sh.state.tail message).state.slots message.getSlot =
      some sh.state.tail := by
    rw [headOf_updateSlot, if_pos rfl, headOf_eq_none.mpr hmem]
    rfl
  rw [headOf, hinfo, Option.map_some, Option.some.injEq] at htail
  rintro ⟨q, x, hq, hq', -⟩
  omega

/-- The least slot can go, so it is an older one. -/
theorem roomFor_of_removable (h : sh.Inv log) (hmem : message.getSlot ∉ sh.state.slots)
    (hr : (sh.updateSlot sh.state.tail message).Removable log) :
    sh.RoomFor message.getSlot := by
  have hpos : 0 < (sh.updateSlot sh.state.tail message).state.slots.len := by
    rw [len_updateSlot, if_neg hmem]
    omega
  obtain ⟨least, info, -, hinfo, hmin⟩ := Finmap.popFirst_of_pos hpos
  have hother : sh.OtherFrom log least (max sh.state.head info.head) := hr least info hinfo hmin
  have hne : least ≠ message.getSlot := by
    rintro rfl
    exact not_otherFrom_new hmem hinfo hother
  rw [lookup_updateSlot_of_ne hne] at hinfo
  exact .inr (.inr ⟨least, info, hinfo, fun k hk => hmin k (mem_updateSlot.mpr (.inr hk)),
    lt_of_le_of_ne (hmin _ (mem_updateSlot.mpr (.inl rfl))) hne,
    (h.otherFrom_entry hinfo).mp hother⟩)

/-- An older slot that can go is the least one after the message as well. -/
theorem removable_of_older (h : sh.Inv log) {least : Slot} {info : SlotInfo}
    (hinfo : sh.state.slots.lookup least = some info) (hmin : ∀ k ∈ sh.state.slots, least ≤ k)
    (hlt : least < message.getSlot)
    (hother : ∃ p, info.head ≤ p ∧ p < sh.state.tail ∧
      (sh.buffer (sh.getIdx p)).slot ≠ least) :
    (sh.updateSlot sh.state.tail message).Removable log := by
  intro k kinfo hk hkmin
  have hkl : k = least := by
    refine le_antisymm (hkmin least (mem_updateSlot.mpr (.inr ?_))) ?_
    · exact Finmap.mem_iff.mpr ⟨info, hinfo⟩
    · obtain rfl | hk' := mem_updateSlot.mp (Finmap.mem_iff.mpr ⟨kinfo, hk⟩)
      · exact hlt.le
      · exact hmin k hk'
  subst k
  rw [lookup_updateSlot_of_ne hlt.ne, hinfo] at hk
  rw [← Option.some.inj hk]
  exact (h.otherFrom_entry hinfo).mpr hother

end

/-- Room for a message is what the loop over extra slots needs. -/
theorem roomFor_iff (h : sh.Inv log) (message : ProtobufMessage) :
    (sh.state.slotsMax < (sh.updateSlot sh.state.tail message).state.slots.len →
      (sh.updateSlot sh.state.tail message).Removable log) ↔ sh.RoomFor message.getSlot := by
  have hmax := h.slots
  rw [len_updateSlot]
  by_cases hmem : message.getSlot ∈ sh.state.slots
  · rw [if_pos hmem]
    exact ⟨fun _ => .inl hmem, fun _ hlt => absurd hmax (Nat.not_le.mpr hlt)⟩
  rw [if_neg hmem]
  by_cases hlen : sh.state.slots.len < sh.state.slotsMax
  · exact ⟨fun _ => .inr (.inl hlen), fun _ hlt => absurd hlt (by omega)⟩
  -- the message brings a slot too many, at the tail
  constructor
  · intro hr
    exact roomFor_of_removable h hmem (hr (by omega))
  · rintro (hm | hl | ⟨least, info, hinfo, hmin, hlt, hother⟩) -
    · exact absurd hm hmem
    · exact absurd hl hlen
    · exact removable_of_older h hinfo hmin hlt hother

theorem pushMsg_returns_iff (h : sh.Inv log) (message : ProtobufMessage) {data : Bytes}
    (hfit : data.length ≤ sh.state.bytesMax) :
    (∃ sh', sh.pushMsg message data = .ok sh') ↔ sh.RoomFor message.getSlot :=
  (pushMsg_ok_iff h message hfit).trans (roomFor_iff h message)

-- ════════════════════════════════════════════════════════════════════════
-- Runs
-- ════════════════════════════════════════════════════════════════════════

/-- There is room for every message of a batch when its turn comes. -/
def RoomForBatch (encode : ProtobufMessage → Bytes) : Shared → List ProtobufMessage → Prop
  | _, [] => True
  | sh, message :: messages => sh.RoomFor message.getSlot ∧
      ∀ sh', sh.pushMsg message (encode message) = .ok sh' → RoomForBatch encode sh' messages

/-- There is room for every message of a run when its turn comes. -/
def RoomForCalls : Shared → List Call → Prop
  | _, [] => True
  | sh, call :: calls =>
      (∀ messages, sh.batch call.message = some messages →
        RoomForBatch call.encode sh messages) ∧
      ∀ sh', sh.push call.encode call.message = some (.ok sh') → RoomForCalls sh' calls

/-- In every call the pushed message names a parent below its slot and no
encoded message is longer than the byte limit. -/
def Admissible (bytesMax : ℕ) : Shared → List Call → Prop
  | _, [] => True
  | sh, call :: calls =>
      call.message.ParentBelow ∧
      (∀ messages, sh.batch call.message = some messages →
        ∀ m ∈ messages, (call.encode m).length ≤ bytesMax) ∧
      ∀ sh', sh.push call.encode call.message = some (.ok sh') → Admissible bytesMax sh' calls

/-- A batch is pushed without a panic exactly if there is room for its messages. -/
theorem pushBatch_returns_iff {encode : ProtobufMessage → Bytes} {messages : List ProtobufMessage}
    (h : sh.Inv log) (hfit : ∀ m ∈ messages, (encode m).length ≤ sh.state.bytesMax) :
    (∃ sh', pushBatch encode sh messages = .ok sh') ↔ sh.RoomForBatch encode messages := by
  induction messages generalizing sh log with
  | nil => exact ⟨fun _ => trivial, fun _ => ⟨sh, rfl⟩⟩
  | cons message messages ih =>
    have hmsg := pushMsg_returns_iff h message (hfit message List.mem_cons_self)
    rw [RoomForBatch, pushBatch, ← hmsg]
    rcases pushMsg_spec h.sound message (encode message) with
      ⟨sh₁, hok, -, hp, -, hinv⟩ | ⟨e, -, herr, -⟩
    · have hrec := ih (hinv h) fun m hm => hp.bytesMax ▸ hfit m (List.mem_cons_of_mem _ hm)
      rw [hok]
      refine hrec.trans ⟨fun hr => ⟨⟨sh₁, rfl⟩, fun sh' he => ?_⟩, fun hr => hr.2 sh₁ rfl⟩
      rwa [← Except.ok.inj he]
    · rw [herr]
      constructor
      · rintro ⟨sh', he⟩
        cases he
      · rintro ⟨⟨sh', he⟩, -⟩
        cases he

theorem pushBatch_parentsBelow {encode : ProtobufMessage → Bytes} {pending : ℕ}
    {messages : List ProtobufMessage} (h : sh.ParentsBelow) (hs : sh.Sound log pending)
    (hm : ∀ m ∈ messages, m.ParentBelow) (hok : pushBatch encode sh messages = .ok sh') :
    sh'.ParentsBelow := by
  induction messages generalizing sh log with
  | nil =>
    cases hok
    exact h
  | cons message messages ih =>
    rw [pushBatch] at hok
    rcases pushMsg_spec hs message (encode message) with ⟨sh₁, hrun, hs₁, -⟩ | ⟨e, -, hrun, -⟩
    · rw [hrun] at hok
      have hp₁ := h.pushMsg hs (hm message List.mem_cons_self) hrun
      exact ih hp₁ hs₁ (fun m hmem => hm m (List.mem_cons_of_mem _ hmem)) hok
    · rw [hrun] at hok
      cases hok

/-- A call returns exactly if there is room for its batch. -/
theorem push_returns_iff {call : Call} (h : sh.Inv log) (hp : sh.ParentsBelow)
    (hm : call.message.ParentBelow)
    (hfit : ∀ messages, sh.batch call.message = some messages →
      ∀ m ∈ messages, (call.encode m).length ≤ sh.state.bytesMax) :
    (∃ sh', sh.push call.encode call.message = some (.ok sh')) ↔
      ∀ messages, sh.batch call.message = some messages →
        RoomForBatch call.encode sh messages := by
  obtain ⟨messages, hb, hall⟩ := batch_spec hp hm
  have hiff := pushBatch_returns_iff h (hfit messages hb)
  have hroom : (∀ ms, sh.batch call.message = some ms → RoomForBatch call.encode sh ms) ↔
      RoomForBatch call.encode sh messages := by
    refine ⟨fun hr => hr messages hb, fun hr ms hms => ?_⟩
    rw [hb] at hms
    rwa [← Option.some.inj hms]
  rw [hroom, ← hiff, push_eq, hb, Option.map_some]
  constructor
  · rintro ⟨sh', he⟩
    cases hrun : pushBatch call.encode sh messages with
    | error e => rw [hrun] at he; cases he
    | ok sh₁ => exact ⟨sh₁, rfl⟩
  · rintro ⟨sh₁, hrun⟩
    exact ⟨sh₁.drained, by rw [hrun]; rfl⟩

/-- What a call that returns preserves. -/
theorem push_preserves {config : ConfigChannel} {call : Call} (h : sh.Inv log)
    (hc : sh.Configured config) (hp : sh.ParentsBelow) (hm : call.message.ParentBelow)
    (hok : sh.push call.encode call.message = some (.ok sh')) :
    (∃ log', sh'.Inv log') ∧ sh'.Configured config ∧ sh'.ParentsBelow := by
  obtain ⟨messages, hb, hall⟩ := batch_spec hp hm
  obtain ⟨hinv, hc'⟩ := push_inv h hc hb hok
  refine ⟨⟨_, hinv⟩, hc', ?_⟩
  rw [push_eq, hb, Option.map_some, Option.some.injEq] at hok
  cases hrun : pushBatch call.encode sh messages with
  | error e => rw [hrun] at hok; cases hok
  | ok sh₁ =>
    rw [hrun] at hok
    cases hok
    have hp₁ := pushBatch_parentsBelow hp h.sound hall hrun
    exact hp₁

/-- From a state with the invariant, a run returns from every call exactly if
there is room for every message. -/
theorem returns_iff_of_inv {config : ConfigChannel} {calls : List Call} (h : sh.Inv log)
    (hc : sh.Configured config) (hp : sh.ParentsBelow)
    (hadm : sh.Admissible config.maxBytes calls) :
    (∃ sh', sh.pushCalls calls = some (.ok sh')) ↔ sh.RoomForCalls calls := by
  induction calls generalizing sh log with
  | nil => exact ⟨fun _ => trivial, fun _ => ⟨sh, rfl⟩⟩
  | cons call calls ih =>
    obtain ⟨hm, hfit, hrest⟩ := hadm
    have hcall := push_returns_iff h hp hm (hc.bytesMax ▸ hfit)
    rw [RoomForCalls, pushCalls, ← hcall]
    cases hrun : sh.push call.encode call.message with
    | none =>
      constructor
      · rintro ⟨sh', he⟩
        cases he
      · rintro ⟨⟨sh', he⟩, -⟩
        cases he
    | some outcome =>
      cases outcome with
      | error e =>
        constructor
        · rintro ⟨sh', he⟩
          cases he
        · rintro ⟨⟨sh', he⟩, -⟩
          cases he
      | ok sh₁ =>
        obtain ⟨⟨log', h₁⟩, hc₁, hp₁⟩ := push_preserves h hc hp hm hrun
        have hrec := ih h₁ hc₁ hp₁ (hrest sh₁ hrun)
        refine hrec.trans ⟨fun hr => ⟨⟨sh₁, rfl⟩, fun sh' he => ?_⟩, fun hr => hr.2 sh₁ rfl⟩
        cases he
        exact hr

/-- A run ends: it returns from every call or panics in one. -/
theorem pushCalls_ends {config : ConfigChannel} {calls : List Call} (h : sh.Inv log)
    (hc : sh.Configured config) (hp : sh.ParentsBelow)
    (hadm : sh.Admissible config.maxBytes calls) :
    ∃ outcome, sh.pushCalls calls = some outcome := by
  induction calls generalizing sh log with
  | nil => exact ⟨_, rfl⟩
  | cons call calls ih =>
    obtain ⟨hm, -, hrest⟩ := hadm
    obtain ⟨messages, hb, -⟩ := batch_spec hp hm
    rw [pushCalls]
    cases hrun : sh.push call.encode call.message with
    | none =>
      rw [push_eq, hb] at hrun
      cases hrun
    | some outcome =>
      cases outcome with
      | error e => exact ⟨_, rfl⟩
      | ok sh₁ =>
        obtain ⟨⟨log', h₁⟩, hc₁, hp₁⟩ := push_preserves h hc hp hm hrun
        exact ih h₁ hc₁ hp₁ (hrest sh₁ hrun)

/-- Short messages without parents are admissible in any state. -/
theorem admissible_of_forall {bytesMax : ℕ} {calls : List Call}
    (h : ∀ call ∈ calls, call.message.ParentBelow ∧ ∀ m, (call.encode m).length ≤ bytesMax)
    (sh : Shared) : sh.Admissible bytesMax calls := by
  induction calls generalizing sh with
  | nil => trivial
  | cons call calls ih =>
    obtain ⟨hm, hlen⟩ := h call List.mem_cons_self
    exact ⟨hm, fun _ _ m _ => hlen m,
      fun sh' _ => ih (fun c hc => h c (List.mem_cons_of_mem _ hc)) sh'⟩

end Shared

open Shared

/-- No call of a run panics exactly if, whenever a message's turn comes, there
is room for its slot; then every call returns. -/
theorem pushCalls_no_panic_iff (config : ConfigChannel) (calls : List Call)
    (hadm : (Sender.new config).Admissible config.maxBytes calls) :
    ((∀ e, (Sender.new config).pushCalls calls ≠ some (.error e)) ↔
      (Sender.new config).RoomForCalls calls) ∧
    ((Sender.new config).RoomForCalls calls →
      ∃ sh, (Sender.new config).pushCalls calls = some (.ok sh)) := by
  have hinv : (Sender.new config).Inv [] := .new config
  have hconf : (Sender.new config).Configured config := ⟨config.ringSize_eq, rfl, rfl⟩
  have hparents : (Sender.new config).ParentsBelow := fun s info p hs => by
    simp [Sender.new] at hs
  have hiff := returns_iff_of_inv hinv hconf hparents hadm
  refine ⟨⟨fun hne => hiff.mp ?_, fun hroom e he => ?_⟩, hiff.mpr⟩
  · obtain ⟨outcome, hrun⟩ := pushCalls_ends hinv hconf hparents hadm
    cases outcome with
    | error e => exact absurd hrun (hne e)
    | ok sh => exact ⟨sh, hrun⟩
  · obtain ⟨sh, hok⟩ := hiff.mpr hroom
    rw [hok] at he
    cases he

/-- Two-byte messages without parents, one for each slot. -/
def slotCalls (slots : List Slot) : List Call :=
  slots.map fun slot => ⟨fun _ => [1, 2], .slot slot none .processed⟩

theorem slotCalls_admissible (slots : List Slot) (sh : Shared) :
    sh.Admissible 10 (slotCalls slots) := by
  refine admissible_of_forall (fun call hcall => ?_) sh
  obtain ⟨slot, -, rfl⟩ := List.mem_map.mp hcall
  exact ⟨trivial, fun m => by simp⟩

/-- Growing slots find room. -/
theorem pushCalls_no_panic_iff_growing :
    (Sender.new ⟨4, 2, 10⟩).RoomForCalls (slotCalls [5, 6, 7]) := by
  have hrun : readOff (fun sh => sh.state.tail)
      ((Sender.new ⟨4, 2, 10⟩).pushCalls (slotCalls [5, 6, 7])) = some 7 := by
    decide +kernel
  obtain ⟨sh, hok, -⟩ := exists_of_readOff hrun
  refine (pushCalls_no_panic_iff ⟨4, 2, 10⟩ _ (slotCalls_admissible _ _)).1.mp fun e he => ?_
  rw [hok] at he
  cases he

/-- A late message of a slot below two indexed ones makes the push panic. -/
theorem late_slot_panics :
    ¬∀ (config : ConfigChannel) (calls : List Call), 1 ≤ config.maxSlots →
      (Sender.new config).Admissible config.maxBytes calls →
      ∀ e, (Sender.new config).pushCalls calls ≠ some (.error e) := by
  intro hall
  have hpanic : ((Sender.new ⟨4, 2, 10⟩).pushCalls (slotCalls [5, 6, 4])).map
      (fun outcome => match outcome with
        | .error e => some e.panic
        | .ok _ => none) = some (some .slotsOverflow2) := by
    decide +kernel
  obtain ⟨outcome, hrun, hout⟩ := Option.map_eq_some_iff.mp hpanic
  cases outcome with
  | ok sh => cases hout
  | error e => exact hall ⟨4, 2, 10⟩ _ (by decide) (slotCalls_admissible _ _) e hrun

end Dragonmouth.Plugin
