import Dragonmouth.Richat.RingEviction

/-!
# `push` and `try_clear`

One specification for `push` and one for each loop of `try_clear`. Neither `push`
nor the loop over extra bytes can fail; the loop over extra slots fails one
assertion if no other slot's message follows the least slot's first one.

## Main definitions

- `SenderShared.pushed`: the ring after a push
- `SenderShared.OtherFrom`: another slot's message follows a position
-/

namespace Dragonmouth.Richat

open RingLog

namespace SenderShared

variable {sender sender' : SenderShared} {log : List Pushed} {x : Pushed}

-- ════════════════════════════════════════════════════════════════════════
-- Pushing a message
-- ════════════════════════════════════════════════════════════════════════

/-- The ring after the tail has been bumped. -/
def bumped (sender : SenderShared) : SenderShared := { sender with tail := sender.tail + 1 }

/-- The ring after the message has been stored at the tail. -/
def stored (sender : SenderShared) (pos : ℕ) (x : Pushed) : SenderShared :=
  (({ sender with bytesTotal := sender.bytesTotal + x.size }.storeItem pos x.1 x.2).storeTail
    pos).insertSlot x.1 pos

/-- The ring after the message `y` at `head` has been left behind. -/
def left (sender : SenderShared) (y : Pushed) : SenderShared :=
  { sender.advanceHead with bytesTotal := sender.bytesTotal - y.size }.forget y.1

theorem bumped_forget (s : Slot) : (sender.forget s).bumped = sender.bumped.forget s := by
  rw [forget, forget]
  change (if s ∈ sender.slots then _ else sender).bumped = if s ∈ sender.slots then _ else _
  split <;> rfl

/-- The new position overwrites the oldest message exactly if the ring is full. -/
theorem dropExisted_eq (h : sender.Core log) :
    (sender.tail < sender.head + sender.ringSize ∧
      sender.bumped.dropExisted sender.tail = .ok sender.bumped) ∨
    (sender.tail = sender.head + sender.ringSize ∧
      ∃ y, log[sender.head - sender.ringSize]? = some y ∧
        sender.bumped.dropExisted sender.tail = .ok (sender.left y).bumped) := by
  have hw := h.window
  have hget := h.getIdx sender.tail
  rcases Nat.lt_or_eq_of_le hw.tail_le with hlt | hfull
  · left
    have hv := hw.next_free hlt
    rw [← hget, cells, Item.cell] at hv
    have hdata : (sender.bumped.shared.item sender.tail).data = none := Option.map_eq_none_iff.mp hv
    refine ⟨hlt, ?_⟩
    simp only [dropExisted, hdata]
  · right
    obtain ⟨y, hy, hcell⟩ := hw.next_full (Nat.succ_pos _) hfull
    rw [← hget, cells, Item.cell, Cell.mk.injEq, Option.map_eq_some_iff] at hcell
    obtain ⟨-, m, hm, rfl⟩ := hcell
    have hdata : (sender.bumped.shared.item sender.tail).data = some m := hm
    have hsize : m.size ≤ sender.bumped.advanceHead.bytesTotal := h.size_le hy
    refine ⟨hfull, _, hy, ?_⟩
    rw [left, bumped_forget]
    simp only [dropExisted, hdata, subBytes_of_le hsize]
    rfl

@[simp] theorem insertSlot_head (s : Slot) (p : ℕ) :
    (sender.insertSlot s p).head = sender.head := by
  rw [insertSlot]
  split <;> rfl

@[simp] theorem insertSlot_tail (s : Slot) (p : ℕ) :
    (sender.insertSlot s p).tail = sender.tail := by
  rw [insertSlot]
  split <;> rfl

@[simp] theorem insertSlot_bytesTotal (s : Slot) (p : ℕ) :
    (sender.insertSlot s p).bytesTotal = sender.bytesTotal := by
  rw [insertSlot]
  split <;> rfl

@[simp] theorem insertSlot_buffer (s : Slot) (p : ℕ) :
    (sender.insertSlot s p).shared.buffer = sender.shared.buffer := by
  rw [insertSlot]
  split <;> rfl

@[simp] theorem insertSlot_mask (s : Slot) (p : ℕ) :
    (sender.insertSlot s p).shared.mask = sender.shared.mask := by
  rw [insertSlot]
  split <;> rfl

@[simp] theorem insertSlot_sharedTail (s : Slot) (p : ℕ) :
    (sender.insertSlot s p).shared.tail = sender.shared.tail := by
  rw [insertSlot]
  split <;> rfl

/-- An entry for a slot that has none points at the new position. -/
theorem headOf_insertSlot (s k : Slot) (p : ℕ) : headOf (sender.insertSlot s p).slots k =
    if k = s then some ((headOf sender.slots s).getD p) else headOf sender.slots k := by
  rw [insertSlot]
  split
  · rename_i hs
    split
    · rename_i hk
      subst k
      obtain ⟨info, hinfo⟩ := Finmap.mem_iff.mp hs
      simp [headOf, hinfo]
    · rfl
  · rename_i hs
    simp only [headOf, Finmap.lookup_insert_eq, Finmap.lookup_eq_none.mpr hs]
    split <;> rfl

theorem stored_cells (p : ℕ) (x : Pushed) : (sender.stored p x).cells =
    Function.update sender.cells (sender.shared.getIdx p) ⟨p, some x⟩ := by
  ext i : 1
  rw [cells, stored, insertSlot_buffer]
  exact cells_setItem sender.shared p _ i

/-- What a push changes besides the cells. -/
structure Pushes (sender sender' : SenderShared) : Prop where
  mask : sender'.shared.mask = sender.shared.mask
  tail : sender'.tail = sender.tail + 1
  sharedTail : sender'.shared.tail = sender.tail
  head : sender.head ≤ sender'.head

/-- Storing into the window the tail has been bumped for. -/
theorem stored_inv {head : ℕ} (hmask : ∃ k, sender.shared.mask + 1 = 2 ^ k)
    (hw : Window sender.ringSize sender.cells head sender.tail log)
    (hle : head ≤ sender.head) (hle' : sender.head ≤ sender.tail)
    (hlt : sender.tail < sender.head + sender.ringSize)
    (hgap : ∀ p, head ≤ p → p < sender.head → p + sender.ringSize ≤ sender.tail)
    (hbytes : sender.bytesTotal = weightFrom Pushed.size log (sender.head - sender.ringSize))
    (hindex : Indexes sender.ringSize sender.head sender.tail log Prod.fst (headOf sender.slots))
    (x : Pushed) : (sender.bumped.stored sender.tail x).Inv (log ++ [x]) := by
  have hbase := hw.base_le
  have htail := hw.tail_eq
  have hget : sender.shared.getIdx sender.tail = sender.tail % sender.ringSize := by
    obtain ⟨k, hk⟩ := hmask
    exact and_mask_eq_mod hk sender.tail
  have hring : (sender.bumped.stored sender.tail x).ringSize = sender.ringSize := by
    simp [ringSize, stored, storeTail, storeItem, bumped, Shared.setItem]
  have hh : (sender.bumped.stored sender.tail x).head = sender.head := by
    simp [stored, storeTail, storeItem, bumped]
  have ht : (sender.bumped.stored sender.tail x).tail = sender.tail + 1 := by
    simp [stored, storeTail, storeItem, bumped]
  have hb : (sender.bumped.stored sender.tail x).bytesTotal = sender.bytesTotal + x.size := by
    simp [stored, storeTail, storeItem, bumped]
  have hs : ∀ k, headOf (sender.bumped.stored sender.tail x).slots k = if k = x.1 then
      some ((headOf sender.slots x.1).getD sender.tail) else headOf sender.slots k := fun k =>
    headOf_insertSlot x.1 k sender.tail
  refine ⟨⟨?_, ?_, ?_⟩, ?_⟩
  · simpa [stored, storeTail, storeItem, bumped, Shared.setItem] using hmask
  · have hstore := hw.store x hle hle' hlt hgap
    rw [← hget] at hstore
    rw [hring, hh, ht, stored_cells]
    exact hstore
  · rw [hring, hh, hb, hbytes, weightFrom_append _ _ (by omega)]
  · rw [hring, hh, ht]
    have happ := hindex.append x (hbase.trans hle) htail
    intro k p hk
    rw [hs] at hk
    split at hk
    · rename_i hkx
      subst hkx
      cases ho : headOf sender.slots x.1 with
      | some q =>
        rw [ho, Option.getD_some] at hk
        rw [← Option.some.inj hk]
        exact happ x.1 q ho
      | none =>
        rw [ho, Option.getD_none] at hk
        rw [← Option.some.inj hk]
        refine ⟨hle', Nat.lt_succ_self _, ?_⟩
        rw [show sender.tail - sender.ringSize = log.length by omega, List.getElem?_concat_length]
        rfl
    · exact happ k p hk

/-- The message a push leaves behind is forgotten before the new one is stored. -/
theorem push_eq (h : sender.Core log) (x : Pushed) :
    (sender.tail < sender.head + sender.ringSize ∧
      sender.push x.1 x.2 = .ok (sender.bumped.stored sender.tail x)) ∨
    (sender.tail = sender.head + sender.ringSize ∧
      ∃ y, log[sender.head - sender.ringSize]? = some y ∧
        sender.push x.1 x.2 = .ok ((sender.left y).bumped.stored sender.tail x)) := by
  have hpush : sender.push x.1 x.2 = (sender.bumped.dropExisted sender.tail).map
      fun sender' => sender'.stored sender.tail x := rfl
  rcases dropExisted_eq h with ⟨hlt, hok⟩ | ⟨hfull, y, hy, hok⟩
  · exact .inl ⟨hlt, by rw [hpush, hok]; rfl⟩
  · exact .inr ⟨hfull, y, hy, by rw [hpush, hok]; rfl⟩

theorem stored_pushes (sender : SenderShared) (pos : ℕ) (x : Pushed) :
    (sender.bumped.stored pos x).shared.mask = sender.shared.mask ∧
      (sender.bumped.stored pos x).tail = sender.tail + 1 ∧
      (sender.bumped.stored pos x).shared.tail = pos ∧
      (sender.bumped.stored pos x).head = sender.head := by
  simp [stored, storeTail, storeItem, bumped, Shared.setItem]

theorem left_fields (sender : SenderShared) (y : Pushed) :
    (sender.left y).shared.mask = sender.shared.mask ∧
    (sender.left y).shared.buffer = sender.shared.buffer ∧
    (sender.left y).tail = sender.tail ∧ (sender.left y).head = sender.head + 1 ∧
    (sender.left y).bytesTotal = sender.bytesTotal - y.size := by
  simp [left, advanceHead]

/-- A push succeeds and appends its message to the log. -/
theorem push_spec (h : sender.Inv log) (x : Pushed) :
    ∃ sender', sender.push x.1 x.2 = .ok sender' ∧ sender'.Inv (log ++ [x]) ∧
      Pushes sender sender' := by
  have hw := h.core.window
  have hN : 0 < sender.ringSize := Nat.succ_pos _
  rcases push_eq h.core x with ⟨hlt, hok⟩ | ⟨hfull, y, hy, hok⟩
  · obtain ⟨hm, ht, hst, hh⟩ := stored_pushes sender sender.tail x
    refine ⟨_, hok, ?_, hm, ht, hst, hh.ge⟩
    exact stored_inv h.core.mask hw le_rfl hw.head_le hlt (fun p hp hp' => by omega) h.core.bytes
      h.index x
  · obtain ⟨hm, ht, hst, hh⟩ := stored_pushes (sender.left y) sender.tail x
    obtain ⟨hlm, hlb, hlt, hlh, hbytes⟩ := left_fields sender y
    rw [hlm] at hm
    rw [hlt] at ht
    rw [hlh] at hh
    have hring : (sender.left y).ringSize = sender.ringSize := congrArg (· + 1) hlm
    have hcells : (sender.left y).cells = sender.cells := by
      ext i : 1
      rw [cells, cells, hlb]
    refine ⟨_, hok, ?_, hm, ht, hst, by omega⟩
    rw [← hlt]
    have hwl : Window (sender.left y).ringSize (sender.left y).cells sender.head
        (sender.left y).tail log := by
      rw [hring, hcells, hlt]
      exact hw
    refine stored_inv ?_ hwl (by omega) (by omega) (by omega) ?_ ?_ ?_ x
    · rw [hlm]
      exact h.core.mask
    · intro p hp hp'
      omega
    · rw [hbytes, hring, hlh, h.core.bytes, weightFrom_eq_add hy,
        show sender.head + 1 - sender.ringSize = sender.head - sender.ringSize + 1 by
          have := hw.base_le
          omega]
      omega
    · rw [hring, hlh, hlt]
      refine h.index.evict hy (fun s p hs => ?_) ?_
      · rw [left, headOf_forget] at hs
        split at hs
        · cases hs
        · exact hs
      · rw [left, headOf_forget, if_pos rfl]

/-- With nothing retained, no bytes are counted. -/
theorem Core.bytes_of_empty (h : sender.Core log) (hle : sender.tail ≤ sender.head) :
    sender.bytesTotal = 0 := by
  have hh := le_antisymm h.window.head_le hle
  rw [h.bytes, hh, h.window.tail_eq, Nat.add_sub_cancel_left, weightFrom_length]

theorem dropBytes_of_le {bytesMax n : ℕ} (hle : sender.bytesTotal ≤ bytesMax) :
    dropBytes bytesMax n sender = .ok sender := by
  cases n <;> rw [dropBytes, if_neg (by omega)]

/-- The loop over extra bytes ends below the limit. It evicts exactly the
messages from which on too many bytes are retained. -/
theorem dropBytes_spec (h : sender.Inv log) (bytesMax : ℕ) {n : ℕ}
    (hn : sender.tail - sender.head ≤ n) :
    ∃ sender', dropBytes bytesMax n sender = .ok sender' ∧
      Relation.ReflTransGen (Evict log) sender sender' ∧ sender'.bytesTotal ≤ bytesMax ∧
      ∀ p, sender.head ≤ p → p < sender'.head →
        bytesMax < weightFrom Pushed.size log (p - sender.ringSize) := by
  induction n generalizing sender with
  | zero =>
    have hz := h.core.bytes_of_empty (by omega)
    exact ⟨sender, dropBytes_of_le (by omega), .refl, by omega, fun p hp hp' => by omega⟩
  | succ n ih =>
    by_cases hgt : sender.bytesTotal ≤ bytesMax
    · exact ⟨sender, dropBytes_of_le hgt, .refl, hgt, fun p hp hp' => by omega⟩
    · have hlt : sender.head < sender.tail := by
        by_contra hge
        have := h.core.bytes_of_empty (by omega)
        omega
      obtain ⟨x, hx, hslot, he⟩ := evictHead_eq h.core hlt .bytesNothing
      have hstep := Evict.intro x hlt hx
      have hf := hstep.evicts
      have hhead : ((sender.evicted x).forget x.1).head = sender.head + 1 := by
        rw [forget_head]
        rfl
      have hn' :
          ((sender.evicted x).forget x.1).tail - ((sender.evicted x).forget x.1).head ≤ n := by
        rw [hf.tail, hhead]
        omega
      obtain ⟨sender', hok, hev, hle, hall⟩ := ih (hstep.inv h) hn'
      refine ⟨sender', ?_, .head hstep hev, hle, fun p hp hp' => ?_⟩
      · rw [dropBytes, if_pos (by omega), if_pos hlt]
        simp only [hslot, he]
        exact hok
      · rcases Nat.eq_or_lt_of_le hp with rfl | hgt'
        · rw [← h.core.bytes]
          omega
        · have := hall p (by omega) hp'
          rwa [hf.ringSize] at this

-- ════════════════════════════════════════════════════════════════════════
-- Extra slots
-- ════════════════════════════════════════════════════════════════════════

/-- Everything before the removed slot's first message is evicted. -/
theorem dropUpTo_spec {slotHead n : ℕ} (h : sender.Inv log) (hle : slotHead ≤ sender.tail)
    (hn : slotHead - sender.head ≤ n) :
    ∃ sender', dropUpTo slotHead n sender = .ok sender' ∧ Evictions log sender sender' ∧
      sender'.head = max sender.head slotHead := by
  induction n generalizing sender with
  | zero => exact ⟨sender, rfl, .refl, by omega⟩
  | succ n ih =>
    rw [dropUpTo]
    by_cases hlt : sender.head < slotHead
    · have htail : sender.head < sender.tail := by omega
      obtain ⟨x, hx, hslot, he⟩ := evictHead_eq h.core htail .slotsNothing2
      have hstep := Evict.intro x htail hx
      have hf := hstep.evicts
      have hhead : ((sender.evicted x).forget x.1).head = sender.head + 1 := by
        rw [forget_head]
        rfl
      obtain ⟨sender', hok, hev, hmax⟩ := ih (hstep.inv h) (by rwa [hf.tail]) (by omega)
      rw [if_pos hlt, if_pos htail]
      simp only [hslot, he]
      exact ⟨sender', hok, .head (.message _ hstep) hev, by omega⟩
    · rw [if_neg hlt]
      exact ⟨sender, rfl, .refl, by omega⟩

/-- Messages of one slot are evicted until another slot's message is met; the
assertion fails if there is none. -/
theorem dropSame_spec {slotMin : Slot} {n : ℕ} (h : sender.Inv log)
    (hslot : slotMin ∉ sender.slots) (hn : sender.tail - sender.head ≤ n) :
    (∃ sender', dropSame slotMin n sender = .ok sender' ∧ Evictions log sender sender' ∧
      ∃ p x, sender.head ≤ p ∧ p < sender.tail ∧ log[p - sender.ringSize]? = some x ∧
        x.1 ≠ slotMin) ∨
    (∃ sender', dropSame slotMin n sender = .error ⟨.slotsOverflow2, sender'⟩ ∧
      ∀ p x, sender.head ≤ p → p < sender.tail → log[p - sender.ringSize]? = some x →
        x.1 = slotMin) := by
  induction n generalizing sender with
  | zero => exact .inr ⟨sender, rfl, fun p x hp hp' _ => by omega⟩
  | succ n ih =>
    rw [dropSame]
    by_cases htail : sender.head < sender.tail
    · rw [if_pos htail]
      obtain ⟨x, hx, hxs, he⟩ := evictHead_eq h.core htail .slotsNothing3
      by_cases hne : slotMin ≠ x.1
      · rw [hxs, if_pos hne]
        exact .inl ⟨sender, rfl, .refl, _, x, le_rfl, htail, hx, hne.symm⟩
      · -- its slot has no entry left, so taking the message is an eviction
        have hforget : (sender.evicted x).forget x.1 = sender.evicted x := by
          rw [forget, if_neg]
          rwa [← not_not.mp hne]
        have hstep := Evict.intro x htail hx
        rw [hforget] at hstep
        rw [hxs, if_neg hne, he]
        have hn' : (sender.evicted x).tail - (sender.evicted x).head ≤ n :=
          show sender.tail - (sender.head + 1) ≤ n by omega
        rcases ih (hstep.inv h) hslot hn' with
          ⟨sender', hok, hev, p, y, hp, hp', hy, hys⟩ | ⟨sender', herr, hall⟩
        · exact .inl ⟨sender', hok, .head (.message _ hstep) hev, p, y, (Nat.le_succ _).trans hp,
            hp', hy, hys⟩
        · refine .inr ⟨sender', herr, fun p y hp hp' hy => ?_⟩
          rcases Nat.eq_or_lt_of_le hp with rfl | hgt
          · rw [hx] at hy
            rw [← Option.some.inj hy, not_not.mp hne]
          · exact hall p y hgt hp' hy
    · rw [if_neg htail]
      exact .inr ⟨sender, rfl, fun p x hp hp' _ => by omega⟩

/-- From `p` on, a message of another slot is retained. -/
def OtherFrom (sender : SenderShared) (log : List Pushed) (slot : Slot) (p : ℕ) : Prop :=
  ∃ q x, p ≤ q ∧ q < sender.tail ∧ log[q - sender.ringSize]? = some x ∧ x.1 ≠ slot

/-- Removing one slot fails exactly if no other slot's message follows the
removed slot's first one. -/
theorem dropSlot_spec {slotMin : Slot} {slotHead : ℕ} (h : sender.Inv log)
    (hslot : slotMin ∉ sender.slots) (hhead : sender.head ≤ slotHead)
    (hle : slotHead ≤ sender.tail) :
    (∃ sender', dropSlot slotMin slotHead sender = .ok sender' ∧ Evictions log sender sender' ∧
      sender.OtherFrom log slotMin slotHead) ∨
    (∃ sender', dropSlot slotMin slotHead sender = .error ⟨.slotsOverflow2, sender'⟩ ∧
      ¬sender.OtherFrom log slotMin slotHead) := by
  obtain ⟨s₁, hrun₁, hev₁, hmax⟩ := dropUpTo_spec h hle le_rfl
  rw [max_eq_right hhead] at hmax
  have hf := hev₁.evicts
  rw [dropSlot, hrun₁]
  rcases dropSame_spec (hev₁.inv h) (fun hm => hslot (hf.slots.mem hm)) le_rfl with
    ⟨s₂, hrun₂, hev₂, p, x, hp, hp', hx, hxs⟩ | ⟨s₂, hrun₂, hall⟩
  · rw [hmax] at hp
    rw [hf.tail] at hp'
    rw [hf.ringSize] at hx
    exact .inl ⟨s₂, hrun₂, hev₁.trans hev₂, p, x, hp, hp', hx, hxs⟩
  · refine .inr ⟨s₂, hrun₂, ?_⟩
    rintro ⟨p, x, hp, hp', hx, hxs⟩
    rw [hmax, hf.tail, hf.ringSize] at hall
    exact hxs (hall p x hp hp' hx)

/-- One iteration of the loop over extra slots. -/
theorem dropSlots_succ (h : sender.Inv log) {slotsMax n : ℕ}
    (hlt : slotsMax < sender.slots.len) : ∃ slotMin p, headOf sender.slots slotMin = some p ∧
      (∀ k ∈ sender.slots, slotMin ≤ k) ∧
      ((∃ sender', dropSlots slotsMax (n + 1) sender = dropSlots slotsMax n sender' ∧
          Evictions log sender sender' ∧ sender'.slots.len < sender.slots.len ∧
          sender.OtherFrom log slotMin p) ∨
        (∃ sender', dropSlots slotsMax (n + 1) sender = .error ⟨.slotsOverflow2, sender'⟩ ∧
          ¬sender.OtherFrom log slotMin p)) := by
  obtain ⟨slotMin, info, hpop, hlook, hmin⟩ :=
    Finmap.popFirst_of_pos (show 0 < sender.slots.len by omega)
  have hmem : slotMin ∈ sender.slots := Finmap.mem_iff.mpr ⟨info, hlook⟩
  have hhead : headOf sender.slots slotMin = some info.head := by
    rw [headOf, hlook]
    rfl
  obtain ⟨hle, htail, -⟩ := h.index slotMin info.head hhead
  refine ⟨slotMin, info.head, hhead, hmin, ?_⟩
  have hstep : EvictStep log sender { sender with slots := sender.slots.erase slotMin } :=
    .slot slotMin
  have hrun : dropSlots slotsMax (n + 1) sender =
      dropSlot slotMin info.head { sender with slots := sender.slots.erase slotMin } >>=
        dropSlots slotsMax n := by
    rw [dropSlots, if_pos hlt, hpop]
  have hlen := Finmap.len_erase_of_mem hmem
  have hnot : slotMin ∉ sender.slots.erase slotMin := Finmap.notMem_erase_self
  rcases dropSlot_spec (hstep.inv h) hnot hle htail.le with
    ⟨sender', hok, hev, hother⟩ | ⟨sender', herr, hother⟩
  · refine .inl ⟨sender', by rw [hrun, hok]; rfl, .head hstep hev, ?_, hother⟩
    have hsub : sender'.slots.len ≤ (sender.slots.erase slotMin).len := hev.evicts.slots.len_le
    omega
  · exact .inr ⟨sender', by rw [hrun, herr]; rfl, hother⟩

theorem dropSlots_of_le {slotsMax n : ℕ} (hle : sender.slots.len ≤ slotsMax) :
    dropSlots slotsMax n sender = .ok sender := by
  cases n with
  | zero => rfl
  | succ n => rw [dropSlots, if_neg (by omega)]

/-- The loop over extra slots ends below the limit or fails its assertion. -/
theorem dropSlots_spec (h : sender.Inv log) {slotsMax n : ℕ} (hn : sender.slots.len ≤ n) :
    (∃ sender', dropSlots slotsMax n sender = .ok sender' ∧ Evictions log sender sender' ∧
      sender'.slots.len ≤ slotsMax) ∨
    (∃ sender', dropSlots slotsMax n sender = .error ⟨.slotsOverflow2, sender'⟩) := by
  induction n generalizing sender with
  | zero => exact .inl ⟨sender, rfl, .refl, by omega⟩
  | succ n ih =>
    by_cases hle : sender.slots.len ≤ slotsMax
    · exact .inl ⟨sender, dropSlots_of_le hle, .refl, hle⟩
    · obtain ⟨_, _, -, -, hcase⟩ := dropSlots_succ h (n := n) (show slotsMax < _ by omega)
      rcases hcase with ⟨s₁, hrun, hev, hlen, -⟩ | ⟨s₁, hrun, -⟩
      · rcases ih (hev.inv h) (by omega) with ⟨sender', hok, hev', hle'⟩ | ⟨sender', herr⟩
        · exact .inl ⟨sender', by rw [hrun, hok], hev.trans hev', hle'⟩
        · exact .inr ⟨sender', by rw [hrun, herr]⟩
      · exact .inr ⟨s₁, hrun⟩

/-- `try_clear` keeps both limits, or fails the assertion of the slots loop. -/
theorem tryClear_spec (h : sender.Inv log) (bytesMax slotsMax : ℕ) :
    (∃ sender', sender.tryClear bytesMax slotsMax = .ok sender' ∧ Evictions log sender sender' ∧
      sender'.bytesTotal ≤ bytesMax ∧ sender'.slots.len ≤ slotsMax) ∨
    (∃ sender', sender.tryClear bytesMax slotsMax = .error ⟨.slotsOverflow2, sender'⟩) := by
  obtain ⟨s₁, hrun₁, hev₁, hbytes, -⟩ := dropBytes_spec h bytesMax le_rfl
  have hev₁' := evictions_of_evict hev₁
  rw [tryClear, hrun₁]
  rcases dropSlots_spec (hev₁'.inv h) le_rfl with ⟨s₂, hrun₂, hev₂, hlen⟩ | ⟨s₂, hrun₂⟩
  · exact .inl ⟨s₂, hrun₂, hev₁'.trans hev₂, hev₂.evicts.bytes.trans hbytes, hlen⟩
  · exact .inr ⟨s₂, hrun₂⟩

end SenderShared

end Dragonmouth.Richat
