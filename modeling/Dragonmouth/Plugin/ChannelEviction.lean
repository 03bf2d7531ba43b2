import Mathlib.Logic.Relation
import Dragonmouth.Plugin.Channel

/-!
# What an eviction does to the channel

The loops of `push_msg` evict messages one at a time. While a message is being pushed, the
entry of its slot may already point at the position the message will get, so
the slot index is stated over the log that ends with the new message.

## Main definitions

- `Shared.Core`: cells, head, tail and bytes agree with the log of the channel
- `Shared.Pushing`: the invariant inside a push of a given message
- `Shared.Evictions`: the steps all eviction loops are made of
- `Shared.Evicts`: what evictions leave unchanged
-/

namespace Dragonmouth.Plugin

open RingLog

/-- A message as its cell keeps it: slot, kind and bytes. -/
abbrev Stored := Slot × PluginNotification × RecvItem

/-- The bytes a stored message accounts for. -/
def Stored.size (x : Stored) : ℕ := x.2.2.length

/-- What a cell holds, with its stamp. -/
def Item.cell (item : Item) : Cell Stored := ⟨item.pos, item.data.map fun d => (item.slot, d)⟩

theorem CellWrite.cell_take (item : Item) (p : ℕ) :
    ((take p).apply item).cell = ⟨item.pos, none⟩ := rfl

/-- The first position of every indexed slot. -/
def headOf (slots : OrderedMap Slot SlotInfo) (s : Slot) : Option ℕ :=
  (slots.lookup s).map SlotInfo.head

theorem headOf_sub {slots slots' : OrderedMap Slot SlotInfo} (h : slots'.Sub slots) {s : Slot}
    {p : ℕ} (hp : headOf slots' s = some p) : headOf slots s = some p := by
  obtain ⟨info, hinfo, rfl⟩ := Option.map_eq_some_iff.mp hp
  rw [headOf, h s info hinfo]
  rfl

theorem headOf_eq_none {slots : OrderedMap Slot SlotInfo} {s : Slot} :
    headOf slots s = none ↔ s ∉ slots := by
  rw [headOf, Option.map_eq_none_iff, Finmap.lookup_eq_none]

/-- The loop leaves the keys over the bound. -/
theorem removeSlotsLoop_keeps {upto k : Slot} (hk : ¬k ≤ upto) (n : ℕ) (slot : Slot)
    (slots : OrderedMap Slot SlotInfo) :
    (removeSlotsLoop upto n slot slots).lookup k = slots.lookup k := by
  induction n generalizing slot slots with
  | zero => rfl
  | succ n ih =>
    rw [removeSlotsLoop]
    split
    · rename_i hle
      have hkeep : (slots.erase slot).lookup k = slots.lookup k :=
        Finmap.lookup_erase_ne fun he => hk (he ▸ hle)
      cases hf : (slots.erase slot).firstKey with
      | none =>
        simp only [hf]
        exact hkeep
      | some first =>
        simp only [hf]
        exact (ih first _).trans hkeep
    · rfl

/-- A key that is removed is one less to come. -/
theorem len_erase_le {slots : OrderedMap Slot SlotInfo} {slot : Slot} {n : ℕ}
    (hn : slots.len + (if slot ∈ slots then 0 else 1) ≤ n + 1) : (slots.erase slot).len ≤ n := by
  by_cases hs : slot ∈ slots
  · have := Finmap.len_erase_of_mem hs
    rw [if_pos hs] at hn
    omega
  · have := (Finmap.Sub.erase slots slot).len_le
    rw [if_neg hs] at hn
    omega

/-- Once it starts, the loop removes the keys up to the bound. -/
theorem removeSlotsLoop_removes {upto k : Slot} (hk : k ≤ upto) {n : ℕ} {slot : Slot}
    {slots : OrderedMap Slot SlotInfo} (hle : slot ≤ upto)
    (hn : slots.len + (if slot ∈ slots then 0 else 1) ≤ n) :
    (removeSlotsLoop upto n slot slots).lookup k = none := by
  induction n generalizing slot slots with
  | zero =>
    by_cases hm : slot ∈ slots
    · have hpos : 0 < slots.len := Finmap.len_pos_iff.mpr ⟨slot, hm⟩
      omega
    · rw [if_neg hm] at hn
      omega
  | succ n ih =>
    rw [removeSlotsLoop, if_pos hle]
    cases hf : (slots.erase slot).firstKey with
    | none =>
      simp only [hf]
      exact Finmap.lookup_eq_none.mpr (Finmap.notMem_of_firstKey hf k)
    | some first =>
      have hmem : first ∈ slots.erase slot := Finmap.mem_of_firstKey hf
      simp only [hf]
      by_cases hfirst : first ≤ upto
      · exact ih hfirst (by simpa [hmem] using len_erase_le hn)
      · have hstop : removeSlotsLoop upto n first (slots.erase slot) = slots.erase slot := by
          cases n with
          | zero => rfl
          | succ n => rw [removeSlotsLoop, if_neg hfirst]
        rw [hstop, Finmap.lookup_eq_none]
        intro hmem'
        exact hfirst ((Finmap.firstKey_le hf hmem').trans hk)

/-- The loop removes exactly the keys up to the bound once it starts. -/
theorem removeSlotsLoop_lookup (upto : Slot) {n : ℕ} {slot : Slot}
    {slots : OrderedMap Slot SlotInfo} (hle : slot ≤ upto)
    (hn : slots.len + (if slot ∈ slots then 0 else 1) ≤ n) (k : Slot) :
    (removeSlotsLoop upto n slot slots).lookup k =
      if k ≤ upto then none else slots.lookup k := by
  by_cases hk : k ≤ upto
  · rw [if_pos hk]
    exact removeSlotsLoop_removes hk hle hn
  · rw [if_neg hk]
    exact removeSlotsLoop_keeps hk n slot slots

/-- Without a first slot, every slot up to the bound is removed. -/
theorem removeSlots_none_lookup (slots : OrderedMap Slot SlotInfo) (upto k : Slot) :
    (removeSlots slots none upto).lookup k = if k ≤ upto then none else slots.lookup k := by
  have hnone : (∀ j ∈ slots, ¬j ≤ upto) →
      slots.lookup k = if k ≤ upto then none else slots.lookup k := by
    intro h
    split
    · rename_i hk
      exact Finmap.lookup_eq_none.mpr fun hm => h k hm hk
    · rfl
  cases hf : slots.firstKey with
  | none =>
    have hfirst : (none <|> slots.firstKey) = none := hf
    rw [removeSlots, hfirst]
    exact hnone fun j hj _ => Finmap.notMem_of_firstKey hf j hj
  | some first =>
    have hfirst : (none <|> slots.firstKey) = some first := hf
    rw [removeSlots, hfirst]
    change (removeSlotsLoop upto (slots.len + 1) first slots).lookup k = _
    have hmem := Finmap.mem_of_firstKey hf
    by_cases hle : first ≤ upto
    · exact removeSlotsLoop_lookup upto hle (by simp [hmem]) k
    · rw [removeSlotsLoop, if_neg hle]
      exact hnone fun j hj hj' => hle ((Finmap.firstKey_le hf hj).trans hj')

/-- With a first slot, the slots up to the bound are removed if it is among them. -/
theorem removeSlots_some_lookup (slots : OrderedMap Slot SlotInfo) (first upto k : Slot) :
    (removeSlots slots (some first) upto).lookup k =
      if first ≤ upto ∧ k ≤ upto then none else slots.lookup k := by
  change (removeSlotsLoop upto (slots.len + 1) first slots).lookup k = _
  by_cases hle : first ≤ upto
  · rw [removeSlotsLoop_lookup upto hle (by split <;> omega) k]
    simp [hle]
  · rw [removeSlotsLoop, if_neg hle, if_neg fun h => hle h.1]

theorem removeSlots_sub (slots : OrderedMap Slot SlotInfo) (first : Option Slot) (upto : Slot) :
    (removeSlots slots first upto).Sub slots := by
  intro k info h
  cases first with
  | none =>
    rw [removeSlots_none_lookup] at h
    split at h
    · cases h
    · exact h
  | some first =>
    rw [removeSlots_some_lookup] at h
    split at h
    · cases h
    · exact h

-- ════════════════════════════════════════════════════════════════════════
-- The invariant of a push
-- ════════════════════════════════════════════════════════════════════════

namespace Shared

variable {sh sh' : Shared} {log : List Stored} {x : Stored} {pending : ℕ}

/-- The number of cells. -/
def ringSize (sh : Shared) : ℕ := sh.mask + 1

def cells (sh : Shared) (i : ℕ) : Cell Stored := (sh.buffer i).cell

/-- Cells, head, tail and bytes agree with the log; `pending` bytes have been
counted for a message that is not stored yet. -/
structure Core (sh : Shared) (log : List Stored) (pending : ℕ) : Prop where
  mask : ∃ k, sh.mask + 1 = 2 ^ k
  window : Window sh.ringSize sh.cells sh.state.head sh.state.tail log
  bytes : sh.state.bytesTotal =
    pending + weightFrom Stored.size log (sh.state.head - sh.ringSize)

/-- Every indexed slot points at one of its own messages from `head` to `tail`. -/
def Indexed (sh : Shared) (tail : ℕ) (log : List Stored) : Prop :=
  Indexes sh.ringSize sh.state.head tail log Prod.fst (headOf sh.state.slots)

/-- The invariant while `x` is being pushed. -/
structure Pushing (sh : Shared) (log : List Stored) (x : Stored) (pending : ℕ) : Prop where
  core : sh.Core log pending
  index : sh.Indexed (sh.state.tail + 1) (log ++ [x])

/-- Evicting messages moves the head, forgets slots and takes messages out of
their cells. -/
structure Evicts (sh sh' : Shared) : Prop where
  mask : sh'.mask = sh.mask
  tail : sh'.state.tail = sh.state.tail
  slotsMax : sh'.state.slotsMax = sh.state.slotsMax
  bytesMax : sh'.state.bytesMax = sh.state.bytesMax
  wakers : sh'.state.wakers = sh.state.wakers
  head : sh.state.head ≤ sh'.state.head
  slots : sh'.state.slots.Sub sh.state.slots
  writes : ∃ ps : List ℕ, sh'.writes = sh.writes ++ ps.map CellWrite.take ∧
    sh'.buffer = (ps.map CellWrite.take).foldl (writeItem sh.mask) sh.buffer

theorem Evicts.refl (sh : Shared) : Evicts sh sh :=
  ⟨rfl, rfl, rfl, rfl, rfl, le_rfl, Finmap.Sub.refl _, [], by simp, rfl⟩

theorem Evicts.trans {sh₁ sh₂ sh₃ : Shared} (h : Evicts sh₁ sh₂) (h' : Evicts sh₂ sh₃) :
    Evicts sh₁ sh₃ := by
  obtain ⟨ps, hps, hbuf⟩ := h.writes
  obtain ⟨qs, hqs, hbuf'⟩ := h'.writes
  refine ⟨h'.mask.trans h.mask, h'.tail.trans h.tail, h'.slotsMax.trans h.slotsMax,
    h'.bytesMax.trans h.bytesMax, h'.wakers.trans h.wakers, h.head.trans h'.head,
    h'.slots.trans h.slots, ps ++ qs, ?_, ?_⟩
  · rw [hqs, hps, List.map_append, List.append_assoc]
  · rw [hbuf', hbuf, h.mask, List.map_append, List.foldl_append]

/-- In terms of cells, a write updates the cell of its position. -/
theorem cells_write (sh : Shared) (w : CellWrite) : (sh.write w).cells =
    Function.update sh.cells (sh.getIdx w.pos) (w.apply (sh.buffer (sh.getIdx w.pos))).cell := by
  funext i
  by_cases hi : i = sh.getIdx w.pos
  · subst i
    rw [Function.update_self]
    change (writeItem sh.mask sh.buffer w (w.pos &&& sh.mask)).cell = _
    rw [writeItem, Function.update_self]
    rfl
  · rw [Function.update_of_ne hi]
    change (writeItem sh.mask sh.buffer w i).cell = _
    rw [writeItem, Function.update_of_ne (show i ≠ w.pos &&& sh.mask from hi)]
    rfl

theorem Core.getIdx (h : sh.Core log pending) (p : ℕ) : sh.getIdx p = p % sh.ringSize := by
  obtain ⟨k, hk⟩ := h.mask
  exact and_mask_eq_mod hk p

/-- The item of a retained position holds its message. -/
theorem Core.item (h : sh.Core log pending) {p : ℕ} (hp : sh.state.head ≤ p)
    (hp' : p < sh.state.tail) : ∃ x, log[p - sh.ringSize]? = some x ∧
      (sh.buffer (sh.getIdx p)).pos = p ∧ (sh.buffer (sh.getIdx p)).slot = x.1 ∧
      (sh.buffer (sh.getIdx p)).data = some x.2 := by
  obtain ⟨x, hx, hc⟩ := h.window.held hp hp'
  rw [← h.getIdx, cells, Item.cell, Cell.mk.injEq, Option.map_eq_some_iff] at hc
  obtain ⟨hpos, d, hd, rfl⟩ := hc
  exact ⟨_, hx, hpos, rfl, hd⟩

/-- The channel after the message `x` at `head` has been evicted. -/
def evicted (sh : Shared) (x : Stored) (slots : OrderedMap Slot SlotInfo) : Shared :=
  let sh := (sh.write (.take sh.state.head)).advanceHead (fun _ _ => slots) x.1
  { sh with state := { sh.state with bytesTotal := sh.state.bytesTotal - x.size } }

/-- The channel after slots have been forgotten. -/
def withSlots (sh : Shared) (slots : OrderedMap Slot SlotInfo) : Shared :=
  { sh with state := { sh.state with slots := slots } }

/-- What the eviction loops do to the channel, one message or slot at a time. -/
inductive EvictStep (log : List Stored) (sh : Shared) : Shared → Prop where
  | message (x : Stored) (slots : OrderedMap Slot SlotInfo)
      (nonempty : sh.state.head < sh.state.tail)
      (oldest : log[sh.state.head - sh.ringSize]? = some x)
      (sub : slots.Sub sh.state.slots)
      (forgotten : x.1 ∉ slots) : EvictStep log sh (sh.evicted x slots)
  | slot (slots : OrderedMap Slot SlotInfo) (sub : slots.Sub sh.state.slots) :
      EvictStep log sh (sh.withSlots slots)

/-- Any number of evictions. -/
abbrev Evictions (log : List Stored) : Shared → Shared → Prop :=
  Relation.ReflTransGen (EvictStep log)

theorem subBytes_of_le {len : ℕ} (h : len ≤ sh.state.bytesTotal) :
    sh.subBytes len =
      .ok { sh with state := { sh.state with bytesTotal := sh.state.bytesTotal - len } } := by
  rw [subBytes, if_neg (Nat.not_lt.mpr h)]

/-- With a message at `head`, an eviction succeeds. -/
theorem evictHead_eq (h : sh.Core log pending) (hlt : sh.state.head < sh.state.tail)
    (onEmpty : Panic)
    (forget : Slot → OrderedMap Slot SlotInfo → OrderedMap Slot SlotInfo) :
    ∃ x, log[sh.state.head - sh.ringSize]? = some x ∧
      (sh.buffer (sh.getIdx sh.state.head)).slot = x.1 ∧
      sh.evictHead onEmpty forget = .ok (sh.evicted x (forget x.1 sh.state.slots)) := by
  obtain ⟨x, hx, -, hslot, hdata⟩ := h.item le_rfl hlt
  refine ⟨x, hx, hslot, ?_⟩
  have hle : x.size ≤ sh.state.bytesTotal := by
    rw [h.bytes, weightFrom_eq_add hx]
    omega
  simp only [evictHead, hdata, hslot]
  exact subBytes_of_le hle

theorem Core.evicted (h : sh.Core log pending) (hlt : sh.state.head < sh.state.tail)
    (hx : log[sh.state.head - sh.ringSize]? = some x) (slots : OrderedMap Slot SlotInfo) :
    (sh.evicted x slots).Core log pending := by
  have hb := h.window.base_le
  refine ⟨h.mask, ?_, ?_⟩
  · obtain ⟨y, -, hpos, -, -⟩ := h.item le_rfl hlt
    have hcells := cells_write sh (.take sh.state.head)
    simp only [CellWrite.pos, CellWrite.cell_take, hpos] at hcells
    have hw := h.window.evict hlt
    rw [← h.getIdx, ← hcells] at hw
    exact hw
  · have hs : sh.state.head + 1 - sh.ringSize = sh.state.head - sh.ringSize + 1 := by omega
    change sh.state.bytesTotal - x.size =
      pending + weightFrom Stored.size log (sh.state.head + 1 - sh.ringSize)
    rw [h.bytes, weightFrom_eq_add hx, hs]
    omega

theorem EvictStep.core (h : EvictStep log sh sh') (hc : sh.Core log pending) :
    sh'.Core log pending := by
  cases h with
  | message x slots hlt hx _ _ => exact hc.evicted hlt hx slots
  | slot slots _ => exact ⟨hc.mask, hc.window, hc.bytes⟩

/-- Evictions keep cells, head, tail and bytes in agreement with the log. -/
theorem Evictions.core (h : Evictions log sh sh') (hc : sh.Core log pending) :
    sh'.Core log pending := by
  induction h with
  | refl => exact hc
  | tail _ hstep ih => exact hstep.core ih

theorem EvictStep.pushing (h : EvictStep log sh sh') (hp : sh.Pushing log x pending) :
    sh'.Pushing log x pending := by
  refine ⟨h.core hp.core, ?_⟩
  cases h with
  | message y slots hlt hy hsub hkey =>
    have hy' : (log ++ [x])[sh.state.head - sh.ringSize]? = some y := by
      rw [List.getElem?_append_left (List.getElem?_eq_some_iff.mp hy).1, hy]
    exact hp.index.evict hy' (fun _ _ hs => headOf_sub hsub hs) (headOf_eq_none.mpr hkey)
  | slot slots hsub => exact fun s p hs => hp.index s p (headOf_sub hsub hs)

/-- Evictions keep the index correct. -/
theorem Evictions.pushing (h : Evictions log sh sh') (hp : sh.Pushing log x pending) :
    sh'.Pushing log x pending := by
  induction h with
  | refl => exact hp
  | tail _ hstep ih => exact hstep.pushing ih

theorem EvictStep.evicts (h : EvictStep log sh sh') : sh.Evicts sh' := by
  cases h with
  | message y slots _ _ hsub _ =>
    exact ⟨rfl, rfl, rfl, rfl, rfl, Nat.le_succ _, hsub, [sh.state.head], rfl, rfl⟩
  | slot slots hsub =>
    exact ⟨rfl, rfl, rfl, rfl, rfl, le_rfl, hsub, [], by simp [withSlots], rfl⟩

/-- Evictions change nothing but the head, the slots, the bytes and the cells. -/
theorem Evictions.evicts (h : Evictions log sh sh') : sh.Evicts sh' := by
  induction h with
  | refl => exact Evicts.refl sh
  | tail _ hstep ih => exact ih.trans hstep.evicts

end Shared

end Dragonmouth.Plugin
