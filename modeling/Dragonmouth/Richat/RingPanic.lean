import Dragonmouth.Richat.RingIndex
import Dragonmouth.Richat.RingRetained

/-!
# When clearing after a push panics

The loop over extra slots removes the least slot, whatever its place in the ring.
If that is the slot just pushed, its message is the newest one and nothing stops
the removal before the tail. A run of pushes, each followed by a clearing,
returns exactly if that never happens.

## Main definitions

- `SenderShared.pushCleared`, `SenderShared.drive`: pushes followed by clearings
- `SenderShared.RoomFor`: the condition on the ring before a push
- `SenderShared.RoomForAll`: the condition along a run
-/

namespace Dragonmouth.Richat

open RingLog

namespace SenderShared

variable {sender sender' s₁ s₂ : SenderShared} {log : List Pushed} {x : Pushed}
  {bytesMax slotsMax : ℕ}

/-- Push a message and keep the limits. -/
def pushCleared (bytesMax slotsMax : ℕ) (sender : SenderShared) (x : Pushed) : Outcome := do
  let sender ← sender.push x.1 x.2
  sender.tryClear bytesMax slotsMax

/-- Push messages one after the other, keeping the limits after each. -/
def drive (bytesMax slotsMax : ℕ) : SenderShared → List Pushed → Outcome
  | sender, [] => .ok sender
  | sender, x :: xs => do
    let sender ← sender.pushCleared bytesMax slotsMax x
    drive bytesMax slotsMax sender xs

/-- Pushing the message makes room for it in the index: an entry goes because a
message of its slot is overwritten or exceeds the bytes. -/
def Unindexes (sender : SenderShared) (bytesMax : ℕ) (x : Pushed) : Prop :=
  ∃ p, sender.head ≤ p ∧ p < sender.tail ∧
    if p = sender.head ∧ sender.tail = sender.head + sender.ringSize then
      (sender.shared.item p).slot ∈ sender.slots
    else bytesMax < sender.bytesFrom p + x.size ∧
      ((sender.shared.item p).slot ∈ sender.slots ∨ (sender.shared.item p).slot = x.1)

/-- There is room for the message: its slot is indexed, or the index is not full,
or an indexed slot is below it, or it does not fit into the bytes, or an entry
goes for it. -/
def RoomFor (sender : SenderShared) (bytesMax slotsMax : ℕ) (x : Pushed) : Prop :=
  x.1 ∈ sender.slots ∨ sender.slots.len < slotsMax ∨ (∃ k ∈ sender.slots, k < x.1) ∨
    bytesMax < x.size ∨ sender.Unindexes bytesMax x

/-- There is room for every message of a run when its turn comes. -/
def RoomForAll (bytesMax slotsMax : ℕ) : SenderShared → List Pushed → Prop
  | _, [] => True
  | sender, x :: xs => sender.RoomFor bytesMax slotsMax x ∧
      ∀ sender', sender.pushCleared bytesMax slotsMax x = .ok sender' →
        RoomForAll bytesMax slotsMax sender' xs

/-- The ring after a push and the loop over extra bytes, in terms of the ring
before. -/
structure Trimmed (sender : SenderShared) (log : List Pushed) (bytesMax : ℕ) (x : Pushed)
    (s₂ : SenderShared) : Prop where
  inv : s₂.Inv (log ++ [x])
  ringSize : s₂.ringSize = sender.ringSize
  tail : s₂.tail = sender.tail + 1
  /-- Entries are kept but for those of the messages that go. -/
  mem : ∀ k, k ∈ s₂.slots ↔ (k = x.1 ∨ k ∈ sender.slots ∧ ¬sender.Overwrites k) ∧
    ∀ p y, sender.head ≤ p → p < s₂.tail →
      ¬(p = sender.head ∧ sender.tail = sender.head + sender.ringSize) →
      bytesMax < weightFrom Pushed.size (log ++ [x]) (p - sender.ringSize) →
      (log ++ [x])[p - sender.ringSize]? = some y → y.1 ≠ k
  /-- A new entry is at the position of the message. -/
  head : x.1 ∉ sender.slots → x.1 ∈ s₂.slots → headOf s₂.slots x.1 = some sender.tail

theorem push_trimmed (h : sender.Inv log) (bytesMax : ℕ) (x : Pushed) :
    ∃ s₂, sender.Trimmed log bytesMax x s₂ ∧ ∀ slotsMax,
      sender.pushCleared bytesMax slotsMax x = dropSlots slotsMax s₂.slots.len s₂ := by
  obtain ⟨s₁, hrun₁, hinv₁, hp⟩ := push_spec h x
  obtain ⟨s₂, hrun₂, hev, hiff⟩ := dropBytes_weight hinv₁ bytesMax
  have hring₁ : s₁.ringSize = sender.ringSize := congrArg (· + 1) hp.mask
  have hevs := evictions_of_evict hev
  have hinv₂ := hevs.inv hinv₁
  have hring₂ := hevs.evicts.ringSize.trans hring₁
  have hhead := push_head h.core hrun₁
  have hN : 0 < sender.ringSize := Nat.succ_pos _
  have hslots := push_mem_slots h.core hrun₁
  rw [hring₁] at hiff
  refine ⟨s₂, ⟨hinv₂, hring₂, hevs.evicts.tail.trans hp.tail, fun k => ?_, fun hnew hin => ?_⟩,
    fun slotsMax => ?_⟩
  · rw [evict_mem_slots hev, hring₁, hevs.evicts.tail]
    have hmem : k ∈ s₁.slots ↔ k = x.1 ∨ k ∈ sender.slots ∧ ¬sender.Overwrites k := by
      have hk := hslots k
      rw [← not_iff_not, ← headOf_eq_none, hk]
      by_cases hkx : k = x.1
      · simp [hkx]
      · rw [if_neg hkx]
        split
        · rename_i hc
          simp [hkx, hc]
        · rename_i hc
          simp [hkx, hc, headOf_eq_none]
    rw [hmem]
    refine and_congr_right fun _ => ⟨fun hw p y hle hlt hne hbig => ?_, fun hw p y hle hlt => ?_⟩
    · have hs : s₁.head ≤ p := by
        rw [hhead]
        split
        · rename_i hf
          exact Nat.lt_of_le_of_ne hle fun he => hne ⟨he.symm, hf⟩
        · exact hle
      exact hw p y hs ((hiff p hs).mpr hbig)
    · have ht := hinv₂.core.window.head_le
      rw [hevs.evicts.tail] at ht
      refine hw p y (hp.head.trans hle) (by omega) ?_ ((hiff p hle).mp hlt)
      rintro ⟨rfl, hf⟩
      rw [if_pos hf] at hhead
      omega
  · obtain ⟨p, hp'⟩ := Option.ne_none_iff_exists'.mp fun hn => headOf_eq_none.mp hn hin
    have hback := evict_headOf hev hp'
    rw [hslots x.1, if_pos rfl, headOf_eq_none.mpr hnew, Option.getD_none, ite_self] at hback
    rw [hp', hback]
  · rw [pushCleared, hrun₁]
    change s₁.tryClear bytesMax slotsMax = _
    rw [tryClear, hrun₂]
    rfl

/-- No entry goes exactly if the message fits and unindexes nothing. -/
theorem Trimmed.keeps_iff (ht : sender.Trimmed log bytesMax x s₂) (h : sender.Inv log)
    (hnew : x.1 ∉ sender.slots) :
    (x.1 ∈ s₂.slots ∧ ∀ k ∈ sender.slots, k ∈ s₂.slots) ↔
      ¬(bytesMax < x.size ∨ sender.Unindexes bytesMax x) := by
  have htail := h.core.window.tail_eq
  have hhead := h.core.window.head_le
  have hnewest : (log ++ [x])[sender.tail - sender.ringSize]? = some x := by
    rw [show sender.tail - sender.ringSize = log.length by omega, List.getElem?_concat_length]
  have hN : 0 < sender.ringSize := Nat.succ_pos _
  have hitem : ∀ p, sender.head ≤ p → p < sender.tail → ∃ y,
      (log ++ [x])[p - sender.ringSize]? = some y ∧ (sender.shared.item p).slot = y.1 := by
    intro p hp hp'
    have hbase := h.core.window.base_le
    obtain ⟨y, hy, -, hslot, -⟩ := h.core.item hp hp'
    exact ⟨y, by rw [List.getElem?_append_left (by omega), hy], hslot⟩
  constructor
  · rintro ⟨hx, hall⟩ (hbig | ⟨p, hp, hp', hif⟩)
    · refine ((ht.mem x.1).mp hx).2 sender.tail x hhead (by rw [ht.tail]; omega) (by omega) ?_
        hnewest rfl
      rw [h.core.weight_push x hhead le_rfl, bytesFrom_tail]
      omega
    · obtain ⟨y, hy, hslot⟩ := hitem p hp hp'
      split at hif
      · rename_i hfull
        rcases ((ht.mem _).mp (hall _ hif)).1 with heq | ⟨-, hnot⟩
        · exact hnew (heq ▸ hif)
        · exact hnot ⟨hfull.2, by rw [hfull.1]⟩
      · rename_i hfull
        obtain ⟨hbig, hmem⟩ := hif
        have hin : y.1 ∈ s₂.slots := by
          rw [hslot] at hmem
          rcases hmem with hmem | hmem
          · exact hall _ hmem
          · rwa [hmem]
        refine ((ht.mem y.1).mp hin).2 p y hp (by rw [ht.tail]; omega) hfull ?_ hy rfl
        rwa [h.core.weight_push x hp hp'.le]
  · intro hnot
    obtain ⟨hfits, hun⟩ := not_or.mp hnot
    have hstays : ∀ k, k = x.1 ∨ k ∈ sender.slots → k ∈ s₂.slots := by
      intro k hk
      refine (ht.mem k).mpr ⟨?_, fun p y hp hp' hfull hbig hy hyk => ?_⟩
      · refine hk.imp_right fun hmem => ⟨hmem, fun hc => hun ⟨sender.head, le_rfl, by omega, ?_⟩⟩
        rw [if_pos ⟨rfl, hc.1⟩, hc.2]
        exact hmem
      · rw [ht.tail] at hp'
        rw [h.core.weight_push x hp (by omega)] at hbig
        rcases Nat.lt_succ_iff_lt_or_eq.mp hp' with hlt | rfl
        · obtain ⟨z, hz, hslot⟩ := hitem p hp hlt
          rw [hy, Option.some.injEq] at hz
          subst hz
          refine hun ⟨p, hp, hlt, ?_⟩
          rw [if_neg hfull, hslot, hyk]
          exact ⟨hbig, hk.symm⟩
        · rw [bytesFrom_tail] at hbig
          omega
    exact ⟨hstays _ (.inl rfl), fun k hk => hstays k (.inr hk)⟩

-- ════════════════════════════════════════════════════════════════════════
-- One push with its clearing
-- ════════════════════════════════════════════════════════════════════════

/-- Entries over the limit after the bytes loop: then none went, and the
message's is new. -/
theorem Trimmed.over (ht : sender.Trimmed log bytesMax x s₂) (hlen : sender.slots.len ≤ slotsMax)
    (hover : slotsMax < s₂.slots.len) : x.1 ∉ sender.slots ∧ sender.slots.len = slotsMax ∧
      s₂.slots.len = slotsMax + 1 ∧ s₂.slots.keys = insert x.1 sender.slots.keys := by
  have hsub : s₂.slots.keys ⊆ insert x.1 sender.slots.keys := by
    intro k hk
    rw [Finmap.mem_keys, ht.mem] at hk
    rw [Finset.mem_insert, Finmap.mem_keys]
    exact hk.1.imp_right And.left
  have hcard := Finset.card_le_card hsub
  have hnew : x.1 ∉ sender.slots := by
    intro hmem
    rw [Finset.insert_eq_of_mem (Finmap.mem_keys.mpr hmem)] at hcard
    exact absurd (hcard.trans hlen) (Nat.not_le.mpr hover)
  have hins : (insert x.1 sender.slots.keys).card = sender.slots.len + 1 :=
    Finset.card_insert_of_notMem fun hk => hnew (Finmap.mem_keys.mp hk)
  have hover' : slotsMax < s₂.slots.keys.card := hover
  have hkeys := Finset.eq_of_subset_of_card_le hsub (by omega)
  have hlen₂ : s₂.slots.len = sender.slots.len + 1 := by rw [Finmap.len, hkeys, hins]
  exact ⟨hnew, by omega, by omega, hkeys⟩

/-- Within the limit no slot is dropped, and there was room for the message. -/
theorem Trimmed.roomFor_of_le (ht : sender.Trimmed log bytesMax x s₂) (h : sender.Inv log)
    (hle : s₂.slots.len ≤ slotsMax) : sender.RoomFor bytesMax slotsMax x := by
  by_contra hno
  obtain ⟨hnew, hfull, -, hun⟩ : x.1 ∉ sender.slots ∧ ¬sender.slots.len < slotsMax ∧
      (¬∃ k ∈ sender.slots, k < x.1) ∧ ¬(bytesMax < x.size ∨ sender.Unindexes bytesMax x) := by
    simpa only [RoomFor, not_or] using hno
  obtain ⟨hx, hall⟩ := (ht.keeps_iff h hnew).mpr hun
  have hsub : insert x.1 sender.slots.keys ⊆ s₂.slots.keys := by
    intro k hk
    rw [Finset.mem_insert, Finmap.mem_keys] at hk
    rw [Finmap.mem_keys]
    obtain rfl | hk := hk
    · exact hx
    · exact hall k hk
  have hcard := Finset.card_le_card hsub
  rw [Finset.card_insert_of_notMem fun hk => hnew (Finmap.mem_keys.mp hk)] at hcard
  have hle' : s₂.slots.keys.card ≤ slotsMax := hle
  have hfull' : ¬sender.slots.keys.card < slotsMax := hfull
  omega

/-- Over the limit one slot is dropped: an older one than the message's, or the loop
runs out of the ring. -/
theorem Trimmed.dropSlots_ok_iff (ht : sender.Trimmed log bytesMax x s₂) (h : sender.Inv log)
    (hlen : sender.slots.len ≤ slotsMax) (hover : slotsMax < s₂.slots.len) :
    (∃ sender', dropSlots slotsMax s₂.slots.len s₂ = .ok sender') ↔
      sender.RoomFor bytesMax slotsMax x := by
  obtain ⟨hnew, hfull, hlen₂, hkeys⟩ := ht.over hlen hover
  have hmem : ∀ k, k ∈ s₂.slots ↔ k = x.1 ∨ k ∈ sender.slots := by
    intro k
    rw [← Finmap.mem_keys, hkeys, Finset.mem_insert, Finmap.mem_keys]
  have hkeeps := (ht.keeps_iff h hnew).mp ⟨(hmem _).mpr (.inl rfl),
    fun k hk => (hmem k).mpr (.inr hk)⟩
  rw [hlen₂]
  obtain ⟨slotMin, p, hp, hmin, hcase⟩ := dropSlots_succ ht.inv (n := slotsMax) hover
  have hin : slotMin ∈ s₂.slots := by
    by_contra hno
    rw [headOf_eq_none.mpr hno] at hp
    cases hp
  have htail := ht.inv.core.window.tail_eq
  rw [ht.ringSize, ht.tail, List.length_append, List.length_singleton] at htail
  have hnewest : (log ++ [x])[sender.tail - s₂.ringSize]? = some x := by
    rw [ht.ringSize, show sender.tail - sender.ringSize = log.length by omega,
      List.getElem?_concat_length]
  obtain ⟨s₃, hstep, -, hless, q, y, hq, hq', hy, hys⟩ | ⟨s₃, hstep, hnone⟩ := hcase
  · -- another slot's message follows, so the least slot is an older one
    have hne : slotMin ≠ x.1 := by
      rintro rfl
      rw [ht.head hnew hin, Option.some.injEq] at hp
      rw [ht.tail] at hq'
      rw [show q = sender.tail by omega, hnewest, Option.some.injEq] at hy
      exact hys (congrArg Prod.fst hy).symm
    rw [hstep, dropSlots_of_le (by omega)]
    refine iff_of_true ⟨s₃, rfl⟩ (.inr (.inr (.inl ⟨slotMin, ?_, ?_⟩)))
    · exact ((hmem slotMin).mp hin).resolve_left hne
    · exact lt_of_le_of_ne (hmin x.1 ((hmem x.1).mpr (.inl rfl))) hne
  · rw [hstep]
    refine iff_of_false (fun ⟨_, hok⟩ => by cases hok) ?_
    have hmin' : slotMin = x.1 := by
      by_contra hne
      obtain ⟨-, hlt, -⟩ := ht.inv.index slotMin p hp
      rw [ht.tail] at hlt
      exact hnone ⟨sender.tail, x, by omega, by rw [ht.tail]; omega, hnewest, Ne.symm hne⟩
    rintro (hold | hfree | ⟨k, hk, hlt⟩ | hun)
    · exact hnew hold
    · omega
    · exact absurd (hmin k ((hmem k).mpr (.inr hk))) (not_le.mpr (hmin' ▸ hlt))
    · exact hkeeps hun

/-- A push with its clearing returns exactly if there is room for the message. -/
theorem pushCleared_ok_iff (h : sender.Inv log) (hlen : sender.slots.len ≤ slotsMax) :
    (∃ sender', sender.pushCleared bytesMax slotsMax x = .ok sender') ↔
      sender.RoomFor bytesMax slotsMax x := by
  obtain ⟨s₂, ht, hrun⟩ := push_trimmed h bytesMax x
  rw [hrun]
  obtain hover | hle := Nat.lt_or_ge slotsMax s₂.slots.len
  · exact ht.dropSlots_ok_iff h hlen hover
  · rw [dropSlots_of_le hle]
    exact iff_of_true ⟨s₂, rfl⟩ (ht.roomFor_of_le h hle)

/-- A push with its clearing preserves the invariant and keeps the slots limit. -/
theorem pushCleared_inv (h : sender.Inv log)
    (hok : sender.pushCleared bytesMax slotsMax x = .ok sender') :
    sender'.Inv (log ++ [x]) ∧ sender'.slots.len ≤ slotsMax := by
  obtain ⟨s₁, hrun, hinv, -⟩ := push_spec h x
  rw [pushCleared, hrun] at hok
  change s₁.tryClear bytesMax slotsMax = .ok sender' at hok
  rcases tryClear_spec hinv bytesMax slotsMax with ⟨s₂, hrun₂, hev, -, hlen⟩ | ⟨s₂, hrun₂⟩
  · rw [hrun₂, Except.ok.injEq] at hok
    subst hok
    exact ⟨hev.inv hinv, hlen⟩
  · rw [hrun₂] at hok
    cases hok

/-- A run from a good ring returns exactly if there is room for all its messages. -/
theorem drive_ok_iff_of_inv {xs : List Pushed} (h : sender.Inv log)
    (hlen : sender.slots.len ≤ slotsMax) :
    (∃ sender', drive bytesMax slotsMax sender xs = .ok sender') ↔
      RoomForAll bytesMax slotsMax sender xs := by
  induction xs generalizing sender log with
  | nil => exact iff_of_true ⟨sender, rfl⟩ trivial
  | cons x xs ih =>
    rw [drive, RoomForAll, ← pushCleared_ok_iff h hlen]
    cases hrun : sender.pushCleared bytesMax slotsMax x with
    | error e =>
      constructor
      · rintro ⟨sender', hok⟩
        cases hok
      · rintro ⟨⟨sender', hok⟩, -⟩
        cases hok
    | ok s₁ =>
      obtain ⟨hinv, hlen₁⟩ := pushCleared_inv h hrun
      refine (ih hinv hlen₁).trans ⟨fun hroom => ⟨⟨s₁, rfl⟩, fun sender' he => ?_⟩, fun hroom =>
        hroom.2 s₁ rfl⟩
      cases he
      exact hroom

end SenderShared

open SenderShared

/-- No push or clearing of a run panics exactly if there is room for every
message when its turn comes. -/
theorem drive_no_panic_iff {N : ℕ} (hN : ∃ k, N = 2 ^ k) (bytesMax slotsMax : ℕ)
    (xs : List Pushed) : (∀ e, drive bytesMax slotsMax (fresh N) xs ≠ .error e) ↔
      RoomForAll bytesMax slotsMax (fresh N) xs := by
  have hlen : (fresh N).slots.len ≤ slotsMax := by simp [fresh, SenderShared.new]
  rw [← drive_ok_iff_of_inv (Inv.fresh hN) hlen]
  cases drive bytesMax slotsMax (fresh N) xs with
  | error e => simp
  | ok sender => simp

/-- Growing slots find room. -/
theorem drive_no_panic_iff_growing :
    RoomForAll 10 2 (fresh 4) ([5, 6, 7].map fun slot => slotUpdate slot 3) := by
  have hrun : (drive 10 2 (fresh 4) ([5, 6, 7].map fun slot => slotUpdate slot 3)).toOption.map
      (fun sender => sender.head) = some 5 := by
    decide +kernel
  obtain ⟨sender, hok, -⟩ := exists_of_toOption hrun
  refine (drive_no_panic_iff ⟨2, rfl⟩ 10 2 _).mp fun e he => ?_
  cases hok.symm.trans he

/-- A late message of a slot below two indexed ones makes the clearing panic. -/
theorem late_message_panics : ¬∀ (N bytesMax slotsMax : ℕ) (xs : List Pushed),
    (∃ k, N = 2 ^ k) → 1 ≤ slotsMax → ∀ e, drive bytesMax slotsMax (fresh N) xs ≠ .error e := by
  intro hall
  have hpanic : (match drive 10 2 (fresh 4) ([5, 6, 4].map fun slot => slotUpdate slot 3) with
      | .error e => some e.panic
      | .ok _ => none) = some .slotsOverflow2 := by
    decide +kernel
  cases hrun : drive 10 2 (fresh 4) ([5, 6, 4].map fun slot => slotUpdate slot 3) with
  | ok sender =>
    rw [hrun] at hpanic
    cases hpanic
  | error e => exact hall 4 10 2 _ ⟨2, rfl⟩ (by decide) e hrun

end Dragonmouth.Richat
