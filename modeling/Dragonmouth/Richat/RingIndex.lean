import Dragonmouth.Richat.RingLoops

/-!
# The entries a push and the bytes loop leave

Which slots are indexed, and where, after a push and after the loop over extra
bytes, in terms of the ring before.

## Main definitions

- `SenderShared.bytesFrom`: the bytes retained from a position on
- `SenderShared.Overwrites`: the next push overwrites a message of a slot
-/

namespace Dragonmouth.Richat

open RingLog

namespace SenderShared

variable {sender sender' s₁ : SenderShared} {log : List Pushed} {x : Pushed}

/-- The bytes retained from a position on. -/
def bytesFrom (sender : SenderShared) (p : ℕ) : ℕ :=
  ((List.range' p (sender.tail - p)).map fun q =>
    ((sender.shared.item q).data.map ParsedMessage.size).getD 0).sum

/-- The next push overwrites the oldest message, and that belongs to a slot. -/
abbrev Overwrites (sender : SenderShared) (slot : Slot) : Prop :=
  sender.tail = sender.head + sender.ringSize ∧ (sender.shared.item sender.head).slot = slot

/-- In terms of the log, the retained bytes are the weight of its end. -/
theorem Core.bytesFrom_eq (h : sender.Core log) {p : ℕ} (hp : sender.head ≤ p)
    (hp' : p ≤ sender.tail) :
    sender.bytesFrom p = weightFrom Pushed.size log (p - sender.ringSize) := by
  have hbase := h.window.base_le
  obtain ⟨d, hd⟩ : ∃ d, sender.tail - p = d := ⟨_, rfl⟩
  induction d generalizing p with
  | zero =>
    have hlen : p - sender.ringSize = log.length := by
      have := h.window.tail_eq
      omega
    rw [bytesFrom, hd, hlen, weightFrom_length]
    rfl
  | succ d ih =>
    obtain ⟨x, hx, -, -, hdata⟩ := h.item hp (by omega)
    have hrec := ih (p := p + 1) (by omega) (by omega) (by omega)
    rw [bytesFrom, show sender.tail - (p + 1) = d by omega] at hrec
    rw [bytesFrom, hd, List.range'_succ, List.map_cons, List.sum_cons, hrec, weightFrom_eq_add hx,
      hdata, show p + 1 - sender.ringSize = p - sender.ringSize + 1 by omega]
    rfl

/-- The entries left by the bytes loop are those of which no message went. -/
theorem evict_mem_slots (h : Relation.ReflTransGen (Evict log) sender sender') (k : Slot) :
    k ∈ sender'.slots ↔ k ∈ sender.slots ∧ ∀ p y, sender.head ≤ p → p < sender'.head →
      log[p - sender.ringSize]? = some y → y.1 ≠ k := by
  induction h with
  | refl => exact ⟨fun hk => ⟨hk, fun p y hp hp' _ => by omega⟩, fun hk => hk.1⟩
  | @tail s₁ s₂ hev hstep ih =>
    have hf := (evictions_of_evict hev).evicts
    cases hstep with
    | intro y hlt hy =>
      have hmem : k ∈ ((s₁.evicted y).forget y.1).slots ↔ k ∈ s₁.slots ∧ y.1 ≠ k := by
        have hh := headOf_forget (s₁.evicted y) y.1 k
        have hs : (s₁.evicted y).slots = s₁.slots := rfl
        rw [hs] at hh
        by_cases hk : k = y.1
        · rw [if_pos hk, headOf_eq_none] at hh
          exact ⟨fun hm => absurd hm hh, fun hm => absurd hk.symm hm.2⟩
        · rw [if_neg hk] at hh
          have hiff : k ∉ ((s₁.evicted y).forget y.1).slots ↔ k ∉ s₁.slots := by
            rw [← headOf_eq_none, hh, headOf_eq_none]
          exact ⟨fun hm => ⟨by_contra fun hn => hiff.mpr hn hm, Ne.symm hk⟩,
            fun hm => by_contra fun hn => hiff.mp hn hm.1⟩
      have hhead : ((s₁.evicted y).forget y.1).head = s₁.head + 1 := by
        rw [forget_head]
        rfl
      rw [hf.ringSize] at hy
      rw [hmem, ih, hhead]
      constructor
      · rintro ⟨⟨hk, hall⟩, hne⟩
        refine ⟨hk, fun p z hp hp' hz => ?_⟩
        rcases Nat.lt_succ_iff_lt_or_eq.mp hp' with hlt' | rfl
        · exact hall p z hp hlt' hz
        · rw [hy] at hz
          rwa [← Option.some.inj hz]
      · rintro ⟨hk, hall⟩
        exact ⟨⟨hk, fun p z hp hp' hz => hall p z hp (by omega) hz⟩,
          hall s₁.head y hf.head (Nat.lt_succ_self _) hy⟩

/-- The bytes loop moves no entry. -/
theorem evict_headOf (h : Relation.ReflTransGen (Evict log) sender sender') {k : Slot} {p : ℕ}
    (hk : headOf sender'.slots k = some p) : headOf sender.slots k = some p := by
  have hsub := (evictions_of_evict h).evicts.slots
  obtain ⟨info, hinfo, rfl⟩ := Option.map_eq_some_iff.mp hk
  rw [headOf, hsub k info hinfo]
  rfl

/-- The entries after a push: that of the message, and all others but the one of
the message that has been overwritten. -/
theorem push_mem_slots (h : sender.Core log) (hok : sender.push x.1 x.2 = .ok s₁) (k : Slot) :
    headOf s₁.slots k = if k = x.1 then
        some (if sender.Overwrites x.1 then sender.tail
          else (headOf sender.slots x.1).getD sender.tail)
      else if sender.Overwrites k then none
      else headOf sender.slots k := by
  rcases push_eq h x with ⟨hlt, hrun⟩ | ⟨hfull, y, hy, hrun⟩
  · rw [hrun, Except.ok.injEq] at hok
    subst hok
    have hne : ∀ j, ¬sender.Overwrites j := fun j hj => by
      have := hj.1
      omega
    simp only [hne, if_false]
    exact headOf_insertSlot x.1 k sender.tail
  · rw [hrun, Except.ok.injEq] at hok
    subst hok
    have hlt : sender.head < sender.tail := by
      have : 0 < sender.ringSize := Nat.succ_pos _
      omega
    obtain ⟨z, hz, -, hslot, -⟩ := h.item le_rfl hlt
    rw [hy, Option.some.injEq] at hz
    subst hz
    have hleft : ∀ j, headOf (sender.left y).slots j =
        if j = y.1 then none else headOf sender.slots j := fun j =>
      headOf_forget _ y.1 j
    have hov : ∀ j, sender.Overwrites j ↔ y.1 = j := fun j => by
      rw [Overwrites, hslot]
      exact and_iff_right hfull
    simp only [hov]
    refine (headOf_insertSlot x.1 k sender.tail).trans ?_
    change (if k = x.1 then some ((headOf (sender.left y).slots x.1).getD sender.tail)
      else headOf (sender.left y).slots k) = _
    rw [hleft, hleft]
    by_cases hk : k = x.1
    · simp only [hk, if_true]
      by_cases hyx : x.1 = y.1
      · simp [hyx]
      · simp [hyx, Ne.symm hyx]
    · simp only [hk, if_false]
      by_cases hyk : k = y.1
      · simp [hyk]
      · simp [hyk, Ne.symm hyk]

/-- A push leaves the oldest message behind exactly if the ring is full. -/
theorem push_head (h : sender.Core log) (hok : sender.push x.1 x.2 = .ok s₁) :
    s₁.head = if sender.tail = sender.head + sender.ringSize then sender.head + 1
      else sender.head := by
  rcases push_eq h x with ⟨hlt, hrun⟩ | ⟨hfull, y, -, hrun⟩
  · rw [hrun, Except.ok.injEq] at hok
    rw [← hok, if_neg (by omega)]
    exact (stored_pushes sender sender.tail x).2.2.2
  · rw [hrun, Except.ok.injEq] at hok
    rw [← hok, if_pos hfull, (stored_pushes (sender.left y) sender.tail x).2.2.2]
    exact (left_fields sender y).2.2.2.1

/-- The weight from a retained position on, with the new message. -/
theorem Core.weight_push (h : sender.Core log) (x : Pushed) {p : ℕ} (hp : sender.head ≤ p)
    (hp' : p ≤ sender.tail) :
    weightFrom Pushed.size (log ++ [x]) (p - sender.ringSize) = sender.bytesFrom p + x.size := by
  have htail := h.window.tail_eq
  rw [weightFrom_append _ _ (by omega), h.bytesFrom_eq hp hp']

theorem bytesFrom_tail : sender.bytesFrom sender.tail = 0 := by
  simp [bytesFrom]

/-- The loop over extra bytes evicts exactly the messages from which on too many
bytes are retained. -/
theorem dropBytes_weight (h : sender.Inv log) (bytesMax : ℕ) :
    ∃ sender', dropBytes bytesMax (sender.tail - sender.head) sender = .ok sender' ∧
      Relation.ReflTransGen (Evict log) sender sender' ∧
      ∀ p, sender.head ≤ p → (p < sender'.head ↔
        bytesMax < weightFrom Pushed.size log (p - sender.ringSize)) := by
  obtain ⟨sender', hrun, hev, hle, hall⟩ := dropBytes_spec h bytesMax le_rfl
  have hevs := evictions_of_evict hev
  refine ⟨sender', hrun, hev, fun p hp => ⟨hall p hp, fun hlt => ?_⟩⟩
  by_contra hge
  have hanti : weightFrom Pushed.size log (p - sender.ringSize) ≤
      weightFrom Pushed.size log (sender'.head - sender.ringSize) := weightFrom_anti _ (by omega)
  have hbytes := (hevs.inv h).core.bytes
  rw [hevs.evicts.ringSize] at hbytes
  omega

end SenderShared

end Dragonmouth.Richat
