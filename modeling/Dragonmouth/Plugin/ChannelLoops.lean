import Dragonmouth.Plugin.ChannelEviction

/-!
# The eviction loops of `push_msg`

One specification per loop. Each loop is a run of evictions; what differs is
where it stops and when its assertion fails. None of the specifications needs
the slot index to be correct: they also hold for a push after an earlier one
has panicked.

## Main definitions

- `Shared.Sound`: what holds between any two calls, panicking or not
-/

namespace Dragonmouth.Plugin

open RingLog

namespace Shared

variable {sh sh' : Shared} {log : List Stored} {x : Stored} {pending : ℕ}

/-- Cells, head, tail and bytes agree with the log, and no indexed slot begins
after the tail. -/
structure Sound (sh : Shared) (log : List Stored) (pending : ℕ) : Prop where
  core : sh.Core log pending
  heads : ∀ s p, headOf sh.state.slots s = some p → sh.ringSize ≤ p ∧ p ≤ sh.state.tail

theorem Evictions.sound (h : Evictions log sh sh') (hs : sh.Sound log pending) :
    sh'.Sound log pending := by
  have hf := h.evicts
  refine ⟨h.core hs.core, fun s p hp => ?_⟩
  rw [ringSize, hf.mask, hf.tail]
  exact hs.heads s p (headOf_sub hf.slots hp)

/-- Everything before the removed slot's first message is evicted. -/
theorem dropUpTo_spec {slot : Slot} {slotHead n : ℕ} (h : sh.Core log pending)
    (hkeys : ∀ k ∈ sh.state.slots, slot < k) (hle : slotHead ≤ sh.state.tail)
    (hn : slotHead - sh.state.head ≤ n) :
    ∃ sh', dropUpTo slot slotHead n sh = .ok sh' ∧ Evictions log sh sh' ∧
      sh'.state.head = max sh.state.head slotHead := by
  induction n generalizing sh with
  | zero => exact ⟨sh, rfl, .refl, by omega⟩
  | succ n ih =>
    rw [dropUpTo]
    by_cases hlt : sh.state.head < slotHead
    · have htail : sh.state.head < sh.state.tail := by omega
      rw [if_pos hlt, if_pos htail]
      obtain ⟨x, hx, -, he⟩ := evictHead_eq h htail .slotsNothing2 fun itemSlot slots =>
        removeSlots slots (some (slot + 1)) itemSlot
      have hsub := removeSlots_sub sh.state.slots (some (slot + 1)) x.1
      -- messages of `slot` itself and of smaller slots have no entry left
      have hkey : x.1 ∉ removeSlots sh.state.slots (some (slot + 1)) x.1 := by
        rw [← Finmap.lookup_eq_none, removeSlots_some_lookup]
        split
        · rfl
        · rename_i hgt
          rw [Finmap.lookup_eq_none]
          exact fun hm => hgt ⟨hkeys _ hm, le_rfl⟩
      have hstep := EvictStep.message x _ htail hx hsub hkey
      obtain ⟨sh', hrun, hev, hhead⟩ := ih (hstep.core h) (fun k hk => hkeys k (hsub.mem hk)) hle
        (show slotHead - (sh.state.head + 1) ≤ n by omega)
      have hmax : sh'.state.head = max (sh.state.head + 1) slotHead := hhead
      refine ⟨sh', ?_, .head hstep hev, by omega⟩
      rw [he]
      exact hrun
    · rw [if_neg hlt]
      exact ⟨sh, rfl, .refl, by omega⟩

/-- Messages of one slot are evicted until another slot's message is met; the
assertion fails if there is none. -/
theorem dropSame_spec {slot : Slot} {n : ℕ} (h : sh.Core log pending)
    (hslot : slot ∉ sh.state.slots) (hn : sh.state.tail - sh.state.head ≤ n) :
    (∃ sh', dropSame slot n sh = .ok sh' ∧ Evictions log sh sh' ∧
      ∃ p x, sh.state.head ≤ p ∧ p < sh.state.tail ∧
        log[p - sh.ringSize]? = some x ∧ x.1 ≠ slot) ∨
    (∃ sh', dropSame slot n sh = .error ⟨.slotsOverflow2, sh'⟩ ∧ Evictions log sh sh' ∧
      ∀ p x, sh.state.head ≤ p → p < sh.state.tail → log[p - sh.ringSize]? = some x →
        x.1 = slot) := by
  induction n generalizing sh with
  | zero => exact .inr ⟨sh, rfl, .refl, fun p x hp hp' _ => by omega⟩
  | succ n ih =>
    rw [dropSame]
    by_cases htail : sh.state.head < sh.state.tail
    · rw [if_pos htail]
      obtain ⟨x, hx, hxs, he⟩ := evictHead_eq h htail .slotsNothing3 fun _ slots => slots
      by_cases hne : slot ≠ x.1
      · rw [hxs, if_pos hne]
        exact .inl ⟨sh, rfl, .refl, _, x, le_rfl, htail, hx, hne.symm⟩
      · have hkey : x.1 ∉ sh.state.slots := by
          rwa [← not_not.mp hne]
        have hstep := EvictStep.message x _ htail hx (.refl _) hkey
        rw [hxs, if_neg hne, he]
        rcases ih (hstep.core h) hslot (show sh.state.tail - (sh.state.head + 1) ≤ n by omega) with
          ⟨sh', hrun, hev, p, y, hp, hp', hy, hys⟩ | ⟨sh', hrun, hev, hall⟩
        · exact .inl ⟨sh', hrun, .head hstep hev, p, y, (Nat.le_succ _).trans hp, hp', hy, hys⟩
        · refine .inr ⟨sh', hrun, .head hstep hev, fun p y hp hp' hy => ?_⟩
          rcases Nat.eq_or_lt_of_le hp with rfl | hgt
          · rw [hx] at hy
            rw [← Option.some.inj hy, not_not.mp hne]
          · exact hall p y hgt hp' hy
    · rw [if_neg htail]
      exact .inr ⟨sh, rfl, .refl, fun p x hp hp' _ => by omega⟩

/-- From `p` on, the log has a message of another slot. -/
def OtherFrom (sh : Shared) (log : List Stored) (slot : Slot) (p : ℕ) : Prop :=
  ∃ q x, p ≤ q ∧ q < sh.state.tail ∧ log[q - sh.ringSize]? = some x ∧ x.1 ≠ slot

/-- Removing one slot panics exactly if no other slot's message follows the
removed slot's first one. -/
theorem dropSlot_spec {slot : Slot} {slotHead : ℕ} (h : sh.Core log pending)
    (hkeys : ∀ k ∈ sh.state.slots, slot < k) (hle : slotHead ≤ sh.state.tail) :
    (∃ sh', dropSlot slot slotHead sh = .ok sh' ∧ Evictions log sh sh' ∧
      sh.OtherFrom log slot (max sh.state.head slotHead)) ∨
    (∃ sh', dropSlot slot slotHead sh = .error ⟨.slotsOverflow2, sh'⟩ ∧ Evictions log sh sh' ∧
      ¬sh.OtherFrom log slot (max sh.state.head slotHead)) := by
  obtain ⟨sh₁, hrun₁, hev₁, hhead⟩ := dropUpTo_spec h hkeys hle le_rfl
  have hf := hev₁.evicts
  have hslot : slot ∉ sh₁.state.slots := fun hm => lt_irrefl _ (hkeys _ (hf.slots.mem hm))
  have hsize : sh₁.ringSize = sh.ringSize := congrArg (· + 1) hf.mask
  rw [dropSlot, hrun₁]
  rcases dropSame_spec (hev₁.core h) hslot le_rfl with
    ⟨sh₂, hrun₂, hev₂, p, x, hp, hp', hx, hxs⟩ | ⟨sh₂, hrun₂, hev₂, hall⟩
  · rw [hhead] at hp
    rw [hf.tail] at hp'
    rw [hsize] at hx
    exact .inl ⟨sh₂, hrun₂, hev₁.trans hev₂, p, x, hp, hp', hx, hxs⟩
  · refine .inr ⟨sh₂, hrun₂, hev₁.trans hev₂, ?_⟩
    rintro ⟨p, x, hp, hp', hx, hxs⟩
    rw [hhead, hf.tail, hsize] at hall
    exact hxs (hall p x hp hp' hx)

/-- The least indexed slot can be removed without a panic. -/
def Removable (sh : Shared) (log : List Stored) : Prop :=
  ∀ slot info, sh.state.slots.lookup slot = some info →
    (∀ k ∈ sh.state.slots, slot ≤ k) → sh.OtherFrom log slot (max sh.state.head info.head)

/-- One iteration of the loop over extra slots. -/
theorem dropSlots_succ (h : sh.Sound log pending) {n : ℕ}
    (hlt : sh.state.slotsMax < sh.state.slots.len) :
    (∃ sh', dropSlots (n + 1) sh = dropSlots n sh' ∧ Evictions log sh sh' ∧
      sh'.state.slots.len < sh.state.slots.len ∧ sh.Removable log) ∨
    (∃ sh', dropSlots (n + 1) sh = .error ⟨.slotsOverflow2, sh'⟩ ∧ Evictions log sh sh' ∧
      ¬sh.Removable log) := by
  obtain ⟨slot, info, hpop, hlook, hmin⟩ :=
    Finmap.popFirst_of_pos (show 0 < sh.state.slots.len by omega)
  have hmem : slot ∈ sh.state.slots := Finmap.mem_iff.mpr ⟨info, hlook⟩
  have hstep : EvictStep log sh (sh.withSlots (sh.state.slots.erase slot)) :=
    .slot _ (Finmap.Sub.erase _ _)
  have hkeys : ∀ k ∈ sh.state.slots.erase slot, slot < k := fun k hk => by
    obtain ⟨hne, hk'⟩ := Finmap.mem_erase.mp hk
    exact lt_of_le_of_ne (hmin k hk') (Ne.symm hne)
  have hle : info.head ≤ sh.state.tail :=
    (h.heads slot info.head (by rw [headOf, hlook]; rfl)).2
  have hiff : sh.Removable log ↔ sh.OtherFrom log slot (max sh.state.head info.head) := by
    refine ⟨fun hr => hr slot info hlook hmin, fun ho k kinfo hk hkmin => ?_⟩
    have he : k = slot := le_antisymm (hkmin slot hmem) (hmin k (Finmap.mem_iff.mpr ⟨_, hk⟩))
    subst k
    rw [hlook] at hk
    rwa [← Option.some.inj hk]
  have hrun : dropSlots (n + 1) sh =
      dropSlot slot info.head (sh.withSlots (sh.state.slots.erase slot)) >>= dropSlots n := by
    rw [dropSlots, if_pos hlt, hpop]
    rfl
  have hlen := Finmap.len_erase_of_mem hmem
  rcases dropSlot_spec (hstep.core h.core) hkeys hle with
    ⟨sh', hok, hev, hother⟩ | ⟨sh', herr, hev, hother⟩
  · refine .inl ⟨sh', by rw [hrun, hok]; rfl, .head hstep hev, ?_, hiff.mpr hother⟩
    have hsub : sh'.state.slots.len ≤ (sh.state.slots.erase slot).len := hev.evicts.slots.len_le
    omega
  · exact .inr ⟨sh', by rw [hrun, herr]; rfl, .head hstep hev, fun hr => hother (hiff.mp hr)⟩

theorem dropSlots_of_le {n : ℕ} (hle : sh.state.slots.len ≤ sh.state.slotsMax) :
    dropSlots n sh = .ok sh := by
  cases n with
  | zero => rfl
  | succ n => rw [dropSlots, if_neg (by omega)]

/-- The loop over extra slots ends below the limit or fails its assertion. -/
theorem dropSlots_spec (h : sh.Sound log pending) {n : ℕ} (hn : sh.state.slots.len ≤ n) :
    (∃ sh', dropSlots n sh = .ok sh' ∧ Evictions log sh sh' ∧
      sh'.state.slots.len ≤ sh'.state.slotsMax) ∨
    (∃ sh', dropSlots n sh = .error ⟨.slotsOverflow2, sh'⟩ ∧ Evictions log sh sh') := by
  induction n generalizing sh with
  | zero => exact .inl ⟨sh, rfl, .refl, by omega⟩
  | succ n ih =>
    by_cases hle : sh.state.slots.len ≤ sh.state.slotsMax
    · exact .inl ⟨sh, dropSlots_of_le hle, .refl, hle⟩
    · rcases dropSlots_succ h (n := n) (by omega) with
        ⟨sh₁, hrun, hev, hlen, -⟩ | ⟨sh₁, hrun, hev, -⟩
      · rcases ih (hev.sound h) (by omega) with ⟨sh', hok, hev', hle'⟩ | ⟨sh', herr, hev'⟩
        · exact .inl ⟨sh', by rw [hrun, hok], hev.trans hev', hle'⟩
        · exact .inr ⟨sh', by rw [hrun, herr], hev.trans hev'⟩
      · exact .inr ⟨sh₁, hrun, hev⟩

/-- With at most one slot too many, the loop panics exactly if the least slot
cannot be removed. -/
theorem dropSlots_ok_iff (h : sh.Sound log pending)
    (hle : sh.state.slots.len ≤ sh.state.slotsMax + 1) :
    (∃ sh', dropSlots sh.state.slots.len sh = .ok sh') ↔
      (sh.state.slotsMax < sh.state.slots.len → sh.Removable log) := by
  by_cases hlt : sh.state.slotsMax < sh.state.slots.len
  · obtain ⟨n, hn⟩ : ∃ n, sh.state.slots.len = n + 1 := ⟨sh.state.slots.len - 1, by omega⟩
    rw [hn]
    rcases dropSlots_succ h (n := n) hlt with ⟨sh₁, hrun, hev, hlen, hr⟩ | ⟨sh₁, hrun, -, hr⟩
    · have hok : dropSlots n sh₁ = .ok sh₁ := dropSlots_of_le (by
        rw [hev.evicts.slotsMax]
        omega)
      exact ⟨fun _ _ => hr, fun _ => ⟨sh₁, by rw [hrun, hok]⟩⟩
    · refine ⟨fun ⟨sh', hok⟩ => ?_, fun hall => absurd (hall (by omega)) hr⟩
      rw [hrun] at hok
      cases hok
  · exact ⟨fun _ hlt' => absurd hlt' hlt, fun _ => ⟨sh, dropSlots_of_le (by omega)⟩⟩

/-- With nothing retained, the pending bytes are the whole total. -/
theorem Core.bytes_of_empty (h : sh.Core log pending) (hle : sh.state.tail ≤ sh.state.head) :
    sh.state.bytesTotal = pending := by
  have hh := le_antisymm h.window.head_le hle
  rw [h.bytes, hh, h.window.tail_eq, Nat.add_sub_cancel_left, weightFrom_length, Nat.add_zero]

/-- The loop over extra bytes panics exactly if the bytes that no retained
message accounts for exceed the limit. -/
theorem dropBytes_spec (h : sh.Core log pending) {n : ℕ}
    (hn : sh.state.tail - sh.state.head ≤ n) :
    (∃ sh', dropBytes n sh = .ok sh' ∧ Evictions log sh sh' ∧ pending ≤ sh.state.bytesMax ∧
      sh'.state.bytesTotal ≤ sh'.state.bytesMax) ∨
    (∃ sh', dropBytes n sh = .error ⟨.bytesOverflow, sh'⟩ ∧ Evictions log sh sh' ∧
      sh.state.bytesMax < pending) := by
  induction n generalizing sh with
  | zero =>
    have hz := h.bytes_of_empty (by omega)
    rw [dropBytes]
    by_cases hgt : sh.state.bytesTotal > sh.state.bytesMax
    · rw [if_pos hgt]
      exact .inr ⟨sh, rfl, .refl, by omega⟩
    · rw [if_neg hgt]
      exact .inl ⟨sh, rfl, .refl, by omega, by omega⟩
  | succ n ih =>
    rw [dropBytes]
    by_cases hgt : sh.state.bytesTotal > sh.state.bytesMax
    · rw [if_pos hgt]
      by_cases htail : sh.state.head < sh.state.tail
      · rw [if_pos htail]
        obtain ⟨x, hx, -, he⟩ := evictHead_eq h htail .bytesNothing fun itemSlot slots =>
          removeSlots slots none itemSlot
        have hkey : x.1 ∉ removeSlots sh.state.slots none x.1 := by
          rw [← Finmap.lookup_eq_none, removeSlots_none_lookup, if_pos le_rfl]
        have hstep := EvictStep.message x _ htail hx (removeSlots_sub _ none x.1) hkey
        rw [he]
        rcases ih (hstep.core h) (show sh.state.tail - (sh.state.head + 1) ≤ n by omega) with
          ⟨sh', hok, hev, hle, hle'⟩ | ⟨sh', herr, hev, hlt⟩
        · exact .inl ⟨sh', hok, .head hstep hev, hle, hle'⟩
        · exact .inr ⟨sh', herr, .head hstep hev, hlt⟩
      · rw [if_neg htail]
        exact .inr ⟨sh, rfl, .refl, by have := h.bytes_of_empty (by omega); omega⟩
    · rw [if_neg hgt]
      exact .inl ⟨sh, rfl, .refl, by rw [h.bytes] at hgt; omega, by omega⟩

end Shared

end Dragonmouth.Plugin
