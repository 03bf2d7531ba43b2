import Dragonmouth.Grpc.MessagesCache

/-!
# Reading a ring through a cache

Calls of `MessagesCache::try_recv` at any positions, in any order with the writes
of the sender, on one cache. The cache may answer where the ring no longer can;
otherwise it answers as the ring does.

## Main definitions

- `MessagesCache.tryRecv`: a whole call
- `CachedRing`, `CachedRing.Reachable`: a ring with one cache of its messages
- `Transparent`: what the answer of a call says
-/

namespace Dragonmouth.Richat

/-- A call of `ReceiverSync::try_recv` without an interruption. -/
def Ring.tryRecv (ring : Ring) (head : ℕ) : Recv :=
  if head < ring.view.tail then (ring.view.item head).recv head else .ok none

/-- Between two operations this is the call on the ring of the sender. -/
theorem Ring.Inv.tryRecv_of_idle {N : ℕ} {ring : Ring} (h : ring.Inv N) (hidle : ring.todo = [])
    (head : ℕ) : ring.tryRecv head = ring.sender.shared.tryRecv head := by
  rw [Ring.tryRecv, Shared.tryRecv_eq, h.view_of_idle hidle]
  rfl

end Dragonmouth.Richat

namespace Dragonmouth.Grpc

open Richat

namespace MessagesCache

/-- The end of `try_recv`, with what the cell gives and what the receiver answers. -/
def answer (cache : MessagesCache) (head : ℕ) (direct : Recv) :
    Option (Option ParsedMessage) → MessagesCache × Recv
  | some msg => (cache, .ok msg)
  | none =>
    match direct with
    | .error e => (cache, .error e)
    | .ok none => (cache, .ok none)
    | .ok (some item) => (cache.save head item, .ok (some item))

/-- `try_recv`, where `direct` is what the receiver answers at each position. -/
def tryRecv (cache : MessagesCache) (direct : ℕ → Recv) (head : ℕ) : MessagesCache × Recv :=
  (cache.touch head).answer head (direct head) ((cache.touch head).cached head)

end MessagesCache

/-- A ring and a cache of the messages read from it. -/
structure CachedRing where
  ring : Ring
  cache : MessagesCache

namespace CachedRing

/-- The states writes of the sender and calls through the cache lead to, for a
ring of `N` cells and a cache of `M`. Calls are made at positions from `N` on. -/
inductive Reachable (N M : ℕ) : CachedRing → Prop where
  | new : Reachable N M { ring := .new N, cache := .new M }
  | write {sys : CachedRing} (reachable : Reachable N M sys) (ring : Ring)
      (step : sys.ring.Step ring) : Reachable N M { sys with ring := ring }
  | recv {sys : CachedRing} (reachable : Reachable N M sys) (head : ℕ) (pushable : N ≤ head) :
      Reachable N M { sys with cache := (sys.cache.tryRecv sys.ring.tryRecv head).1 }

end CachedRing

/-- A call at `head` answers with the message of that position, with whatever
the ring answers if the ring has a message there, and with nothing only where the
ring has nothing yet. The first position in range is computed without wrapping,
and the cell looked at is one of the `M`. -/
structure Transparent (N M : ℕ) (sys : CachedRing) (head : ℕ) : Prop where
  received : ∀ message, (sys.cache.tryRecv sys.ring.tryRecv head).2 = .ok (some message) →
    messageAt N sys.ring head = some message
  direct : ∀ message, sys.ring.tryRecv head = .ok (some message) →
    (sys.cache.tryRecv sys.ring.tryRecv head).2 = .ok (some message)
  empty : (sys.cache.tryRecv sys.ring.tryRecv head).2 = .ok none →
    sys.ring.tryRecv head = .ok none
  noUnderflow : (sys.cache.touch head).mask ≤ (sys.cache.touch head).head
  indexed : sys.cache.getIdx head < M

section

variable {N M head : ℕ} {ring : Ring} {sys : CachedRing} {cache : MessagesCache}
  {message : ParsedMessage}

/-- A message read from the ring is the one pushed at the position. -/
theorem messageAt_of_tryRecv (h : ring.Inv N) (hle : N ≤ head)
    (hr : ring.tryRecv head = .ok (some message)) : messageAt N ring head = some message := by
  rw [Ring.tryRecv] at hr
  split at hr
  · rename_i hlt
    have htail := h.tail.2 (by omega)
    obtain ⟨hlag, -⟩ | ⟨x, hx, hok⟩ := h.recv hle (by omega)
    · rw [hlag] at hr
      cases hr
    · rw [hok, Except.ok.injEq, Option.some.injEq] at hr
      exact messageAt_eq_some.mpr ⟨hle, x, hx, hr⟩
  · cases hr

/-- The ring has nothing for a position that has not been published. -/
theorem tryRecv_of_tail_le (h : ring.view.tail ≤ head) : ring.tryRecv head = .ok none :=
  if_neg (Nat.not_lt.mpr h)

namespace MessagesCache

@[simp] theorem touch_mask (cache : MessagesCache) (head : ℕ) :
    (cache.touch head).mask = cache.mask := by
  rw [touch]
  split <;> rfl

@[simp] theorem touch_buffer (cache : MessagesCache) (head : ℕ) :
    (cache.touch head).buffer = cache.buffer := by
  rw [touch]
  split <;> rfl

@[simp] theorem save_mask (cache : MessagesCache) (head : ℕ) (item : ParsedMessage) :
    (cache.save head item).mask = cache.mask := by
  rw [save]
  split <;> rfl

/-- The newest position asked for is not before the one asked for now. -/
theorem le_touch_head (cache : MessagesCache) (head : ℕ) : head ≤ (cache.touch head).head := by
  rw [touch]
  split
  · exact Nat.le_refl head
  · rename_i hle
    exact Nat.not_lt.mp hle

/-- Cells without a message are as they have been made, with the position `u64::MAX`. -/
def Blank (cache : MessagesCache) : Prop :=
  ∀ i, (cache.buffer i).msg = none → (cache.buffer i).pos = 2 ^ 64 - 1

theorem Blank.new (maxMessages : ℕ) : Blank (new maxMessages) := fun _ _ => rfl

theorem Blank.touch (h : Blank cache) (head : ℕ) : Blank (cache.touch head) := by
  rw [Blank, touch_buffer]
  exact h

theorem Blank.save (h : Blank cache) (head : ℕ) (item : ParsedMessage) :
    Blank (cache.save head item) := by
  rw [MessagesCache.save]
  split
  · intro i hnone
    by_cases hi : i = cache.getIdx head
    · subst hi
      simp only [Function.update_self] at hnone
      cases hnone
    · simp only [Function.update_of_ne hi] at hnone ⊢
      exact h i hnone
  · exact h

/-- A cell without a message answers only at the last position there is. -/
theorem Blank.cached (h : Blank cache) (hc : cache.cached head = some none) :
    head = 2 ^ 64 - 1 := by
  simp only [MessagesCache.cached] at hc
  split at hc
  · rename_i hpos
    have hblank := h _ (Option.some.inj hc)
    rw [← hblank, hpos.2]
  · cases hc

/-- What a call does: it answers from the cell, or passes on what the ring
answers and saves it. -/
theorem tryRecv_cases (cache : MessagesCache) (direct : ℕ → Recv) (head : ℕ) :
    (∃ msg, (cache.touch head).cached head = some msg ∧
      cache.tryRecv direct head = (cache.touch head, .ok msg)) ∨
    (∃ item, direct head = .ok (some item) ∧
      cache.tryRecv direct head = ((cache.touch head).save head item, .ok (some item))) ∨
    ((∀ item, direct head ≠ .ok (some item)) ∧
      cache.tryRecv direct head = (cache.touch head, direct head)) := by
  rw [tryRecv]
  cases hc : (cache.touch head).cached head with
  | some msg =>
    left
    exact ⟨msg, rfl, rfl⟩
  | none =>
    right
    cases hd : direct head with
    | error e =>
      right
      exact ⟨(fun _ h => by cases h), rfl⟩
    | ok msg =>
      cases msg with
      | none =>
        right
        exact ⟨(fun _ h => by cases h), rfl⟩
      | some item =>
        left
        exact ⟨item, rfl, rfl⟩

end MessagesCache

namespace CachedRing

/-- What the writes and the calls keep. -/
structure Inv (N M : ℕ) (sys : CachedRing) : Prop where
  ring : sys.ring.Inv N
  faithful : sys.cache.Faithful N sys.ring
  blank : sys.cache.Blank
  mask : sys.cache.mask = M - 1

theorem Inv.new (hN : ∃ k, N = 2 ^ k) : Inv N M { ring := .new N, cache := .new M } where
  ring := .new hN
  faithful := .new N _ M
  blank := .new M
  mask := rfl

theorem Inv.write (h : sys.Inv N M) (hs : sys.ring.Step ring) :
    Inv N M { sys with ring := ring } :=
  { h with
    ring := hs.inv h.ring
    faithful := h.faithful.step hs }

theorem Inv.recv (h : sys.Inv N M) (hle : N ≤ head) :
    Inv N M { sys with cache := (sys.cache.tryRecv sys.ring.tryRecv head).1 } := by
  have hmask : (sys.cache.touch head).mask = M - 1 := by
    rw [MessagesCache.touch_mask, h.mask]
  obtain ⟨_, -, heq⟩ | ⟨item, hd, heq⟩ | ⟨-, heq⟩ :=
    sys.cache.tryRecv_cases sys.ring.tryRecv head
  · rw [heq]
    exact ⟨h.ring, h.faithful.touch head, h.blank.touch head, hmask⟩
  · rw [heq]
    have hm := messageAt_of_tryRecv h.ring hle hd
    exact ⟨h.ring, (h.faithful.touch head).save hm, (h.blank.touch head).save head item,
      (MessagesCache.save_mask ..).trans hmask⟩
  · rw [heq]
    exact ⟨h.ring, h.faithful.touch head, h.blank.touch head, hmask⟩

theorem Reachable.inv (hN : ∃ k, N = 2 ^ k) (h : Reachable N M sys) : sys.Inv N M := by
  induction h with
  | new => exact .new hN
  | write _ ring hs ih => exact ih.write hs
  | recv _ head hle ih => exact ih.recv hle

/-- The three ways a call is answered all give the message of the position. -/
theorem Inv.received (h : sys.Inv N M) (hle : N ≤ head)
    (hr : (sys.cache.tryRecv sys.ring.tryRecv head).2 = .ok (some message)) :
    messageAt N sys.ring head = some message := by
  obtain ⟨msg, hc, heq⟩ | ⟨item, hd, heq⟩ | ⟨hd, heq⟩ :=
    sys.cache.tryRecv_cases sys.ring.tryRecv head
  · rw [heq, Except.ok.injEq] at hr
    rw [hr] at hc
    exact (h.faithful.touch head).cached hc
  · rw [heq, Except.ok.injEq, Option.some.injEq] at hr
    rw [hr] at hd
    exact messageAt_of_tryRecv h.ring hle hd
  · rw [heq] at hr
    exact absurd hr (hd message)

/-- A position found in a cell without a message has not been published. -/
theorem Inv.tail_le_of_cached (h : sys.Inv N M) (hfits : sys.ring.view.tail < 2 ^ 64)
    (hc : (sys.cache.touch head).cached head = some none) : sys.ring.view.tail ≤ head := by
  have hlast := (h.blank.touch head).cached hc
  omega

theorem Inv.direct (h : sys.Inv N M) (hfits : sys.ring.view.tail < 2 ^ 64) (hle : N ≤ head)
    (hr : sys.ring.tryRecv head = .ok (some message)) :
    (sys.cache.tryRecv sys.ring.tryRecv head).2 = .ok (some message) := by
  obtain ⟨msg, hc, heq⟩ | ⟨item, hd, heq⟩ | ⟨hd, -⟩ :=
    sys.cache.tryRecv_cases sys.ring.tryRecv head
  · cases msg with
    | none =>
      rw [tryRecv_of_tail_le (h.tail_le_of_cached hfits hc)] at hr
      cases hr
    | some found =>
      have hfound := (h.faithful.touch head).cached hc
      rw [messageAt_of_tryRecv h.ring hle hr, Option.some.injEq] at hfound
      rw [heq, hfound]
  · rw [heq, ← hd, hr]
  · exact absurd hr (hd message)

theorem Inv.empty (h : sys.Inv N M) (hfits : sys.ring.view.tail < 2 ^ 64)
    (hr : (sys.cache.tryRecv sys.ring.tryRecv head).2 = .ok none) :
    sys.ring.tryRecv head = .ok none := by
  obtain ⟨msg, hc, heq⟩ | ⟨item, hd, heq⟩ | ⟨hd, heq⟩ :=
    sys.cache.tryRecv_cases sys.ring.tryRecv head
  · rw [heq, Except.ok.injEq] at hr
    rw [hr] at hc
    exact tryRecv_of_tail_le (h.tail_le_of_cached hfits hc)
  · rw [heq] at hr
    cases hr
  · rwa [heq] at hr

/-- The newest position is at least the one asked for now, so at least `N`. -/
theorem Inv.noUnderflow (h : sys.Inv N M) (hMN : M ≤ N) (hle : N ≤ head) :
    (sys.cache.touch head).mask ≤ (sys.cache.touch head).head := by
  have hhead := sys.cache.le_touch_head head
  rw [MessagesCache.touch_mask, h.mask]
  omega

theorem Inv.indexed (h : sys.Inv N M) (hM : ∃ k, M = 2 ^ k) (head : ℕ) :
    sys.cache.getIdx head < M := by
  obtain ⟨k, rfl⟩ := hM
  have hpos : 0 < 2 ^ k := Nat.two_pow_pos k
  have hmask : sys.cache.mask + 1 = 2 ^ k := by
    rw [h.mask]
    omega
  rw [MessagesCache.getIdx, RingLog.and_mask_eq_mod hmask, hmask]
  exact Nat.mod_lt _ hpos

/-- However writes and calls have followed each other, a call at a position from
`N` on answers as the ring does, or with a message the ring has lost. Positions
are 64-bit, that of the next message included. -/
theorem tryRecv_transparent (hN : ∃ k, N = 2 ^ k) (hM : ∃ k, M = 2 ^ k) (hMN : M ≤ N)
    (h : Reachable N M sys) (hfits : sys.ring.view.tail < 2 ^ 64) (hle : N ≤ head) :
    Transparent N M sys head := by
  have hinv := h.inv hN
  constructor
  · intro message hr
    exact hinv.received hle hr
  · intro message hr
    exact hinv.direct hfits hle hr
  · intro hr
    exact hinv.empty hfits hr
  · exact hinv.noUnderflow hMN hle
  · exact hinv.indexed hM head

theorem Reachable.writes (h : Reachable N M sys)
    (hs : Relation.ReflTransGen Ring.Step sys.ring ring) :
    Reachable N M { sys with ring := ring } := by
  induction hs with
  | refl => exact h
  | tail _ hstep ih => exact ih.write _ hstep

theorem Reachable.run (h : Reachable N M sys) (op : RingOp) (hidle : sys.ring.todo = [])
    (halive : sys.ring.panicked = false) :
    Reachable N M { sys with ring := sys.ring.run op } :=
  h.writes (Ring.run_steps op hidle halive)

/-- A client has read the first of two messages through a cache of two cells. Two
pushes later the ring of two cells has lost it, and the cache still answers. -/
theorem tryRecv_transparent_lost : ∃ (sys : CachedRing) (message : ParsedMessage),
    sys.ring.tryRecv 2 = .error .lagged ∧
    (sys.cache.tryRecv sys.ring.tryRecv 2).2 = .ok (some message) ∧
    messageAt 2 sys.ring 2 = some message ∧ Transparent 2 2 sys 2 := by
  have h₁ := (Reachable.new (N := 2) (M := 2)).run (.push (slotUpdate 1 3)) rfl rfl
  have h₂ := h₁.run (.push (slotUpdate 1 5)) rfl (by decide +kernel)
  have h₃ := h₂.recv 2 (Nat.le_refl 2)
  have h₄ := h₃.run (.push (slotUpdate 1 7)) rfl (by decide +kernel)
  have ht := tryRecv_transparent ⟨1, rfl⟩ ⟨1, rfl⟩ (Nat.le_refl 2) h₄
    (by decide +kernel) (Nat.le_refl 2)
  exact ⟨_, (slotUpdate 1 3).2, by decide +kernel, by decide +kernel, by decide +kernel, ht⟩

end CachedRing

end

end Dragonmouth.Grpc
