import Mathlib.Algebra.Group.Nat.Defs
import Dragonmouth.Foundations.Checks

/-!
# Arithmetic that may overflow

A computation with 64-bit numbers has two readings: one stops where a result does
not fit, the other wraps. As long as the first does not stop, both agree.

## Main definitions

- `Fault`: an overflow, or an error of the computation itself
- `addChecked`, `subChecked`: the operations that stop
- `Agrees`: what a reading that stops says about one that wraps
-/

namespace Overflow

open Checks

variable {ε α β : Type}

/-- What stops a computation that checks its arithmetic. -/
inductive Fault (ε : Type) where
  | overflow
  | error (error : ε)
  deriving DecidableEq

def addChecked (a b : ℕ) : Except (Fault ε) ℕ :=
  if a + b < 2 ^ 64 then .ok (a + b) else .error .overflow

def subChecked (a b : ℕ) : Except (Fault ε) ℕ :=
  if b ≤ a then .ok (a - b) else .error .overflow

section

variable {a b c : ℕ}

theorem addChecked_of_lt (h : a + b < 2 ^ 64) :
    addChecked a b = (.ok (a + b) : Except (Fault ε) ℕ) := if_pos h

theorem addChecked_of_le (h : 2 ^ 64 ≤ a + b) :
    addChecked a b = (.error .overflow : Except (Fault ε) ℕ) := if_neg (Nat.not_lt.mpr h)

theorem subChecked_of_le (h : b ≤ a) :
    subChecked a b = (.ok (a - b) : Except (Fault ε) ℕ) := if_pos h

theorem addChecked_eq_ok :
    addChecked a b = (.ok c : Except (Fault ε) ℕ) ↔ a + b < 2 ^ 64 ∧ a + b = c := by
  rw [addChecked]
  split
  · rename_i hlt
    rw [Except.ok.injEq, and_iff_right hlt]
  · rename_i hge
    exact iff_of_false (fun h => by cases h) fun h => hge h.1

end

/-- A comparison does not overflow. -/
theorem check_ne_overflow {p : Prop} [Decidable p] {e : ε} :
    Checks.check p (Fault.error e) ≠ .error .overflow := by
  rw [Checks.check]
  split
  · exact fun h => by cases h
  · exact fun h => by cases h

/-- The reading that checks its arithmetic stops at an overflow, or does what the
one that wraps does. -/
def Agrees (checked : Except (Fault ε) α) (wrapping : Except ε α) : Prop :=
  checked ≠ .error .overflow → checked = wrapping.mapError .error

namespace Agrees

variable {checked : Except (Fault ε) α} {wrapping : Except ε α}

/-- Without arithmetic both are the same. -/
theorem lift (x : Except ε α) : Agrees (x.mapError .error) x := fun _ => rfl

theorem ok (a : α) : Agrees (.ok a) (.ok a : Except ε α) := fun _ => rfl

theorem error (e : ε) : Agrees (.error (.error e)) (.error e : Except ε α) := fun _ => rfl

theorem add (a b : ℕ) : Agrees (addChecked a b) (.ok ((a + b) % 2 ^ 64) : Except ε ℕ) := by
  intro h
  by_cases hlt : a + b < 2 ^ 64
  · rw [addChecked_of_lt hlt, Nat.mod_eq_of_lt hlt]
    rfl
  · exact absurd (addChecked_of_le (Nat.not_lt.mp hlt)) h

theorem sub {a : ℕ} (b : ℕ) (ha : a < 2 ^ 64) :
    Agrees (subChecked a b) (.ok ((a + 2 ^ 64 - b) % 2 ^ 64) : Except ε ℕ) := by
  intro h
  by_cases hle : b ≤ a
  · rw [subChecked_of_le hle, Nat.sub_add_comm hle, Nat.add_mod_right,
      Nat.mod_eq_of_lt (Nat.lt_of_le_of_lt (Nat.sub_le a b) ha)]
    rfl
  · exact absurd (if_neg hle) h

/-- One step after the other. -/
theorem bind {f : α → Except (Fault ε) β} {g : α → Except ε β} (h : Agrees checked wrapping)
    (hfg : ∀ a, Agrees (f a) (g a)) : Agrees (checked >>= f) (wrapping >>= g) := by
  intro hne
  cases hc : checked with
  | error e =>
    have hstop : checked ≠ .error .overflow := by
      intro ho
      rw [ho] at hne
      exact hne rfl
    have heq := h hstop
    rw [hc] at heq
    cases wrapping with
    | error e' =>
      rw [Except.mapError, Except.error.injEq] at heq
      rw [heq]
      rfl
    | ok a => cases heq
  | ok a =>
    have heq := h (fun ho => by rw [ho] at hc; cases hc)
    rw [hc] at heq hne
    cases wrapping with
    | error e' => cases heq
    | ok a' =>
      obtain rfl : a = a' := Except.ok.inj heq
      exact hfg a hne

theorem ite {p : Prop} [Decidable p] {checked' : Except (Fault ε) α} {wrapping' : Except ε α}
    (h : Agrees checked wrapping) (h' : Agrees checked' wrapping') :
    Agrees (if p then checked else checked') (if p then wrapping else wrapping') := by
  split
  · exact h
  · exact h'

theorem check (p : Prop) [Decidable p] (e : ε) :
    Agrees (Checks.check p (Fault.error e)) (Checks.check p e) := ite (ok ()) (error e)

theorem forM {xs : List α} {f : α → Except (Fault ε) Unit} {g : α → Except ε Unit}
    (h : ∀ x, Agrees (f x) (g x)) : Agrees (xs.forM f) (xs.forM g) := by
  induction xs with
  | nil => exact ok ()
  | cons x xs ih => exact (h x).bind fun _ => ih

/-- What the reading that stops has returned, the other returns. -/
theorem of_ok {a : α} (h : Agrees checked wrapping) (hok : checked = .ok a) :
    wrapping = .ok a := by
  have heq := h (fun ho => by rw [ho] at hok; cases hok)
  rw [hok] at heq
  exact mapError_eq_ok.mp heq.symm

/-- Where nothing overflows, both return the same. -/
theorem ok_iff (h : Agrees checked wrapping) (hne : checked ≠ .error .overflow) {a : α} :
    checked = .ok a ↔ wrapping = .ok a := by
  rw [h hne, mapError_eq_ok]

end Agrees

end Overflow
