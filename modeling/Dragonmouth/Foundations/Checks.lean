import Mathlib.Data.List.Forall2

/-!
# Checks that may fail

Rules for computations in `Except`: what is known once a sequence, a loop or a
traversal has succeeded, or where it has failed.

## Main definitions

- `Checks.check`: a condition and the error it is refused with
- `bind_eq_ok`, `forM_eq_ok`, `mapM_eq_ok`, `forM_eq_error`: the rules
- `Checks.Reaches`: a loop comes to an element, having passed those before it
- `Checks.Avoids`: a computation does not fail with an error
-/

namespace Checks

variable {ε ε' α β : Type}

/-- Refuse with an error unless the condition holds. -/
def check (p : Prop) [Decidable p] (error : ε) : Except ε Unit :=
  if p then .ok () else .error error

@[simp] theorem check_eq_ok {p : Prop} [Decidable p] {error : ε} {u : Unit} :
    check p error = .ok u ↔ p := by
  rw [check]
  split
  · rename_i hp
    exact iff_of_true rfl hp
  · rename_i hp
    exact iff_of_false (fun h => by cases h) hp

/-- A sequence succeeds if both parts do. -/
theorem bind_eq_ok {x : Except ε α} {f : α → Except ε β} {b : β} :
    (x >>= f) = .ok b ↔ ∃ a, x = .ok a ∧ f a = .ok b := by
  cases x with
  | error e =>
    refine iff_of_false (fun h => by cases h) ?_
    rintro ⟨a, ha, -⟩
    cases ha
  | ok a =>
    refine ⟨fun h => ⟨a, rfl, h⟩, ?_⟩
    rintro ⟨a', ha, h⟩
    cases ha
    exact h

/-- A sequence of checks succeeds if each of them does. -/
theorem then_eq_ok {x : Except ε Unit} {y : Except ε β} {b : β} :
    (x >>= fun _ => y) = .ok b ↔ x = .ok () ∧ y = .ok b := by
  rw [bind_eq_ok]
  exact ⟨fun ⟨_, hx, hy⟩ => ⟨hx, hy⟩, fun ⟨hx, hy⟩ => ⟨(), hx, hy⟩⟩

theorem map_eq_ok {x : Except ε α} {f : α → β} {b : β} :
    x.map f = .ok b ↔ ∃ a, x = .ok a ∧ f a = b := by
  cases x with
  | error e =>
    refine iff_of_false (fun h => by cases h) ?_
    rintro ⟨a, ha, -⟩
    cases ha
  | ok a =>
    refine ⟨fun h => ⟨a, rfl, Except.ok.inj h⟩, ?_⟩
    rintro ⟨a', ha, rfl⟩
    cases ha
    rfl

theorem mapError_eq_ok {x : Except ε α} {f : ε → ε'} {a : α} :
    x.mapError f = .ok a ↔ x = .ok a := by
  cases x with
  | error e => exact iff_of_false (fun h => by cases h) fun h => by cases h
  | ok b => exact ⟨fun h => congrArg Except.ok (Except.ok.inj h), fun h => by cases h; rfl⟩

/-- A loop of checks succeeds if the check of each element does. -/
theorem forM_eq_ok {xs : List α} {f : α → Except ε Unit} :
    xs.forM f = .ok () ↔ ∀ x ∈ xs, f x = .ok () := by
  induction xs with
  | nil => exact iff_of_true rfl fun _ hx => absurd hx List.not_mem_nil
  | cons x xs ih =>
    rw [List.forM_eq_forM, List.forM_cons, then_eq_ok, ← List.forM_eq_forM, ih,
      List.forall_mem_cons]

/-- A traversal succeeds with the results of the elements. -/
theorem mapM_eq_ok {xs : List α} {f : α → Except ε β} {ys : List β} :
    xs.mapM f = .ok ys ↔ List.Forall₂ (fun x y => f x = .ok y) xs ys := by
  induction xs generalizing ys with
  | nil =>
    rw [List.mapM_nil, List.forall₂_nil_left_iff]
    exact ⟨fun h => (Except.ok.inj h).symm, fun h => h ▸ rfl⟩
  | cons x xs ih =>
    rw [List.mapM_cons, bind_eq_ok, List.forall₂_cons_left_iff]
    constructor
    · rintro ⟨y, hy, h⟩
      obtain ⟨ys', hys, h'⟩ := bind_eq_ok.mp h
      exact ⟨y, ys', hy, ih.mp hys, (Except.ok.inj h').symm⟩
    · rintro ⟨y, ys', hy, hys, rfl⟩
      exact ⟨y, hy, bind_eq_ok.mpr ⟨ys', ih.mpr hys, rfl⟩⟩

theorem bind_eq_error {x : Except ε α} {f : α → Except ε β} {e : ε} :
    (x >>= f) = .error e ↔ x = .error e ∨ ∃ a, x = .ok a ∧ f a = .error e := by
  cases x with
  | error e' =>
    refine ⟨fun h => .inl (congrArg Except.error (Except.error.inj h)), ?_⟩
    rintro (h | ⟨a, ha, -⟩)
    · exact congrArg Except.error (Except.error.inj h)
    · cases ha
  | ok a =>
    refine ⟨fun h => .inr ⟨a, rfl, h⟩, ?_⟩
    rintro (h | ⟨a', ha, h⟩)
    · cases h
    · cases ha
      exact h

/-- A sequence of checks fails where the first of them fails. -/
theorem then_eq_error {x : Except ε Unit} {y : Except ε β} {e : ε} :
    (x >>= fun _ => y) = .error e ↔ x = .error e ∨ x = .ok () ∧ y = .error e := by
  rw [bind_eq_error]
  exact or_congr_right ⟨fun ⟨_, hx, hy⟩ => ⟨hx, hy⟩, fun h => ⟨(), h⟩⟩

/-- A function that undoes the steps of a traversal undoes the traversal. -/
theorem map_of_mapM_ok {xs : List α} {f : α → Except ε β} {ys : List β} {g : β → α}
    (h : xs.mapM f = .ok ys) (hg : ∀ x y, f x = .ok y → g y = x) : ys.map g = xs := by
  have hall := mapM_eq_ok.mp h
  clear h
  induction hall with
  | nil => rfl
  | cons hxy _ ih => rw [List.map_cons, hg _ _ hxy, ih]

/-- Lists that are related element by element: what stands on the right of one. -/
theorem exists_right {R : α → β → Prop} {xs : List α} {ys : List β} (h : List.Forall₂ R xs ys)
    {x : α} (hx : x ∈ xs) : ∃ y ∈ ys, R x y := by
  induction h with
  | nil => exact absurd hx List.not_mem_nil
  | cons hxy _ ih =>
    rcases List.mem_cons.mp hx with rfl | hx
    · exact ⟨_, List.mem_cons_self, hxy⟩
    · obtain ⟨y, hy, hr⟩ := ih hx
      exact ⟨y, List.mem_cons_of_mem _ hy, hr⟩

theorem exists_left {R : α → β → Prop} {xs : List α} {ys : List β} (h : List.Forall₂ R xs ys)
    {y : β} (hy : y ∈ ys) : ∃ x ∈ xs, R x y :=
  exists_right h.flip hy

/-- A traversal that undoes a map gives the elements back. -/
theorem mapM_map_eq_ok {xs : List α} {g : α → β} {f : β → Except ε α}
    (h : ∀ x ∈ xs, f (g x) = .ok x) : (xs.map g).mapM f = .ok xs := by
  rw [mapM_eq_ok, List.forall₂_map_left_iff, List.forall₂_same]
  exact h

/-- Going along a list as long as `P` holds, one comes to an element with `Q`. -/
def Reaches (P Q : α → Prop) (xs : List α) : Prop :=
  ∃ (i : ℕ) (x : α), xs[i]? = some x ∧ Q x ∧ ∀ (j : ℕ) (y : α), j < i → xs[j]? = some y → P y

section Reaches

variable {P Q : α → Prop} {x : α} {xs : List α}

theorem not_reaches_nil : ¬Reaches P Q [] := by
  rintro ⟨i, x, hx, -⟩
  cases hx

theorem reaches_cons : Reaches P Q (x :: xs) ↔ Q x ∨ P x ∧ Reaches P Q xs := by
  constructor
  · rintro ⟨i, y, hy, hq, hbefore⟩
    cases i with
    | zero =>
      left
      rwa [Option.some.inj hy]
    | succ i =>
      right
      refine ⟨hbefore 0 x (Nat.succ_pos i) rfl, i, y, hy, hq, ?_⟩
      intro j z hj hz
      exact hbefore (j + 1) z (Nat.succ_lt_succ hj) hz
  · rintro (hq | ⟨hp, i, y, hy, hq, hbefore⟩)
    · exact ⟨0, x, rfl, hq, fun j _ hj => absurd hj (Nat.not_lt_zero j)⟩
    · refine ⟨i + 1, y, hy, hq, ?_⟩
      intro j z hj hz
      cases j with
      | zero => rwa [← Option.some.inj hz]
      | succ j => exact hbefore j z (Nat.lt_of_succ_lt_succ hj) hz

/-- Elements that are left out are passed. -/
theorem reaches_filterMap {f : β → Option α} {ys : List β} :
    Reaches P Q (ys.filterMap f) ↔
      Reaches (fun y => ∀ x, f y = some x → P x) (fun y => ∃ x, f y = some x ∧ Q x) ys := by
  induction ys with
  | nil => exact iff_of_false not_reaches_nil not_reaches_nil
  | cons y ys ih =>
    rw [reaches_cons, ← ih]
    cases hf : f y with
    | none =>
      rw [List.filterMap_cons_none hf]
      simp
    | some x =>
      rw [List.filterMap_cons_some hf, reaches_cons]
      simp

theorem Reaches.imp {P' Q' : α → Prop} (h : Reaches P Q xs) (hp : ∀ y ∈ xs, P y → P' y)
    (hq : ∀ y ∈ xs, Q y → Q' y) : Reaches P' Q' xs := by
  obtain ⟨i, x, hx, hqx, hbefore⟩ := h
  refine ⟨i, x, hx, hq x (List.mem_of_getElem? hx) hqx, ?_⟩
  intro j y hj hy
  exact hp y (List.mem_of_getElem? hy) (hbefore j y hj hy)

/-- Among the first elements. -/
theorem reaches_take {n : ℕ} : Reaches P Q (xs.take n) ↔
    ∃ (i : ℕ) (x : α), i < n ∧ xs[i]? = some x ∧ Q x ∧
      ∀ (j : ℕ) (y : α), j < i → xs[j]? = some y → P y := by
  constructor
  · rintro ⟨i, x, hx, hq, hbefore⟩
    rw [List.getElem?_take] at hx
    split at hx
    · rename_i hlt
      refine ⟨i, x, hlt, hx, hq, ?_⟩
      intro j y hj hy
      exact hbefore j y hj (by rw [List.getElem?_take_of_lt (Nat.lt_trans hj hlt), hy])
    · cases hx
  · rintro ⟨i, x, hlt, hx, hq, hbefore⟩
    refine ⟨i, x, by rw [List.getElem?_take_of_lt hlt, hx], hq, ?_⟩
    intro j y hj hy
    rw [List.getElem?_take_of_lt (Nat.lt_trans hj hlt)] at hy
    exact hbefore j y hj hy

/-- A loop of checks fails with the error of the first check that fails. -/
theorem forM_eq_error {f : α → Except ε Unit} {e : ε} :
    xs.forM f = .error e ↔ Reaches (fun x => f x = .ok ()) (fun x => f x = .error e) xs := by
  induction xs with
  | nil => exact iff_of_false (fun h => by cases h) not_reaches_nil
  | cons x xs ih =>
    rw [List.forM_eq_forM, List.forM_cons, then_eq_error, ← List.forM_eq_forM, ih, reaches_cons]

end Reaches

/-- A computation does not fail with an error. -/
def Avoids (e : ε) (x : Except ε α) : Prop := x ≠ .error e

namespace Avoids

variable {e : ε}

theorem ok (a : α) : Avoids e (.ok a) := fun h => by cases h

theorem check {p : Prop} [Decidable p] {error : ε} (h : error ≠ e) :
    Avoids e (Checks.check p error) := by
  intro hc
  rw [Checks.check] at hc
  split at hc
  · cases hc
  · exact h (Except.error.inj hc)

/-- A sequence avoids what both parts avoid. -/
theorem seq {x : Except ε Unit} {y : Except ε β} (hx : Avoids e x) (hy : Avoids e y) :
    Avoids e (x >>= fun _ => y) := by
  intro h
  obtain h | ⟨-, h⟩ := then_eq_error.mp h
  · exact hx h
  · exact hy h

theorem forM {xs : List α} {f : α → Except ε Unit} (h : ∀ x ∈ xs, Avoids e (f x)) :
    Avoids e (xs.forM f) := by
  intro he
  obtain ⟨i, x, hx, hf, -⟩ := forM_eq_error.mp he
  exact h x (List.mem_of_getElem? hx) hf

end Avoids

/-- Where the second part avoids an error, the first part makes it. -/
theorem then_eq_error_of_avoids {x : Except ε Unit} {y : Except ε β} {e : ε} (hy : Avoids e y) :
    (x >>= fun _ => y) = .error e ↔ x = .error e := by
  rw [then_eq_error]
  exact or_iff_left fun h => hy h.2

end Checks
