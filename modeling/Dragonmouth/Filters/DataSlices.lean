import Dragonmouth.Filters.Encode
import Dragonmouth.Filters.Limits
import Dragonmouth.Foundations.Overflow

/-!
# Slices of account data

A client chooses the offsets and the lengths of the slices freely. Their ends are
computed when the slices are checked and again when they are built, and their
lengths are summed up whenever data is copied, all in 64 bits. What slices are
admitted, and what is copied, is as it is meant unless an end does not fit, or the
lengths do not fit into one vector. Allocation is taken to succeed.

## Main definitions

- `ConfigLimitsAccounts.checkFilterChecked`, `FilterAccountDataSlices.newChecked`,
  `FilterAccountDataSlices.getSliceChecked`: the source with its arithmetic checked
- `SlicesExact`: slices are admitted and copied as they are meant
- `SlicesSafe`: when they are
-/

namespace Dragonmouth.Filters

open Checks Overflow

-- ════════════════════════════════════════════════════════════════════════
-- The source with its arithmetic checked
-- ════════════════════════════════════════════════════════════════════════

namespace ConfigLimitsAccounts

/-- A slice starts after the end of one before it. -/
def checkOverlapChecked (dsA sliceB : ConfigFilterAccountsDataSlice) :
    Except (Fault ConfigLimitsError) Unit := do
  let stop ← addChecked sliceB.offset sliceB.length
  check (¬dsA.offset < stop) (.error .dataSliceOverlap)

/-- The checks of the slice at an index. -/
def checkSliceChecked (dataSlices : List ConfigFilterAccountsDataSlice)
    (dsA : ConfigFilterAccountsDataSlice) (i : ℕ) : Except (Fault ConfigLimitsError) Unit := do
  (dataSlices.drop (i + 1)).forM fun dsB =>
    check (¬dsA.offset > dsB.offset) (.error .dataSliceOutOfOrder)
  (dataSlices.take i).forM fun sliceB => checkOverlapChecked dsA sliceB

def checkDataSlicesChecked (dataSlices : List ConfigFilterAccountsDataSlice) :
    Except (Fault ConfigLimitsError) Unit :=
  dataSlices.zipIdx.forM fun (dsA, i) => checkSliceChecked dataSlices dsA i

def checkFilterChecked (self : ConfigLimitsAccounts) (nameMax : ℕ)
    (filters : HashMap String ConfigFilterAccounts)
    (dataSlices : List ConfigFilterAccountsDataSlice) :
    Except (Fault ConfigLimitsError) Unit := do
  (checkSection filters nameMax self.max).mapError .error
  (filters.values.forM self.checkAccounts).mapError .error
  (ConfigLimits.checkMax dataSlices.length self.dataSliceMax).mapError .error
  checkDataSlicesChecked dataSlices

theorem checkDataSlicesChecked_agrees (dataSlices : List ConfigFilterAccountsDataSlice) :
    Agrees (checkDataSlicesChecked dataSlices) (checkDataSlices dataSlices) := by
  apply Agrees.forM
  rintro ⟨dsA, i⟩
  apply Agrees.bind
  · exact .forM fun dsB => .check _ _
  · intro _
    apply Agrees.forM
    intro sliceB
    exact (Agrees.add sliceB.offset sliceB.length).bind fun stop => .check _ _

theorem checkFilterChecked_agrees (limits : ConfigLimitsAccounts) (nameMax : ℕ)
    (filters : HashMap String ConfigFilterAccounts)
    (dataSlices : List ConfigFilterAccountsDataSlice) :
    Agrees (limits.checkFilterChecked nameMax filters dataSlices)
      (limits.checkFilter nameMax filters dataSlices) :=
  (Agrees.lift _).bind fun _ => (Agrees.lift _).bind fun _ => (Agrees.lift _).bind fun _ =>
    checkDataSlicesChecked_agrees dataSlices

end ConfigLimitsAccounts

namespace FilterAccountDataSlices

def newChecked : List ConfigFilterAccountsDataSlice →
    Except (Fault Panic) FilterAccountDataSlices
  | [] => .ok []
  | dataSlice :: dataSlices => do
    let stop ← addChecked dataSlice.offset dataSlice.length
    let rest ← newChecked dataSlices
    .ok ((dataSlice.offset, stop) :: rest)

/-- The sum of the lengths, from the one so far on. -/
def capacityChecked : ℕ → FilterAccountDataSlices → Except (Fault Panic) ℕ
  | sum, [] => .ok sum
  | sum, (start, stop) :: dataSlices => do
    let len ← subChecked stop start
    let sum ← addChecked sum len
    capacityChecked sum dataSlices

def getSliceChecked (dataSlices : FilterAccountDataSlices) (source : Bytes) :
    Except (Fault Panic) Bytes :=
  if dataSlices = [] then .ok source
  else do
    let capacity ← capacityChecked 0 dataSlices
    if capacity ≥ 2 ^ 63 then .error (.error .capacityOverflow)
    else (copySlices source dataSlices).mapError .error

theorem newChecked_agrees (dataSlices : List ConfigFilterAccountsDataSlice) :
    Agrees (newChecked dataSlices) (.ok (new dataSlices)) := by
  induction dataSlices with
  | nil => exact .ok []
  | cons dataSlice dataSlices ih =>
    exact (Agrees.add dataSlice.offset dataSlice.length).bind fun stop =>
      ih.bind fun rest => .ok ((dataSlice.offset, stop) :: rest)

/-- A sum that wraps at each step wraps once. -/
theorem foldl_wrapping {sum : ℕ} (hsum : sum < 2 ^ 64) (lens : List ℕ) :
    lens.foldl (fun sum len => (sum + len) % 2 ^ 64) sum = (sum + lens.sum) % 2 ^ 64 := by
  induction lens generalizing sum with
  | nil => exact (Nat.mod_eq_of_lt hsum).symm
  | cons len lens ih =>
    rw [List.foldl_cons, ih (Nat.mod_lt _ (by decide)), Nat.mod_add_mod, List.sum_cons,
      Nat.add_assoc]

theorem capacityChecked_agrees {dataSlices : FilterAccountDataSlices}
    (hstops : ∀ slice ∈ dataSlices, slice.2 < 2 ^ 64) (sum : ℕ) :
    Agrees (capacityChecked sum dataSlices)
      (.ok ((dataSlices.map fun (start, stop) => (stop + 2 ^ 64 - start) % 2 ^ 64).foldl
        (fun sum len => (sum + len) % 2 ^ 64) sum)) := by
  induction dataSlices generalizing sum with
  | nil => exact .ok sum
  | cons slice dataSlices ih =>
    obtain ⟨start, stop⟩ := slice
    obtain ⟨hstop, hrest⟩ := List.forall_mem_cons.mp hstops
    exact (Agrees.sub start hstop).bind fun len =>
      (Agrees.add sum len).bind fun sum => ih hrest sum

/-- The sum wraps once. -/
theorem capacity_agrees {dataSlices : FilterAccountDataSlices}
    (hstops : ∀ slice ∈ dataSlices, slice.2 < 2 ^ 64) :
    Agrees (capacityChecked 0 dataSlices) (.ok dataSlices.capacity) := by
  have h := capacityChecked_agrees hstops 0
  rwa [foldl_wrapping (by decide), Nat.zero_add] at h

theorem getSliceChecked_agrees {dataSlices : FilterAccountDataSlices}
    (hstops : ∀ slice ∈ dataSlices, slice.2 < 2 ^ 64) (source : Bytes) :
    Agrees (getSliceChecked dataSlices source) (dataSlices.getSlice source) := by
  rw [getSliceChecked, getSlice]
  split
  · exact .ok source
  · refine (capacity_agrees hstops).bind (g := fun capacity =>
      if capacity ≥ 2 ^ 63 then .error .capacityOverflow else copySlices source dataSlices)
      fun capacity => ?_
    split
    · exact .error _
    · exact .lift _

end FilterAccountDataSlices

-- ════════════════════════════════════════════════════════════════════════
-- What is meant
-- ════════════════════════════════════════════════════════════════════════

/-- The end of a slice, in exact numbers. -/
def ConfigFilterAccountsDataSlice.stop (dataSlice : ConfigFilterAccountsDataSlice) : ℕ :=
  dataSlice.offset + dataSlice.length

/-- Every slice starts where those before it have ended, or after. -/
def SlicesApart (dataSlices : List ConfigFilterAccountsDataSlice) : Prop :=
  dataSlices.Pairwise fun a b => a.stop ≤ b.offset

/-- All of the data, or the slices that lie within it. -/
def slicesOf (dataSlices : List ConfigFilterAccountsDataSlice) (data : Bytes) : Bytes :=
  if dataSlices = [] then data
  else (dataSlices.filter fun s => s.stop ≤ data.length).flatMap fun s =>
    (data.drop s.offset).take s.length

/-- Slices are admitted if they are apart, and those admitted are copied, without an
overflow or a panic. -/
structure SlicesExact (limits : ConfigLimitsAccounts) (nameMax : ℕ)
    (filters : HashMap String ConfigFilterAccounts)
    (dataSlices : List ConfigFilterAccountsDataSlice) : Prop where
  noOverflow : limits.checkFilterChecked nameMax filters dataSlices ≠ .error .overflow
  accepts : limits.checkFilter nameMax filters dataSlices = .ok () ↔ SlicesApart dataSlices
  copies : limits.checkFilter nameMax filters dataSlices = .ok () → ∀ data,
    FilterAccountDataSlices.newChecked dataSlices = .ok (.new dataSlices) ∧
    FilterAccountDataSlices.getSliceChecked (.new dataSlices) data =
      .ok (slicesOf dataSlices data) ∧
    FilterAccountDataSlices.getSlice (.new dataSlices) data = .ok (slicesOf dataSlices data)

/-- The checks refuse the slices before they add up the end of the slice `k`: two
slices are out of order, or overlap, and are compared before. -/
def StopsBefore (dataSlices : List ConfigFilterAccountsDataSlice) (k : ℕ) : Prop :=
  ∃ (i j : ℕ) (a b : ConfigFilterAccountsDataSlice), i < j ∧
    dataSlices[i]? = some a ∧ dataSlices[j]? = some b ∧
    (i ≤ k + 1 ∧ b.offset < a.offset ∨ i < k ∧ j ≤ k + 1 ∧ b.offset < a.stop)

/-- No end that does not fit is added up, and the lengths of slices that are apart
fit into one vector. -/
structure SlicesSafe (dataSlices : List ConfigFilterAccountsDataSlice) : Prop where
  stops : ∀ k a, dataSlices[k]? = some a → 2 ^ 64 ≤ a.stop → StopsBefore dataSlices k
  fits : SlicesApart dataSlices →
    (dataSlices.map ConfigFilterAccountsDataSlice.length).sum < 2 ^ 63

section

variable {dataSlices : List ConfigFilterAccountsDataSlice} {k : ℕ}
  {a : ConfigFilterAccountsDataSlice}

/-- The pairs that are compared before are in order, and apart. -/
theorem not_stopsBefore_iff : ¬StopsBefore dataSlices k ↔
    (∀ i j x y, i ≤ k + 1 → i < j → dataSlices[i]? = some x → dataSlices[j]? = some y →
      x.offset ≤ y.offset) ∧
    ∀ i j x y, i < k → j ≤ k + 1 → i < j → dataSlices[i]? = some x → dataSlices[j]? = some y →
      x.stop ≤ y.offset := by
  constructor
  · intro hnot
    constructor
    · intro i j x y hi hij hx hy
      by_contra hlt
      exact hnot ⟨i, j, x, y, hij, hx, hy, .inl ⟨hi, Nat.not_le.mp hlt⟩⟩
    · intro i j x y hi hj hij hx hy
      by_contra hlt
      exact hnot ⟨i, j, x, y, hij, hx, hy, .inr ⟨hi, hj, Nat.not_le.mp hlt⟩⟩
  · rintro ⟨horder, happart⟩ ⟨i, j, x, y, hij, hx, hy, ⟨hi, hlt⟩ | ⟨hi, hj, hlt⟩⟩
    · exact absurd (horder i j x y hi hij hx hy) (Nat.not_le.mpr hlt)
    · exact absurd (happart i j x y hi hj hij hx hy) (Nat.not_le.mpr hlt)

theorem SlicesApart.le (h : SlicesApart dataSlices) {i j : ℕ}
    {b : ConfigFilterAccountsDataSlice} (hij : i < j) (ha : dataSlices[i]? = some a)
    (hb : dataSlices[j]? = some b) : a.stop ≤ b.offset := by
  obtain ⟨hi, rfl⟩ := List.getElem?_eq_some_iff.mp ha
  obtain ⟨hj, rfl⟩ := List.getElem?_eq_some_iff.mp hb
  exact List.pairwise_iff_getElem.mp h i j hi hj hij

theorem slicesApart_of_le (h : ∀ (i j : ℕ) (a b : ConfigFilterAccountsDataSlice), i < j →
    dataSlices[i]? = some a → dataSlices[j]? = some b → a.stop ≤ b.offset) :
    SlicesApart dataSlices := by
  rw [SlicesApart, List.pairwise_iff_getElem]
  intro i j hi hj hij
  exact h i j _ _ hij (List.getElem?_eq_getElem hi) (List.getElem?_eq_getElem hj)

/-- Slices that are apart are not refused. -/
theorem SlicesApart.not_stopsBefore (h : SlicesApart dataSlices) : ¬StopsBefore dataSlices k := by
  rintro ⟨i, j, a, b, hij, ha, hb, hless⟩
  have hle := h.le hij ha hb
  rw [ConfigFilterAccountsDataSlice.stop] at hle hless
  omega

theorem StopsBefore.mono {k' : ℕ} (h : StopsBefore dataSlices k) (hle : k ≤ k') :
    StopsBefore dataSlices k' := by
  obtain ⟨i, j, a, b, hij, ha, hb, hless⟩ := h
  exact ⟨i, j, a, b, hij, ha, hb, by omega⟩

-- ════════════════════════════════════════════════════════════════════════
-- The checks
-- ════════════════════════════════════════════════════════════════════════

theorem forall_mem_drop {α : Type} {xs : List α} {n : ℕ} {P : α → Prop} :
    (∀ x ∈ xs.drop n, P x) ↔ ∀ j x, n ≤ j → xs[j]? = some x → P x := by
  constructor
  · intro h j x hj hx
    apply h x
    apply List.mem_of_getElem? (i := j - n)
    rw [List.getElem?_drop, Nat.add_sub_cancel' hj, hx]
  · intro h x hx
    obtain ⟨j, hj⟩ := List.mem_iff_getElem?.mp hx
    rw [List.getElem?_drop] at hj
    exact h (n + j) x (Nat.le_add_right n j) hj

theorem forall_mem_take {α : Type} {xs : List α} {n : ℕ} {P : α → Prop} :
    (∀ x ∈ xs.take n, P x) ↔ ∀ j x, j < n → xs[j]? = some x → P x := by
  constructor
  · intro h j x hj hx
    apply h x
    apply List.mem_of_getElem? (i := j)
    rw [List.getElem?_take_of_lt hj, hx]
  · intro h x hx
    obtain ⟨j, hj⟩ := List.mem_iff_getElem?.mp hx
    rw [List.getElem?_take] at hj
    split at hj
    · rename_i hlt
      exact h j x hlt hj
    · cases hj

namespace ConfigLimitsAccounts

theorem checkOverlapChecked_eq_ok {b : ConfigFilterAccountsDataSlice} :
    checkOverlapChecked a b = .ok () ↔ b.stop < 2 ^ 64 ∧ b.stop ≤ a.offset := by
  rw [checkOverlapChecked, bind_eq_ok]
  simp only [addChecked_eq_ok, check_eq_ok, not_lt]
  constructor
  · rintro ⟨stop, ⟨hfits, rfl⟩, hle⟩
    exact ⟨hfits, hle⟩
  · rintro ⟨hfits, hle⟩
    exact ⟨_, ⟨hfits, rfl⟩, hle⟩

theorem checkOverlapChecked_eq_overflow {b : ConfigFilterAccountsDataSlice} :
    checkOverlapChecked a b = .error .overflow ↔ 2 ^ 64 ≤ b.stop := by
  rw [checkOverlapChecked]
  by_cases hfits : b.offset + b.length < 2 ^ 64
  · rw [addChecked_of_lt hfits]
    refine iff_of_false ?_ (Nat.not_le.mpr hfits)
    exact check_ne_overflow
  · rw [addChecked_of_le (Nat.not_lt.mp hfits)]
    exact iff_of_true rfl (Nat.not_lt.mp hfits)

/-- A comparison of offsets does not overflow. -/
theorem order_ne_overflow {bs : List ConfigFilterAccountsDataSlice} :
    (bs.forM fun b => check (¬a.offset > b.offset)
      (Fault.error ConfigLimitsError.dataSliceOutOfOrder)) ≠ .error .overflow := by
  rw [Ne, forM_eq_error]
  rintro ⟨i, b, -, hb, -⟩
  exact check_ne_overflow hb

/-- The checks of one slice succeed. -/
theorem checkSliceChecked_eq_ok {i : ℕ} : checkSliceChecked dataSlices a i = .ok () ↔
    (∀ j b, i < j → dataSlices[j]? = some b → a.offset ≤ b.offset) ∧
      ∀ j b, j < i → dataSlices[j]? = some b → b.stop < 2 ^ 64 ∧ b.stop ≤ a.offset := by
  rw [checkSliceChecked, then_eq_ok, forM_eq_ok, forM_eq_ok]
  simp only [check_eq_ok, not_lt, gt_iff_lt, checkOverlapChecked_eq_ok, forall_mem_drop,
    forall_mem_take, Nat.add_one_le_iff]

/-- The checks of one slice add up an end that does not fit. -/
theorem checkSliceChecked_eq_overflow {i : ℕ} :
    checkSliceChecked dataSlices a i = .error .overflow ↔
    (∀ j b, i < j → dataSlices[j]? = some b → a.offset ≤ b.offset) ∧
      ∃ (m : ℕ) (c : ConfigFilterAccountsDataSlice), m < i ∧ dataSlices[m]? = some c ∧
        2 ^ 64 ≤ c.stop ∧
        ∀ j b, j < m → dataSlices[j]? = some b → b.stop < 2 ^ 64 ∧ b.stop ≤ a.offset := by
  rw [checkSliceChecked, then_eq_error, or_iff_right order_ne_overflow, forM_eq_ok, forM_eq_error,
    reaches_take]
  simp only [check_eq_ok, not_lt, gt_iff_lt, checkOverlapChecked_eq_ok,
    checkOverlapChecked_eq_overflow, forall_mem_drop, Nat.add_one_le_iff]

/-- All checks succeed. -/
theorem checkDataSlicesChecked_eq_ok : checkDataSlicesChecked dataSlices = .ok () ↔
    ∀ (i j : ℕ) (a b : ConfigFilterAccountsDataSlice), i < j → dataSlices[i]? = some a →
      dataSlices[j]? = some b → a.stop < 2 ^ 64 ∧ a.stop ≤ b.offset := by
  rw [checkDataSlicesChecked, forM_eq_ok]
  simp only [Prod.forall, List.mem_zipIdx_iff_getElem?, checkSliceChecked_eq_ok]
  constructor
  · intro h i j a b hij ha hb
    exact (h b j hb).2 i a hij ha
  · intro h a i ha
    refine ⟨?_, ?_⟩
    · intro j b hij hb
      have hle := (h i j a b hij ha hb).2
      rw [ConfigFilterAccountsDataSlice.stop] at hle
      omega
    · intro j b hji hb
      exact h j i b a hji hb ha

theorem zipIdx_eq_some {α : Type} {xs : List α} {i : ℕ} {x : α × ℕ} :
    xs.zipIdx[i]? = some x ↔ xs[i]? = some x.1 ∧ x.2 = i := by
  rw [List.getElem?_zipIdx, Option.map_eq_some_iff]
  constructor
  · rintro ⟨y, hy, rfl⟩
    exact ⟨hy, Nat.zero_add i⟩
  · rintro ⟨hx, rfl⟩
    exact ⟨x.1, hx, by rw [Nat.zero_add]⟩

/-- The first slice whose checks add up an end that does not fit comes right after the one
with that end. -/
theorem overflow_index {i m : ℕ} {c : ConfigFilterAccountsDataSlice}
    (hbefore : ∀ j b, j < i → dataSlices[j]? = some b → checkSliceChecked dataSlices b j = .ok ())
    (hlen : i < dataSlices.length) (hmi : m < i) (hc : dataSlices[m]? = some c)
    (hstop : 2 ^ 64 ≤ c.stop) : i = m + 1 := by
  by_contra hne
  have hlt : m + 1 < i := by omega
  have hnext := hbefore (m + 1) _ hlt (List.getElem?_eq_getElem (hlt.trans hlen))
  have hfits := ((checkSliceChecked_eq_ok.mp hnext).2 m c (Nat.lt_succ_self m) hc).1
  exact absurd hstop (Nat.not_le.mpr hfits)

/-- As long as the checks pass there is no violation to be met. -/
theorem not_stopsBefore_of_pass {m : ℕ}
    (hbefore : ∀ j b, j < m + 1 → dataSlices[j]? = some b →
      checkSliceChecked dataSlices b j = .ok ())
    (ha : dataSlices[m + 1]? = some a)
    (horder : ∀ j b, m + 1 < j → dataSlices[j]? = some b → a.offset ≤ b.offset)
    (hpass : ∀ j b, j < m → dataSlices[j]? = some b → b.stop < 2 ^ 64 ∧ b.stop ≤ a.offset) :
    ¬StopsBefore dataSlices m := by
  apply not_stopsBefore_iff.mpr
  constructor
  · intro p q x y hp hpq hx hy
    obtain hlt | rfl := Nat.lt_or_eq_of_le hp
    · exact (checkSliceChecked_eq_ok.mp (hbefore p x hlt hx)).1 q y hpq hy
    · cases hx.symm.trans ha
      exact horder q y hpq hy
  · intro p q x y hp hq hpq hx hy
    obtain hlt | rfl := Nat.lt_or_eq_of_le hq
    · exact ((checkSliceChecked_eq_ok.mp (hbefore q y hlt hy)).2 p x hpq hx).2
    · cases hy.symm.trans ha
      exact (hpass p x hp hx).2

/-- The checks add up an end that does not fit if there is one, not of the last slice,
and they have not refused the slices before the first such. -/
theorem checkDataSlicesChecked_eq_overflow :
    checkDataSlicesChecked dataSlices = .error .overflow ↔
      ∃ (k : ℕ) (c : ConfigFilterAccountsDataSlice), dataSlices[k]? = some c ∧
        k + 1 < dataSlices.length ∧ 2 ^ 64 ≤ c.stop ∧
        (∀ j b, j < k → dataSlices[j]? = some b → b.stop < 2 ^ 64) ∧
        ¬StopsBefore dataSlices k := by
  rw [checkDataSlicesChecked, forM_eq_error]
  constructor
  · rintro ⟨i, ⟨a, i'⟩, hi, hover, hbefore⟩
    obtain ⟨ha, rfl⟩ := zipIdx_eq_some.mp hi
    obtain ⟨horder, m, c, hmi, hc, hstop, hpass⟩ := checkSliceChecked_eq_overflow.mp hover
    have hlen : i' < dataSlices.length := (List.getElem?_eq_some_iff.mp ha).1
    have hbefore' : ∀ j b, j < i' → dataSlices[j]? = some b →
        checkSliceChecked dataSlices b j = .ok () :=
      fun j b hj hb => hbefore j (b, j) hj (zipIdx_eq_some.mpr ⟨hb, rfl⟩)
    obtain rfl : i' = m + 1 := overflow_index hbefore' hlen hmi hc hstop
    exact ⟨m, c, hc, hlen, hstop, fun j b hj hb => (hpass j b hj hb).1,
      not_stopsBefore_of_pass hbefore' ha horder hpass⟩
  · rintro ⟨k, c, hc, hlen, hstop, hmin, hnot⟩
    obtain ⟨horder, happart⟩ := not_stopsBefore_iff.mp hnot
    have hnext := List.getElem?_eq_getElem hlen
    refine ⟨k + 1, (dataSlices[k + 1], k + 1), zipIdx_eq_some.mpr ⟨hnext, rfl⟩, ?_, ?_⟩
    · apply checkSliceChecked_eq_overflow.mpr
      refine ⟨fun j b hj hb => horder _ j _ b le_rfl hj hnext hb, k, c, Nat.lt_succ_self k, hc,
        hstop, ?_⟩
      intro j b hj hb
      exact ⟨hmin j b hj hb, happart j (k + 1) b _ hj le_rfl (by omega) hb hnext⟩
    · rintro j ⟨b, j'⟩ hj hb
      obtain ⟨hb, rfl⟩ := zipIdx_eq_some.mp hb
      apply checkSliceChecked_eq_ok.mpr
      refine ⟨fun q y hq hy => horder _ q _ y (by omega) hq hb hy, ?_⟩
      intro p x hp hx
      exact ⟨hmin p x (by omega) hx, happart p _ x _ (by omega) (by omega) hp hx hb⟩

end ConfigLimitsAccounts

-- ════════════════════════════════════════════════════════════════════════
-- What is copied
-- ════════════════════════════════════════════════════════════════════════

namespace FilterAccountDataSlices

/-- A slice with its end. -/
def ofSlice (dataSlice : ConfigFilterAccountsDataSlice) : ℕ × ℕ :=
  (dataSlice.offset, dataSlice.stop)

/-- The sum of the lengths. -/
def total (dataSlices : List ConfigFilterAccountsDataSlice) : ℕ :=
  (dataSlices.map ConfigFilterAccountsDataSlice.length).sum

/-- Slices have been built if every end fits. -/
theorem newChecked_eq_ok {slices : FilterAccountDataSlices} :
    newChecked dataSlices = .ok slices ↔
      (∀ s ∈ dataSlices, s.stop < 2 ^ 64) ∧ dataSlices.map ofSlice = slices := by
  induction dataSlices generalizing slices with
  | nil => simp [newChecked]
  | cons s dataSlices ih =>
    rw [newChecked, bind_eq_ok, List.forall_mem_cons, List.map_cons]
    constructor
    · rintro ⟨stop, hstop, hrest⟩
      obtain ⟨hfits, rfl⟩ := addChecked_eq_ok.mp hstop
      obtain ⟨rest, hnew, hslices⟩ := bind_eq_ok.mp hrest
      obtain ⟨hall, rfl⟩ := ih.mp hnew
      exact ⟨⟨hfits, hall⟩, Except.ok.inj hslices⟩
    · rintro ⟨⟨hfits, hall⟩, rfl⟩
      refine ⟨s.stop, addChecked_eq_ok.mpr ⟨hfits, rfl⟩, ?_⟩
      rw [ih.mpr ⟨hall, rfl⟩]
      rfl

/-- No end has been wrapped. -/
theorem new_of_fits (hfits : ∀ s ∈ dataSlices, s.stop < 2 ^ 64) :
    new dataSlices = dataSlices.map ofSlice :=
  Except.ok.inj ((newChecked_agrees dataSlices).of_ok (newChecked_eq_ok.mpr ⟨hfits, rfl⟩))

theorem newChecked_of_fits (hfits : ∀ s ∈ dataSlices, s.stop < 2 ^ 64) :
    newChecked dataSlices = .ok (new dataSlices) :=
  newChecked_eq_ok.mpr ⟨hfits, (new_of_fits hfits).symm⟩

/-- The difference of an end that fits and its offset is the length. -/
theorem capacityChecked_cons (sum : ℕ) (s : ConfigFilterAccountsDataSlice)
    (slices : FilterAccountDataSlices) : capacityChecked sum (ofSlice s :: slices) =
      (addChecked sum s.length >>= fun sum => capacityChecked sum slices) := by
  have hle : s.offset ≤ s.stop := Nat.le_add_right _ _
  have hlen : s.stop - s.offset = s.length := Nat.add_sub_cancel_left ..
  have hsub : (subChecked s.stop s.offset : Except (Fault Panic) ℕ) = .ok s.length := by
    rw [subChecked_of_le hle, hlen]
  rw [ofSlice, capacityChecked, hsub]
  rfl

/-- A sum that has been computed is the sum of the lengths. -/
theorem capacityChecked_eq {sum capacity : ℕ}
    (h : capacityChecked sum (dataSlices.map ofSlice) = .ok capacity) :
    capacity = sum + total dataSlices := by
  induction dataSlices generalizing sum with
  | nil =>
    obtain rfl : sum = capacity := Except.ok.inj h
    rfl
  | cons s dataSlices ih =>
    rw [List.map_cons, capacityChecked_cons, bind_eq_ok] at h
    obtain ⟨sum', hsum, hrest⟩ := h
    obtain ⟨-, rfl⟩ := addChecked_eq_ok.mp hsum
    rw [ih hrest, total, total, List.map_cons, List.sum_cons, Nat.add_assoc]

/-- The sum is computed if it fits. -/
theorem capacityChecked_of_fits {sum : ℕ} (hfits : sum + total dataSlices < 2 ^ 64) :
    capacityChecked sum (dataSlices.map ofSlice) = .ok (sum + total dataSlices) := by
  induction dataSlices generalizing sum with
  | nil => rfl
  | cons s dataSlices ih =>
    have htotal : total (s :: dataSlices) = s.length + total dataSlices := by
      rw [total, List.map_cons, List.sum_cons, total]
    rw [htotal, ← Nat.add_assoc] at hfits ⊢
    rw [List.map_cons, capacityChecked_cons, addChecked_of_lt (by omega)]
    exact ih hfits

/-- An end is a number of 64 bits, wrapped or not. -/
theorem stop_lt_of_mem_new {slice : ℕ × ℕ} (h : slice ∈ new dataSlices) : slice.2 < 2 ^ 64 := by
  obtain ⟨s, -, rfl⟩ := List.mem_map.mp h
  exact Nat.mod_lt _ (Nat.two_pow_pos 64)

/-- Without an overflow the capacity is the sum of the lengths. -/
theorem capacity_new (hfits : ∀ s ∈ dataSlices, s.stop < 2 ^ 64)
    (htotal : total dataSlices < 2 ^ 64) : (new dataSlices).capacity = total dataSlices := by
  have hsum : capacityChecked 0 (new dataSlices) = .ok (total dataSlices) := by
    rw [new_of_fits hfits, capacityChecked_of_fits (by rwa [Nat.zero_add]), Nat.zero_add]
  exact Except.ok.inj ((capacity_agrees fun _ => stop_lt_of_mem_new).of_ok hsum)

/-- Slices that end where they have been configured to are copied without a panic. -/
theorem copySlices_ofSlice (source : Bytes) :
    copySlices source (dataSlices.map ofSlice) =
      .ok ((dataSlices.filter fun s => s.stop ≤ source.length).flatMap fun s =>
        (source.drop s.offset).take s.length) := by
  induction dataSlices with
  | nil => rfl
  | cons s dataSlices ih =>
    have hle : s.offset ≤ s.stop := Nat.le_add_right _ _
    have hlen : s.stop - s.offset = s.length := Nat.add_sub_cancel_left ..
    rw [List.map_cons, ofSlice, copySlices, ih, List.filter_cons]
    by_cases hin : s.stop ≤ source.length
    · rw [if_pos hin, if_neg (Nat.not_lt.mpr hle), if_pos (decide_eq_true hin), hlen]
      rfl
    · rw [if_neg hin, if_neg (by simpa using hin)]

/-- What is copied, where all ends fit and so does the sum of the lengths. -/
theorem getSliceChecked_of_fits (hfits : ∀ s ∈ dataSlices, s.stop < 2 ^ 64)
    (htotal : total dataSlices < 2 ^ 63) (source : Bytes) :
    getSliceChecked (new dataSlices) source = .ok (slicesOf dataSlices source) := by
  rw [new_of_fits hfits, getSliceChecked, slicesOf]
  by_cases hnil : dataSlices = []
  · subst hnil
    rfl
  · have hsum : (0 : ℕ) + total dataSlices < 2 ^ 64 := by omega
    rw [if_neg (by simpa using hnil), if_neg hnil, capacityChecked_of_fits hsum]
    simp only [Except.bind, bind, Nat.zero_add]
    rw [if_neg (Nat.not_le.mpr htotal), copySlices_ofSlice]
    rfl

theorem getSlice_of_fits (hfits : ∀ s ∈ dataSlices, s.stop < 2 ^ 64)
    (htotal : total dataSlices < 2 ^ 63) (source : Bytes) :
    getSlice (new dataSlices) source = .ok (slicesOf dataSlices source) :=
  (getSliceChecked_agrees (fun _ => stop_lt_of_mem_new) source).of_ok
    (getSliceChecked_of_fits hfits htotal source)

/-- Data has only been copied if the lengths fit into one vector. -/
theorem total_lt_of_getSliceChecked {source data : Bytes}
    (hfits : ∀ s ∈ dataSlices, s.stop < 2 ^ 64)
    (h : getSliceChecked (new dataSlices) source = .ok data) : total dataSlices < 2 ^ 63 := by
  rw [new_of_fits hfits, getSliceChecked] at h
  split at h
  · rename_i hnil
    rw [List.map_eq_nil_iff.mp hnil]
    decide
  · obtain ⟨capacity, hsum, hcopy⟩ := bind_eq_ok.mp h
    rw [capacityChecked_eq hsum, Nat.zero_add] at hcopy
    split at hcopy
    · cases hcopy
    · rename_i hlt
      exact Nat.not_le.mp hlt

end FilterAccountDataSlices

-- ════════════════════════════════════════════════════════════════════════
-- When slices are admitted and copied as they are meant
-- ════════════════════════════════════════════════════════════════════════

open ConfigLimitsAccounts FilterAccountDataSlices

/-- Slices that are apart and whose ends fit are admitted. -/
theorem checkDataSlicesChecked_of_apart (hfits : ∀ s ∈ dataSlices, s.stop < 2 ^ 64)
    (h : SlicesApart dataSlices) : checkDataSlicesChecked dataSlices = .ok () := by
  apply checkDataSlicesChecked_eq_ok.mpr
  intro i j a b hij ha hb
  exact ⟨hfits a (List.mem_of_getElem? ha), h.le hij ha hb⟩

theorem apart_of_checkDataSlicesChecked (h : checkDataSlicesChecked dataSlices = .ok ()) :
    SlicesApart dataSlices :=
  slicesApart_of_le fun i j a b hij ha hb =>
    (checkDataSlicesChecked_eq_ok.mp h i j a b hij ha hb).2

/-- The ends of slices that are apart all fit. -/
theorem SlicesSafe.stop_lt (h : SlicesSafe dataSlices) (hapart : SlicesApart dataSlices) :
    ∀ s ∈ dataSlices, s.stop < 2 ^ 64 := by
  intro s hs
  obtain ⟨k, hk⟩ := List.mem_iff_getElem?.mp hs
  by_contra hge
  exact hapart.not_stopsBefore (h.stops k s hk (Nat.not_lt.mp hge))

theorem SlicesSafe.no_overflow (h : SlicesSafe dataSlices) :
    checkDataSlicesChecked dataSlices ≠ .error .overflow := by
  intro hover
  obtain ⟨k, c, hc, -, hstop, -, hnot⟩ := checkDataSlicesChecked_eq_overflow.mp hover
  exact hnot (h.stops k c hc hstop)

/-- The first slice whose end does not fit. -/
theorem exists_first_stop (hc : dataSlices[k]? = some a) (hstop : 2 ^ 64 ≤ a.stop) :
    ∃ (m : ℕ) (c : ConfigFilterAccountsDataSlice), m ≤ k ∧ dataSlices[m]? = some c ∧
      2 ^ 64 ≤ c.stop ∧ ∀ j b, j < m → dataSlices[j]? = some b → b.stop < 2 ^ 64 := by
  induction k using Nat.strongRecOn generalizing a with
  | ind k ih =>
    by_cases hbefore : ∃ (j : ℕ) (b : ConfigFilterAccountsDataSlice), j < k ∧
        dataSlices[j]? = some b ∧ 2 ^ 64 ≤ b.stop
    · obtain ⟨j, b, hj, hb, hb'⟩ := hbefore
      obtain ⟨m, c, hm, hrest⟩ := ih j hj hb hb'
      exact ⟨m, c, hm.trans (Nat.le_of_lt hj), hrest⟩
    · refine ⟨k, a, le_rfl, hc, hstop, ?_⟩
      intro j b hj hb
      by_contra hge
      exact hbefore ⟨j, b, hj, hb, Nat.not_lt.mp hge⟩

/-- Where the checks do not overflow and slices are copied whenever they are admitted,
no end that does not fit has been added up. -/
theorem stops_of_exact (hover : checkDataSlicesChecked dataSlices ≠ .error .overflow)
    (hbuilt : checkDataSlicesChecked dataSlices = .ok () → ∀ s ∈ dataSlices, s.stop < 2 ^ 64)
    (hk : dataSlices[k]? = some a) (hstop : 2 ^ 64 ≤ a.stop) : StopsBefore dataSlices k := by
  by_contra hnot
  obtain ⟨m, c, hmk, hc, hcstop, hmin⟩ := exists_first_stop hk hstop
  have hnot' : ¬StopsBefore dataSlices m := fun h => hnot (h.mono hmk)
  have hm : m < dataSlices.length := (List.getElem?_eq_some_iff.mp hc).1
  by_cases hlast : m + 1 < dataSlices.length
  · exact hover (checkDataSlicesChecked_eq_overflow.mpr ⟨m, c, hc, hlast, hcstop, hmin, hnot'⟩)
  · -- only the end of the last slice does not fit, which the checks leave out
    have hok : checkDataSlicesChecked dataSlices = .ok () := by
      apply checkDataSlicesChecked_eq_ok.mpr
      intro i j x y hij hx hy
      have hj : j < dataSlices.length := (List.getElem?_eq_some_iff.mp hy).1
      refine ⟨hmin i x (by omega) hx, ?_⟩
      by_contra hless
      exact hnot' ⟨i, j, x, y, hij, hx, hy, .inr ⟨by omega, by omega, Nat.not_le.mp hless⟩⟩
    exact absurd hcstop (Nat.not_le.mpr (hbuilt hok c (List.mem_of_getElem? hc)))

variable {limits : ConfigLimitsAccounts} {nameMax : ℕ}
  {filters : HashMap String ConfigFilterAccounts}

/-- Within the other limits the slices decide. -/
theorem checkFilterChecked_eq (hsection : checkSection filters nameMax limits.max = .ok ())
    (haccounts : ∀ f ∈ filters.values, limits.checkAccounts f = .ok ())
    (hmax : dataSlices.length ≤ limits.dataSliceMax) :
    limits.checkFilterChecked nameMax filters dataSlices = checkDataSlicesChecked dataSlices := by
  have hcount : ConfigLimits.checkMax dataSlices.length limits.dataSliceMax = .ok () :=
    check_eq_ok.mpr hmax
  rw [checkFilterChecked, hsection, forM_eq_ok.mpr haccounts, hcount]
  rfl

/-- Slices are admitted and copied as they are meant exactly if no end that does not
fit is added up, and the lengths of slices that are apart fit into one vector. A vector
that the allocator does not serve aborts the process, which is outside of this. -/
theorem slices_exact_iff (hsection : checkSection filters nameMax limits.max = .ok ())
    (haccounts : ∀ f ∈ filters.values, limits.checkAccounts f = .ok ())
    (hmax : dataSlices.length ≤ limits.dataSliceMax) :
    SlicesExact limits nameMax filters dataSlices ↔ SlicesSafe dataSlices := by
  have heq := checkFilterChecked_eq hsection haccounts hmax
  have hagrees := limits.checkFilterChecked_agrees nameMax filters dataSlices
  rw [heq] at hagrees
  constructor
  · intro h
    have hover := h.noOverflow
    rw [heq] at hover
    have hbuilt : checkDataSlicesChecked dataSlices = .ok () →
        ∀ s ∈ dataSlices, s.stop < 2 ^ 64 := by
      intro hok
      exact (newChecked_eq_ok.mp (h.copies ((hagrees.ok_iff hover).mp hok) []).1).1
    refine ⟨fun k a hk hstop => stops_of_exact hover hbuilt hk hstop, fun hapart => ?_⟩
    have haccepted := h.accepts.mpr hapart
    exact total_lt_of_getSliceChecked (hbuilt ((hagrees.ok_iff hover).mpr haccepted))
      (h.copies haccepted []).2.1
  · intro h
    have hover := h.no_overflow
    have haccepts : limits.checkFilter nameMax filters dataSlices = .ok () ↔
        SlicesApart dataSlices := by
      rw [← hagrees.ok_iff hover]
      exact ⟨apart_of_checkDataSlicesChecked, fun hapart =>
        checkDataSlicesChecked_of_apart (h.stop_lt hapart) hapart⟩
    refine ⟨heq ▸ hover, haccepts, fun haccepted data => ?_⟩
    have hapart := haccepts.mp haccepted
    have hfits := h.stop_lt hapart
    exact ⟨newChecked_of_fits hfits, getSliceChecked_of_fits hfits (h.fits hapart) data,
      getSlice_of_fits hfits (h.fits hapart) data⟩

/-- Two slices with a gap between them. -/
theorem slices_exact_twoSlices :
    SlicesExact ConfigLimits.default.accounts 128 ∅ [⟨0, 2⟩, ⟨4, 8⟩] := by
  refine (slices_exact_iff rfl (fun f hf => absurd hf List.not_mem_nil) (by decide)).mpr ⟨?_, ?_⟩
  · intro k a hk hstop
    have hmem := List.mem_of_getElem? hk
    simp only [List.mem_cons, List.not_mem_nil, or_false] at hmem
    obtain rfl | rfl := hmem
    · exact absurd hstop (by decide)
    · exact absurd hstop (by decide)
  · intro _
    decide

/-- A slice of one byte at the last offset is admitted. Its end wraps, and the
release build slices backwards whatever the data is. -/
theorem slice_end_wraps :
    ConfigLimits.default.accounts.checkFilter 128 ∅ [⟨2 ^ 64 - 1, 1⟩] = .ok () ∧
      (∀ data, getSlice (new [⟨2 ^ 64 - 1, 1⟩]) data = .error .sliceIndex) ∧
      ¬SlicesExact ConfigLimits.default.accounts 128 ∅ [⟨2 ^ 64 - 1, 1⟩] := by
  have haccepted : ConfigLimits.default.accounts.checkFilter 128 ∅ [⟨2 ^ 64 - 1, 1⟩] =
      .ok () := rfl
  have hpanic : ∀ data, getSlice (new [⟨2 ^ 64 - 1, 1⟩]) data = .error .sliceIndex := by
    intro data
    rfl
  refine ⟨haccepted, hpanic, fun h => ?_⟩
  have hcopy := (h.copies haccepted []).2.2
  rw [hpanic []] at hcopy
  cases hcopy

end

end Dragonmouth.Filters
