import Dragonmouth.Filters.Answers
import Dragonmouth.Foundations.Overflow

/-!
# The ends of memcmp conditions

A client chooses the offset of a memcmp condition freely, and the end of the bytes
is computed in 64 bits. The conditions of an admitted filter are matched as they
are meant unless such an end is computed that does not fit: the computation then
stops, or wraps and may slice backwards.

## Main definitions

- `FilterAccountsState.isMatchChecked`: `is_match` with the ends checked
- `MatchesExactly`: conditions are matched as they are meant
- `ReachesOverflow`: an end that does not fit is computed
-/

namespace Dragonmouth.Filters

open Checks Overflow

namespace FilterAccountsState

/-- The loop over the memcmp conditions, with the ends checked. -/
def matchMemcmpChecked (data : Bytes) :
    List (ℕ × ArrayVec UInt8 maxDataSize) → Except (Fault Panic) Bool
  | [] => .ok true
  | (offset, bytes) :: rest => do
    let stop ← addChecked offset bytes.items.length
    if data.length < stop then .ok false
    else if stop < offset then .error (.error .sliceIndex)
    else if (data.drop offset).take (stop - offset) ≠ bytes.items then .ok false
    else matchMemcmpChecked data rest

/-- `is_match` with the ends checked. -/
def isMatchChecked (validAccountData : Bytes → Bool) (self : FilterAccountsState)
    (lamports : ℕ) (data : Bytes) : Except (Fault Panic) Bool :=
  if ∃ datasize ∈ self.datasize, data.length ≠ datasize then .ok false
  else if self.tokenAccountState && !validAccountData data then .ok false
  else if self.lamports.items.any fun f => !f.isMatch lamports then .ok false
  else matchMemcmpChecked data self.memcmp.items

/-- The release build goes on where this stops. -/
theorem matchMemcmpChecked_agrees (data : Bytes)
    (items : List (ℕ × ArrayVec UInt8 maxDataSize)) :
    Agrees (matchMemcmpChecked data items) (matchMemcmp data items) := by
  induction items with
  | nil => exact .ok true
  | cons item rest ih =>
    obtain ⟨offset, bytes⟩ := item
    rw [matchMemcmpChecked, matchMemcmp]
    -- the sum is bound to a name on both sides
    apply (Agrees.add offset bytes.items.length).bind (g := fun stop =>
      if data.length < stop then .ok false
      else if stop < offset then .error .sliceIndex
      else if (data.drop offset).take (stop - offset) ≠ bytes.items then .ok false
      else matchMemcmp data rest)
    intro stop
    exact .ite (.ok false) (.ite (.error Panic.sliceIndex) (.ite (.ok false) ih))

theorem isMatchChecked_agrees (validAccountData : Bytes → Bool) (state : FilterAccountsState)
    (lamports : ℕ) (data : Bytes) :
    Agrees (state.isMatchChecked validAccountData lamports data)
      (state.isMatch validAccountData lamports data) :=
  .ite (.ok false) (.ite (.ok false) (.ite (.ok false) (matchMemcmpChecked_agrees data _)))

end FilterAccountsState

/-- The conditions are kept without a panic, and matched as they are meant, whether
the build checks its arithmetic or not. -/
def MatchesExactly (validAccountData : Bytes → Bool)
    (conditions : List ConfigFilterAccountsFilter) (lamports : ℕ) (data : Bytes) : Prop :=
  ∃ state b, FilterAccountsState.new conditions = .ok state ∧
    state.isMatchChecked validAccountData lamports data = .ok b ∧
    state.isMatch validAccountData lamports data = .ok b ∧
    (b = true ↔ ∀ condition ∈ conditions,
      ConditionHolds validAccountData lamports data condition)

/-- The conditions of the other kinds hold, and going through the memcmp conditions
as long as they hold one comes to one whose end is `2 ^ 64` or more. -/
structure ReachesOverflow (validAccountData : Bytes → Bool)
    (conditions : List ConfigFilterAccountsFilter) (lamports : ℕ) (data : Bytes) : Prop where
  others : ∀ condition ∈ conditions, condition.memcmp? = none →
    ConditionHolds validAccountData lamports data condition
  overflow : Reaches (ConditionHolds validAccountData lamports data)
    (fun condition => ¬EndsBelow condition) conditions

section

variable {validAccountData : Bytes → Bool} {conditions : List ConfigFilterAccountsFilter}
  {lamports : ℕ} {data : Bytes}

/-- The bytes of a memcmp condition stand where it asks for them. -/
def MemcmpHolds (data : Bytes) (item : ℕ × Bytes) : Prop :=
  ∃ before after, data = before ++ item.2 ++ after ∧ before.length = item.1

/-- The end of a memcmp condition does not fit. -/
def MemcmpOverflows (item : ℕ × Bytes) : Prop := 2 ^ 64 ≤ item.1 + item.2.length

theorem MemcmpHolds.le {item : ℕ × Bytes} (h : MemcmpHolds data item) :
    item.1 + item.2.length ≤ data.length := by
  obtain ⟨before, after, rfl, hlen⟩ := h
  rw [List.length_append, List.length_append]
  omega

/-- An end that does not fit is reached in the loop if it is in the conditions,
given that the conditions of the other kinds hold. -/
theorem reaches_memcmp (hothers : ∀ condition ∈ conditions, condition.memcmp? = none →
      ConditionHolds validAccountData lamports data condition) :
    Reaches (MemcmpHolds data) MemcmpOverflows
        (conditions.filterMap ConfigFilterAccountsFilter.memcmp?) ↔
      Reaches (ConditionHolds validAccountData lamports data)
        (fun condition => ¬EndsBelow condition) conditions := by
  rw [reaches_filterMap]
  constructor
  · intro h
    refine h.imp ?_ ?_
    · intro condition hc hpass
      cases condition with
      | memcmp offset bytes => exact hpass (offset, bytes) rfl
      | dataSize size => exact hothers _ hc rfl
      | tokenAccountState => exact hothers _ hc rfl
      | lamports cmp => exact hothers _ hc rfl
    · rintro condition - ⟨item, hitem, hover⟩
      cases condition <;> cases hitem
      exact Nat.not_lt.mpr hover
  · intro h
    refine h.imp ?_ ?_
    · intro condition _ hholds item hitem
      cases condition <;> cases hitem
      exact hholds
    · intro condition _ hends
      cases condition with
      | memcmp offset bytes => exact ⟨(offset, bytes), rfl, Nat.not_lt.mp hends⟩
      | dataSize size => exact absurd trivial hends
      | tokenAccountState => exact absurd trivial hends
      | lamports cmp => exact absurd trivial hends

namespace FilterAccountsState

section

variable {item : ℕ × ArrayVec UInt8 maxDataSize} {items : List (ℕ × ArrayVec UInt8 maxDataSize)}

/-- What the loop compares: the offset and the bytes. -/
def memcmpItem (item : ℕ × ArrayVec UInt8 maxDataSize) : ℕ × Bytes := (item.1, item.2.items)

theorem matchMemcmpChecked_overflow (h : MemcmpOverflows (memcmpItem item)) :
    matchMemcmpChecked data (item :: items) = .error .overflow := by
  have hle : 2 ^ 64 ≤ item.1 + item.2.items.length := h
  rw [matchMemcmpChecked, addChecked_of_le hle]
  rfl

theorem matchMemcmpChecked_holds (hend : ¬MemcmpOverflows (memcmpItem item))
    (h : MemcmpHolds data (memcmpItem item)) :
    matchMemcmpChecked data (item :: items) = matchMemcmpChecked data items := by
  have hlt : item.1 + item.2.items.length < 2 ^ 64 := Nat.not_le.mp hend
  have hle : item.1 + item.2.items.length ≤ data.length := h.le
  have hslice := (slice_eq_iff hle).mpr h
  rw [matchMemcmpChecked, addChecked_of_lt hlt]
  simp only [Except.bind, bind, Nat.add_sub_cancel_left]
  rw [if_neg (Nat.not_lt.mpr hle), if_neg (Nat.not_lt.mpr (Nat.le_add_right _ _)),
    if_neg (not_not.mpr hslice)]

theorem matchMemcmpChecked_fails (hend : ¬MemcmpOverflows (memcmpItem item))
    (h : ¬MemcmpHolds data (memcmpItem item)) :
    matchMemcmpChecked data (item :: items) = .ok false := by
  have hlt : item.1 + item.2.items.length < 2 ^ 64 := Nat.not_le.mp hend
  rw [matchMemcmpChecked, addChecked_of_lt hlt]
  simp only [Except.bind, bind, Nat.add_sub_cancel_left]
  by_cases hshort : data.length < item.1 + item.2.items.length
  · rw [if_pos hshort]
  · rw [if_neg hshort, if_neg (Nat.not_lt.mpr (Nat.le_add_right _ _)), if_pos]
    exact fun hslice => h ((slice_eq_iff (Nat.not_lt.mp hshort)).mp hslice)

/-- The loop stops at the first end that does not fit, if it comes to one. -/
theorem matchMemcmpChecked_of_reaches
    (h : Reaches (MemcmpHolds data) MemcmpOverflows (items.map memcmpItem)) :
    matchMemcmpChecked data items = .error .overflow := by
  induction items with
  | nil => exact absurd h not_reaches_nil
  | cons item items ih =>
    rw [List.map_cons, reaches_cons] at h
    by_cases hend : MemcmpOverflows (memcmpItem item)
    · exact matchMemcmpChecked_overflow hend
    · obtain ⟨hholds, hrest⟩ := h.resolve_left hend
      rw [matchMemcmpChecked_holds hend hholds]
      exact ih hrest

/-- Otherwise it tells whether all conditions hold. -/
theorem matchMemcmpChecked_spec
    (h : ¬Reaches (MemcmpHolds data) MemcmpOverflows (items.map memcmpItem)) :
    ∃ b, matchMemcmpChecked data items = .ok b ∧
      (b = true ↔ ∀ item ∈ items, MemcmpHolds data (memcmpItem item)) := by
  induction items with
  | nil => exact ⟨true, rfl, by simp⟩
  | cons item items ih =>
    rw [List.map_cons, reaches_cons, not_or] at h
    obtain ⟨hend, hrest⟩ := h
    by_cases hholds : MemcmpHolds data (memcmpItem item)
    · obtain ⟨b, hb, hiff⟩ := ih fun hr => hrest ⟨hholds, hr⟩
      refine ⟨b, ?_, ?_⟩
      · rw [matchMemcmpChecked_holds hend hholds, hb]
      · rw [hiff, List.forall_mem_cons, and_iff_right hholds]
    · refine ⟨false, matchMemcmpChecked_fails hend hholds, ?_⟩
      exact iff_of_false Bool.false_ne_true fun hall => hholds (hall item List.mem_cons_self)

end

variable {state : FilterAccountsState}

theorem Keeps.memcmp_items (h : state.Keeps conditions) :
    state.memcmp.items.map memcmpItem =
      conditions.filterMap ConfigFilterAccountsFilter.memcmp? := h.memcmp

/-- The conditions of the other kinds hold if none of the tests before the loop
refuses the account. -/
theorem Keeps.others_hold (h : state.Keeps conditions) (hbuild : Buildable conditions) :
    (∀ condition ∈ conditions, condition.memcmp? = none →
        ConditionHolds validAccountData lamports data condition) ↔
      ¬(∃ datasize ∈ state.datasize, data.length ≠ datasize) ∧
      ¬((state.tokenAccountState && !validAccountData data) = true) ∧
      ¬((state.lamports.items.any fun f => !f.isMatch lamports) = true) := by
  rw [h.datasize_holds hbuild, h.lamports_hold validAccountData]
  have htoken : ¬((state.tokenAccountState && !validAccountData data) = true) ↔
      (.tokenAccountState ∈ conditions → validAccountData data = true) := by
    rw [← h.tokenAccountState]
    cases state.tokenAccountState <;> simp
  rw [htoken]
  constructor
  · intro hall
    exact ⟨fun size hc => hall _ hc rfl, fun hc => hall _ hc rfl, fun cmp hc => hall _ hc rfl⟩
  · rintro ⟨hsize, htok, hlamports⟩ condition hc hkind
    cases condition with
    | memcmp offset bytes => cases hkind
    | dataSize size => exact hsize size hc
    | tokenAccountState => exact htok hc
    | lamports cmp => exact hlamports cmp hc

theorem Keeps.all_hold (h : state.Keeps conditions) :
    (∀ condition ∈ conditions, ConditionHolds validAccountData lamports data condition) ↔
      (∀ condition ∈ conditions, condition.memcmp? = none →
        ConditionHolds validAccountData lamports data condition) ∧
      ∀ item ∈ state.memcmp.items, MemcmpHolds data (memcmpItem item) := by
  have hmemcmp : (∀ item ∈ state.memcmp.items, MemcmpHolds data (memcmpItem item)) ↔
      ∀ offset bytes, .memcmp offset bytes ∈ conditions →
        ConditionHolds validAccountData lamports data (.memcmp offset bytes) :=
    h.memcmp_hold validAccountData lamports
  constructor
  · intro hall
    exact ⟨fun condition hc _ => hall condition hc,
      hmemcmp.mpr fun offset bytes hc => hall _ hc⟩
  · rintro ⟨hothers, hitems⟩ condition hc
    cases condition with
    | memcmp offset bytes => exact hmemcmp.mp hitems offset bytes hc
    | dataSize size => exact hothers _ hc rfl
    | tokenAccountState => exact hothers _ hc rfl
    | lamports cmp => exact hothers _ hc rfl

theorem Keeps.isMatchChecked_overflow (h : state.Keeps conditions)
    (hbuild : Buildable conditions)
    (hr : ReachesOverflow validAccountData conditions lamports data) :
    state.isMatchChecked validAccountData lamports data = .error .overflow := by
  obtain ⟨hsize, htoken, hlamports⟩ := (h.others_hold hbuild).mp hr.others
  rw [isMatchChecked, if_neg hsize, if_neg htoken, if_neg hlamports]
  apply matchMemcmpChecked_of_reaches
  rw [h.memcmp_items, reaches_memcmp hr.others]
  exact hr.overflow

theorem Keeps.isMatchChecked_spec (h : state.Keeps conditions) (hbuild : Buildable conditions)
    (hr : ¬ReachesOverflow validAccountData conditions lamports data) :
    ∃ b, state.isMatchChecked validAccountData lamports data = .ok b ∧
      (b = true ↔ ∀ condition ∈ conditions,
        ConditionHolds validAccountData lamports data condition) := by
  have hothers : (∀ condition ∈ conditions, condition.memcmp? = none →
        ConditionHolds validAccountData lamports data condition) ↔
      ¬(∃ datasize ∈ state.datasize, data.length ≠ datasize) ∧
      ¬((state.tokenAccountState && !validAccountData data) = true) ∧
      ¬((state.lamports.items.any fun f => !f.isMatch lamports) = true) := h.others_hold hbuild
  rw [h.all_hold, isMatchChecked]
  split
  · rename_i hsize
    exact ⟨false, rfl, iff_of_false Bool.false_ne_true fun hall => (hothers.mp hall.1).1 hsize⟩
  · rename_i hsize
    split
    · rename_i htoken
      exact ⟨false, rfl, iff_of_false Bool.false_ne_true fun hall => (hothers.mp hall.1).2.1 htoken⟩
    · rename_i htoken
      split
      · rename_i hlam
        exact ⟨false, rfl, iff_of_false Bool.false_ne_true fun hall =>
          (hothers.mp hall.1).2.2 hlam⟩
      · rename_i hlam
        have hrest := hothers.mpr ⟨hsize, htoken, hlam⟩
        have hends : ¬Reaches (MemcmpHolds data) MemcmpOverflows
            (state.memcmp.items.map memcmpItem) := by
          rw [h.memcmp_items, reaches_memcmp hrest]
          exact fun hover => hr ⟨hrest, hover⟩
        obtain ⟨b, hb, hiff⟩ := matchMemcmpChecked_spec hends
        exact ⟨b, hb, by rw [hiff, and_iff_right hrest]⟩

end FilterAccountsState

/-- The conditions of an admitted filter are matched as they are meant, except where
an end that does not fit is computed. -/
theorem isMatch_exact_iff {limits : ConfigLimitsAccounts} {nameMax : ℕ}
    {filters : HashMap String ConfigFilterAccounts}
    {dataSlices : List ConfigFilterAccountsDataSlice} {filter : ConfigFilterAccounts}
    (haccepted : limits.checkFilter nameMax filters dataSlices = .ok ())
    (hfilter : filter ∈ filters.values) (validAccountData : Bytes → Bool) (lamports : ℕ)
    (data : Bytes) :
    MatchesExactly validAccountData filter.filters lamports data ↔
      ¬ReachesOverflow validAccountData filter.filters lamports data := by
  obtain ⟨-, hrest⟩ := then_eq_ok.mp haccepted
  obtain ⟨haccounts, -⟩ := then_eq_ok.mp hrest
  have hadmits := (checkAccounts_ok.mp (forM_eq_ok.mp haccounts filter hfilter)).2
  have hbuild := hadmits.buildable
  obtain ⟨state, hnew, hkeeps⟩ := FilterAccountsState.new_keeps hbuild
  constructor
  · rintro ⟨state', b, hnew', hmatch, -⟩ hover
    obtain rfl : state = state' := Except.ok.inj (hnew.symm.trans hnew')
    rw [hkeeps.isMatchChecked_overflow hbuild hover] at hmatch
    cases hmatch
  · intro hover
    obtain ⟨b, hmatch, hiff⟩ := hkeeps.isMatchChecked_spec hbuild hover
    have hagrees := state.isMatchChecked_agrees validAccountData lamports data
    exact ⟨state, b, hnew, hmatch, hagrees.of_ok hmatch, hiff⟩

/-- A filter with one memcmp condition, at the given offset. -/
def memcmpAt (offset : ℕ) (data : Bytes) : ConfigFilterAccounts where
  account := []
  owner := []
  filters := [.memcmp offset data]
  nonemptyTxnSignature := none

/-- The bytes asked for stand at the end of the data. -/
theorem isMatch_exact_atEnd :
    MatchesExactly (fun _ => false) (memcmpAt 1 [6]).filters 300 [5, 6] := by
  have haccepted : ConfigLimits.default.accounts.checkFilter 128
      (.singleton "memcmp" (memcmpAt 1 [6])) [] = .ok () := rfl
  refine (isMatch_exact_iff haccepted (List.mem_singleton.mpr rfl) (fun _ => false) 300
    [5, 6]).mpr fun hover => ?_
  obtain ⟨i, condition, hc, hends, -⟩ := hover.overflow
  have hmem := List.mem_singleton.mp (List.mem_of_getElem? hc)
  subst hmem
  simp [EndsBelow] at hends

/-- The default limits admit a condition at the last offset there is. Its end does
not fit, and the release build slices backwards. -/
theorem memcmp_end_wraps :
    ConfigLimits.default.accounts.checkFilter 128
        (.singleton "memcmp" (memcmpAt (2 ^ 64 - 1) [6, 6])) [] = .ok () ∧
      (∃ state, FilterAccountsState.new (memcmpAt (2 ^ 64 - 1) [6, 6]).filters = .ok state ∧
        state.isMatch (fun _ => false) 300 [6, 6] = .error .sliceIndex) ∧
      ¬MatchesExactly (fun _ => false) (memcmpAt (2 ^ 64 - 1) [6, 6]).filters 300 [6, 6] := by
  refine ⟨rfl, ⟨_, rfl, rfl⟩, ?_⟩
  rintro ⟨state, b, hnew, -, hmatch, -⟩
  obtain rfl := Except.ok.inj hnew
  cases hmatch

end

end Dragonmouth.Filters
