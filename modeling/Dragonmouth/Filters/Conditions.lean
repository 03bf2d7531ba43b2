import Dragonmouth.Filters.Semantics

/-!
# Conditions on accounts

The conditions of an account filter are kept in arrays of a fixed capacity, and
the size of the data in one place. Provided they fit and ask for one size at
most, all of them are kept, and an account is accepted if all of them hold.

## Main definitions

- `Buildable`: the conditions that are kept whole
- `FilterAccountsState.Keeps`: the conditions a state keeps
-/

namespace Dragonmouth.Filters

open Checks
open Richat (MessageAccount)

-- ════════════════════════════════════════════════════════════════════════
-- Conditions on accounts
-- ════════════════════════════════════════════════════════════════════════

/-- The conditions fit into the arrays they are kept in, and ask for one size of
data at most. -/
structure Buildable (conditions : List ConfigFilterAccountsFilter) : Prop where
  memcmp : (conditions.filterMap ConfigFilterAccountsFilter.memcmp?).length ≤ maxFilters
  lamports : (conditions.filterMap ConfigFilterAccountsFilter.lamports?).length ≤ maxFilters
  data : ∀ condition ∈ conditions, condition.Fits
  dataSize : ∀ a b, .dataSize a ∈ conditions → .dataSize b ∈ conditions → a = b

/-- The end of a memcmp condition does not overflow. -/
def EndsBelow : ConfigFilterAccountsFilter → Prop
  | .memcmp offset data => offset + data.length < 2 ^ 64
  | _ => True

/-- A condition of another kind adds nothing. -/
theorem filterMap_other {α : Type} {f : ConfigFilterAccountsFilter → Option α}
    {condition : ConfigFilterAccountsFilter} (h : f condition = none)
    (conditions : List ConfigFilterAccountsFilter) :
    (conditions ++ [condition]).filterMap f = conditions.filterMap f := by
  rw [List.filterMap_append, List.filterMap_cons_none h, List.filterMap_nil, List.append_nil]

theorem filterMap_own {α : Type} (f : ConfigFilterAccountsFilter → Option α)
    {condition : ConfigFilterAccountsFilter} {value : α} (h : f condition = some value)
    (conditions : List ConfigFilterAccountsFilter) :
    (conditions ++ [condition]).filterMap f = conditions.filterMap f ++ [value] := by
  rw [List.filterMap_append, List.filterMap_cons_some h, List.filterMap_nil]

namespace FilterAccountsState

variable {state : FilterAccountsState} {conditions : List ConfigFilterAccountsFilter}

/-- The conditions a state keeps. -/
structure Keeps (state : FilterAccountsState) (conditions : List ConfigFilterAccountsFilter) :
    Prop where
  memcmp : state.memcmp.items.map (fun (offset, data) => (offset, data.items)) =
    conditions.filterMap ConfigFilterAccountsFilter.memcmp?
  datasize : state.datasize =
    (conditions.filterMap ConfigFilterAccountsFilter.dataSize?).getLast?
  tokenAccountState : state.tokenAccountState = true ↔ .tokenAccountState ∈ conditions
  lamports : state.lamports.items =
    (conditions.filterMap ConfigFilterAccountsFilter.lamports?).map .ofConfig

theorem Keeps.default : default.Keeps [] := ⟨rfl, rfl, by simp [FilterAccountsState.default], rfl⟩

theorem push_ok {α : Type} {capacity : ℕ} {items : ArrayVec α capacity} (item : α)
    (h : items.items.length + 1 ≤ capacity) :
    ∃ items', items.push item = .ok items' ∧ items'.items = items.items ++ [item] := by
  have hfits : (items.items ++ [item]).length ≤ capacity := by simpa using h
  exact ⟨⟨_, hfits⟩, by rw [ArrayVec.push, ArrayVec.collect, dif_pos hfits], rfl⟩

/-- Adding a condition keeps it and those kept before. -/
theorem Keeps.add (h : state.Keeps conditions) {condition : ConfigFilterAccountsFilter}
    (hfits : condition.Fits)
    (hmemcmp : ((conditions ++ [condition]).filterMap
      ConfigFilterAccountsFilter.memcmp?).length ≤ maxFilters)
    (hlamports : ((conditions ++ [condition]).filterMap
      ConfigFilterAccountsFilter.lamports?).length ≤ maxFilters) :
    ∃ state', state.add condition = .ok state' ∧ state'.Keeps (conditions ++ [condition]) := by
  cases condition with
  | memcmp offset data =>
    have hdata : (ArrayVec.collect data : Except Panic (ArrayVec UInt8 maxDataSize)) =
        .ok ⟨data, hfits⟩ := dif_pos hfits
    rw [filterMap_own ConfigFilterAccountsFilter.memcmp? rfl, ← h.memcmp, List.length_append,
      List.length_map] at hmemcmp
    obtain ⟨memcmp, hpush, hitems⟩ := push_ok (offset, (⟨data, hfits⟩ : ArrayVec _ _)) hmemcmp
    refine ⟨{ state with memcmp := memcmp }, ?_, ?_, ?_, ?_, ?_⟩
    · rw [FilterAccountsState.add, hdata]
      simp only [Except.bind, bind, hpush]
    · rw [hitems, List.map_append, h.memcmp, filterMap_own ConfigFilterAccountsFilter.memcmp? rfl]
      rfl
    · rw [filterMap_other rfl]
      exact h.datasize
    · simpa using h.tokenAccountState
    · rw [filterMap_other rfl]
      exact h.lamports
  | dataSize size =>
    refine ⟨_, rfl, ?_, ?_, ?_, ?_⟩
    · rw [filterMap_other rfl]
      exact h.memcmp
    · rw [filterMap_own ConfigFilterAccountsFilter.dataSize? rfl, List.getLast?_concat]
    · simpa using h.tokenAccountState
    · rw [filterMap_other rfl]
      exact h.lamports
  | tokenAccountState =>
    refine ⟨_, rfl, ?_, ?_, ?_, ?_⟩
    · rw [filterMap_other rfl]
      exact h.memcmp
    · rw [filterMap_other rfl]
      exact h.datasize
    · simp
    · rw [filterMap_other rfl]
      exact h.lamports
  | lamports cmp =>
    rw [filterMap_own ConfigFilterAccountsFilter.lamports? rfl] at hlamports
    have hlen : state.lamports.items.length + 1 ≤ maxFilters := by
      rw [h.lamports, List.length_map]
      simpa using hlamports
    obtain ⟨lamports, hpush, hitems⟩ := push_ok (FilterAccountsLamports.ofConfig cmp) hlen
    refine ⟨{ state with lamports := lamports }, ?_, ?_, ?_, ?_, ?_⟩
    · rw [FilterAccountsState.add]
      simp only [Except.bind, bind, hpush]
    · rw [filterMap_other rfl]
      exact h.memcmp
    · rw [filterMap_other rfl]
      exact h.datasize
    · simpa using h.tokenAccountState
    · rw [hitems, h.lamports, filterMap_own ConfigFilterAccountsFilter.lamports? rfl,
        List.map_append]
      rfl

theorem filterMap_append_le {α : Type} (f : ConfigFilterAccountsFilter → Option α)
    (xs ys : List ConfigFilterAccountsFilter) :
    (xs.filterMap f).length ≤ ((xs ++ ys).filterMap f).length := by
  rw [List.filterMap_append, List.length_append]
  exact Nat.le_add_right _ _

/-- Conditions that fit are all kept. -/
theorem Keeps.addAll (added : List ConfigFilterAccountsFilter) (h : state.Keeps conditions)
    (hfits : ∀ condition ∈ added, condition.Fits)
    (hmemcmp : ((conditions ++ added).filterMap
      ConfigFilterAccountsFilter.memcmp?).length ≤ maxFilters)
    (hlamports : ((conditions ++ added).filterMap
      ConfigFilterAccountsFilter.lamports?).length ≤ maxFilters) :
    ∃ state', state.addAll added = .ok state' ∧ state'.Keeps (conditions ++ added) := by
  induction added generalizing state conditions with
  | nil =>
    rw [List.append_nil]
    exact ⟨state, rfl, h⟩
  | cons condition added ih =>
    rw [List.forall_mem_cons] at hfits
    rw [List.append_cons] at hmemcmp hlamports ⊢
    obtain ⟨state₁, hadd, hkeeps⟩ := h.add hfits.1 ((filterMap_append_le _ _ _).trans hmemcmp)
      ((filterMap_append_le _ _ _).trans hlamports)
    obtain ⟨state', hrun, hall⟩ := ih hkeeps hfits.2 hmemcmp hlamports
    refine ⟨state', ?_, hall⟩
    rw [FilterAccountsState.addAll, hadd]
    exact hrun

theorem new_keeps (h : Buildable conditions) :
    ∃ state, new conditions = .ok state ∧ state.Keeps conditions :=
  Keeps.default.addAll conditions h.data h.memcmp h.lamports

/-- Bytes stand at an offset. -/
theorem slice_eq_iff {data bytes : Bytes} {offset : ℕ} (h : offset + bytes.length ≤ data.length) :
    (data.drop offset).take bytes.length = bytes ↔
      ∃ before after, data = before ++ bytes ++ after ∧ before.length = offset := by
  constructor
  · intro he
    refine ⟨data.take offset, (data.drop offset).drop bytes.length, ?_, ?_⟩
    · have hrest : bytes ++ (data.drop offset).drop bytes.length = data.drop offset := by
        conv_lhs => rw [← he]
        rw [List.length_take, Nat.min_eq_left (by rw [List.length_drop]; omega),
          List.take_append_drop]
      rw [List.append_assoc, hrest, List.take_append_drop]
    · rw [List.length_take]
      omega
  · rintro ⟨before, after, rfl, rfl⟩
    simp

/-- The loop over the memcmp conditions tells whether all of them hold. -/
theorem matchMemcmp_spec (data : Bytes) {items : List (ℕ × ArrayVec UInt8 maxDataSize)}
    (h : ∀ item ∈ items, item.1 + item.2.items.length < 2 ^ 64) :
    ∃ b, matchMemcmp data items = .ok b ∧ (b = true ↔ ∀ item ∈ items,
      ∃ before after, data = before ++ item.2.items ++ after ∧ before.length = item.1) := by
  induction items with
  | nil => exact ⟨true, rfl, by simp⟩
  | cons item items ih =>
    obtain ⟨offset, bytes⟩ := item
    rw [List.forall_mem_cons] at h
    obtain ⟨b, hrest, hiff⟩ := ih h.2
    simp only [matchMemcmp, Nat.mod_eq_of_lt h.1, Nat.add_sub_cancel_left,
      List.forall_mem_cons (l := items)]
    by_cases hshort : data.length < offset + bytes.items.length
    · refine ⟨false, if_pos hshort, iff_of_false Bool.false_ne_true ?_⟩
      rintro ⟨⟨before, after, rfl, rfl⟩, -⟩
      simp only [List.length_append] at hshort
      omega
    · have horder : ¬offset + bytes.items.length < offset := by omega
      rw [if_neg hshort, if_neg horder, ← slice_eq_iff (Nat.le_of_not_lt hshort)]
      by_cases hne : (data.drop offset).take bytes.items.length ≠ bytes.items
      · exact ⟨false, if_pos hne, iff_of_false Bool.false_ne_true fun hall => hne hall.1⟩
      · rw [if_neg hne]
        exact ⟨b, hrest, by rw [hiff, and_iff_right (not_not.mp hne)]⟩

theorem mem_memcmp {offset : ℕ} {data : Bytes} :
    (offset, data) ∈ conditions.filterMap ConfigFilterAccountsFilter.memcmp? ↔
      .memcmp offset data ∈ conditions := by
  rw [List.mem_filterMap]
  constructor
  · rintro ⟨condition, hc, he⟩
    cases condition <;> cases he
    exact hc
  · exact fun hc => ⟨_, hc, rfl⟩

theorem mem_dataSize {size : ℕ} :
    size ∈ conditions.filterMap ConfigFilterAccountsFilter.dataSize? ↔
      .dataSize size ∈ conditions := by
  rw [List.mem_filterMap]
  constructor
  · rintro ⟨condition, hc, he⟩
    cases condition <;> cases he
    exact hc
  · exact fun hc => ⟨_, hc, rfl⟩

theorem mem_lamports {cmp : ConfigFilterAccountsFilterLamports} :
    cmp ∈ conditions.filterMap ConfigFilterAccountsFilter.lamports? ↔
      .lamports cmp ∈ conditions := by
  rw [List.mem_filterMap]
  constructor
  · rintro ⟨condition, hc, he⟩
    cases condition <;> cases he
    exact hc
  · exact fun hc => ⟨_, hc, rfl⟩

/-- The size kept is the one asked for. -/
theorem Keeps.datasize_holds (h : state.Keeps conditions) (hbuild : Buildable conditions)
    {data : Bytes} : ¬(∃ datasize ∈ state.datasize, data.length ≠ datasize) ↔
      ∀ size, .dataSize size ∈ conditions → data.length = size := by
  rw [h.datasize]
  constructor
  · intro hn size hsize
    have hmem := mem_dataSize.mpr hsize
    have hlast := List.getLast?_eq_some_getLast (List.ne_nil_of_mem hmem)
    have heq := hbuild.dataSize size _ hsize (mem_dataSize.mp (List.mem_of_getLast? hlast))
    by_contra hne
    exact hn ⟨_, hlast, heq ▸ hne⟩
  · rintro hall ⟨size, hlast, hne⟩
    exact hne (hall size (mem_dataSize.mp (List.mem_of_getLast? hlast)))

theorem Keeps.lamports_hold (h : state.Keeps conditions) (validAccountData : Bytes → Bool)
    {lamports : ℕ} {data : Bytes} :
    ¬((state.lamports.items.any fun f => !f.isMatch lamports) = true) ↔
      ∀ cmp, .lamports cmp ∈ conditions →
        ConditionHolds validAccountData lamports data (.lamports cmp) := by
  have hmatch : ∀ cmp, (FilterAccountsLamports.ofConfig cmp).isMatch lamports = true ↔
      ConditionHolds validAccountData lamports data (.lamports cmp) := by
    intro cmp
    cases cmp with
    | eq value => exact decide_eq_true_iff.trans eq_comm
    | ne value => exact decide_eq_true_iff.trans ne_comm
    | lt value => exact decide_eq_true_iff
    | gt value => exact decide_eq_true_iff
  rw [h.lamports, Bool.not_eq_true, List.any_eq_false]
  simp only [List.forall_mem_map, Bool.not_eq_true, Bool.not_eq_false', mem_lamports, hmatch]

theorem Keeps.memcmp_hold (h : state.Keeps conditions) (validAccountData : Bytes → Bool)
    (lamports : ℕ) {data : Bytes} :
    (∀ item ∈ state.memcmp.items, ∃ before after, data = before ++ item.2.items ++ after ∧
      before.length = item.1) ↔
      ∀ offset bytes, .memcmp offset bytes ∈ conditions →
        ConditionHolds validAccountData lamports data (.memcmp offset bytes) := by
  simp only [← mem_memcmp, ← h.memcmp, List.mem_map, ConditionHolds]
  constructor
  · rintro hall offset bytes ⟨item, hitem, he⟩
    cases he
    exact hall item hitem
  · exact fun hall item hitem => hall item.1 item.2.items ⟨item, hitem, rfl⟩

/-- A state matches when all the conditions it keeps hold. -/
theorem Keeps.isMatch (h : state.Keeps conditions) (hbuild : Buildable conditions)
    (hends : ∀ condition ∈ conditions, EndsBelow condition) (validAccountData : Bytes → Bool)
    (lamports : ℕ) (data : Bytes) :
    ∃ b, state.isMatch validAccountData lamports data = .ok b ∧
      (b = true ↔ ∀ condition ∈ conditions,
        ConditionHolds validAccountData lamports data condition) := by
  have hitems : ∀ item ∈ state.memcmp.items, item.1 + item.2.items.length < 2 ^ 64 := by
    intro item hitem
    refine hends (.memcmp item.1 item.2.items) (mem_memcmp.mp ?_)
    rw [← h.memcmp]
    exact List.mem_map.mpr ⟨item, hitem, rfl⟩
  obtain ⟨b, hloop, hiff⟩ := matchMemcmp_spec data hitems
  rw [h.memcmp_hold validAccountData lamports] at hiff
  have hsplit :
      (∀ condition ∈ conditions, ConditionHolds validAccountData lamports data condition) ↔
      (∀ size, .dataSize size ∈ conditions → data.length = size) ∧
      (.tokenAccountState ∈ conditions → validAccountData data = true) ∧
      (∀ cmp, .lamports cmp ∈ conditions →
        ConditionHolds validAccountData lamports data (.lamports cmp)) ∧
      ∀ offset bytes, .memcmp offset bytes ∈ conditions →
        ConditionHolds validAccountData lamports data (.memcmp offset bytes) := by
    constructor
    · exact fun hall => ⟨fun size hs => hall _ hs, fun ht => hall _ ht, fun cmp hc => hall _ hc,
        fun offset bytes hm => hall _ hm⟩
    · rintro ⟨hsize, htoken, hlamports, hmemcmp⟩ condition hc
      cases condition with
      | memcmp offset bytes => exact hmemcmp offset bytes hc
      | dataSize size => exact hsize size hc
      | tokenAccountState => exact htoken hc
      | lamports cmp => exact hlamports cmp hc
  have htoken : ¬((state.tokenAccountState && !validAccountData data) = true) ↔
      (.tokenAccountState ∈ conditions → validAccountData data = true) := by
    rw [← h.tokenAccountState]
    cases state.tokenAccountState <;> simp
  rw [hsplit, ← h.datasize_holds hbuild, ← htoken, ← h.lamports_hold validAccountData, ← hiff,
    FilterAccountsState.isMatch]
  split
  · rename_i hc
    exact ⟨false, rfl, iff_of_false Bool.false_ne_true fun hall => hall.1 hc⟩
  · rename_i hsize
    split
    · rename_i hc
      exact ⟨false, rfl, iff_of_false Bool.false_ne_true fun hall => hall.2.1 hc⟩
    · rename_i htok
      split
      · rename_i hc
        exact ⟨false, rfl, iff_of_false Bool.false_ne_true fun hall => hall.2.2.1 hc⟩
      · rename_i hlam
        exact ⟨b, hloop, fun hb => ⟨hsize, htok, hlam, hb⟩, fun hall => hall.2.2.2⟩

end FilterAccountsState

namespace FilterAccountsInner

variable {filter : ConfigFilterAccounts} {inner : FilterAccountsInner}

theorem new_ok (hbuild : Buildable filter.filters) : ∃ inner, new filter = .ok inner := by
  obtain ⟨state, hstate, -⟩ := FilterAccountsState.new_keeps hbuild
  rw [new, hstate]
  split
  · exact ⟨_, rfl⟩
  · exact ⟨_, rfl⟩

/-- The conditions that have been built are those configured. -/
theorem conditions_spec (hbuild : Buildable filter.filters)
    (hends : ∀ condition ∈ filter.filters, EndsBelow condition) (hnew : new filter = .ok inner)
    (validAccountData : Bytes → Bool) (lamports : ℕ) (data : Bytes) :
    ∃ b, inner.filters.elim (.ok true) (fun filters =>
        filters.isMatch validAccountData lamports data) = .ok b ∧
      (b = true ↔ ∀ condition ∈ filter.filters,
        ConditionHolds validAccountData lamports data condition) := by
  obtain ⟨state, hstate, hkeeps⟩ := FilterAccountsState.new_keeps hbuild
  rw [new, hstate] at hnew
  split at hnew
  · rename_i hnil
    rw [← Except.ok.inj hnew, hnil]
    exact ⟨true, rfl, by simp⟩
  · rw [← Except.ok.inj hnew]
    exact hkeeps.isMatch hbuild hends validAccountData lamports data

theorem new_fields (hnew : new filter = .ok inner) :
    inner.account = filter.account.toFinset ∧ inner.owner = filter.owner.toFinset ∧
      inner.nonemptyTxnSignature = filter.nonemptyTxnSignature := by
  rw [new] at hnew
  split at hnew
  · rw [← Except.ok.inj hnew]
    exact ⟨rfl, rfl, rfl⟩
  · obtain ⟨state, -, hinner⟩ := bind_eq_ok.mp hnew
    rw [← Except.ok.inj hinner]
    exact ⟨rfl, rfl, rfl⟩

/-- An account filter accepts the accounts it matches. -/
theorem accepts_spec (hbuild : Buildable filter.filters)
    (hends : ∀ condition ∈ filter.filters, EndsBelow condition) (hnew : new filter = .ok inner)
    (validAccountData : Bytes → Bool) (message : MessageAccount) :
    ∃ b, inner.accepts validAccountData message = .ok b ∧
      (b = true ↔ AccountMatches validAccountData filter message) := by
  obtain ⟨haccount, howner, hflag⟩ := new_fields hnew
  obtain ⟨matched, hmatched, hconditions⟩ := conditions_spec hbuild hends hnew validAccountData
    message.account.lamports message.account.data
  have hmatches : AccountMatches validAccountData filter message ↔
      ¬(inner.account ≠ ∅ ∧ message.pubkey ∉ inner.account) ∧
      ¬(inner.owner ≠ ∅ ∧ message.owner ∉ inner.owner) ∧ matched = true ∧
      ¬∃ flag ∈ inner.nonemptyTxnSignature, flag ≠ message.nonemptyTxnSignature := by
    rw [haccount, howner, hflag, not_restricted, not_restricted, option_agrees, hconditions]
    exact ⟨fun h => ⟨h.account, h.owner, h.conditions, h.nonemptyTxnSignature⟩,
      fun h => ⟨h.1, h.2.1, h.2.2.1, h.2.2.2⟩⟩
  rw [hmatches, accepts, hmatched]
  simp only [Except.bind, bind]
  split
  · rename_i hc
    exact ⟨false, rfl, iff_of_false Bool.false_ne_true fun h => h.1 hc⟩
  · rename_i hkey
    split
    · rename_i hc
      exact ⟨false, rfl, iff_of_false Bool.false_ne_true fun h => h.2.1 hc⟩
    · rename_i hown
      split
      · rename_i hc
        exact ⟨false, rfl, iff_of_false Bool.false_ne_true fun h => by simp [hc] at h⟩
      · rename_i htrue
        split
        · rename_i hc
          exact ⟨false, rfl, iff_of_false Bool.false_ne_true fun h => h.2.2.2 hc⟩
        · rename_i hsig
          exact ⟨true, rfl, iff_of_true rfl
            ⟨hkey, hown, Bool.eq_true_of_not_eq_false htrue, hsig⟩⟩

end FilterAccountsInner

end Dragonmouth.Filters
