import Mathlib.Data.List.Enum
import Dragonmouth.Filters.Config
import Dragonmouth.Foundations.Checks

/-!
# Limits on filters

`ConfigLimits::check_filter` admits the filter of a subscription section by
section. What each section admits is stated as an equivalence, and the filters
that are admitted follow from them. The entries of a block are checked against
the limit of its accounts.

## Main definitions

- `ConfigLimits.checkFilter`: the checks, in the order of the source
- `ConfigLimits.Within`: the limits other than that on the entries of blocks
- `ConfigLimits.Admits`: what an admitted filter is meant to satisfy
-/

namespace Dragonmouth.Filters

open Checks

namespace ConfigLimits

def checkNameMax (len max : ℕ) : Except ConfigLimitsError Unit :=
  check (len ≤ max) (.filterNameOverflow max)

def checkNamesMax (names : List String) (max : ℕ) : Except ConfigLimitsError Unit :=
  names.forM fun key => checkNameMax key.utf8ByteSize max

def checkMax (len max : ℕ) : Except ConfigLimitsError Unit :=
  check (len ≤ max) (.filtersOverflow max)

def checkAny (isEmpty any : Bool) : Except ConfigLimitsError Unit :=
  check ((!isEmpty || any) = true) .emptyNotAllowed

def checkPubkeyMax (len max : ℕ) : Except ConfigLimitsError Unit :=
  check (len ≤ max) (.pubkeysOverflow max)

def checkPubkeyReject (pubkey : Pubkey) (set : Finset Pubkey) : Except ConfigLimitsError Unit :=
  check (pubkey ∉ set) (.pubkeyNotAllowed pubkey)

end ConfigLimits

open ConfigLimits

/-- The checks of a section: its names and the number of its filters. -/
def checkSection {ν : Type} (filters : HashMap String ν) (nameMax max : ℕ) :
    Except ConfigLimitsError Unit := do
  checkNamesMax filters.keys nameMax
  checkMax filters.len max

def ConfigLimitsSlots.checkFilter (self : ConfigLimitsSlots) (nameMax : ℕ)
    (filters : HashMap String ConfigFilterSlots) : Except ConfigLimitsError Unit :=
  checkSection filters nameMax self.max

namespace ConfigLimitsAccounts

/-- The loop over the conditions of an account filter. -/
def checkConditions : Bool → List ConfigFilterAccountsFilter → Except ConfigLimitsError Unit
  | _, [] => .ok ()
  | datasizeDefined, .memcmp _ data :: filters => do
    check (¬data.length > maxDataSize) .filterDataOverflow
    checkConditions datasizeDefined filters
  | datasizeDefined, .dataSize _ :: filters => do
    check (datasizeDefined = false) .datasizeDuplicated
    checkConditions true filters
  | datasizeDefined, .tokenAccountState :: filters => checkConditions datasizeDefined filters
  | datasizeDefined, .lamports _ :: filters => checkConditions datasizeDefined filters

/-- The checks of one account filter. -/
def checkAccounts (self : ConfigLimitsAccounts) (filter : ConfigFilterAccounts) :
    Except ConfigLimitsError Unit := do
  checkAny (filter.account.isEmpty && filter.owner.isEmpty) self.any
  checkPubkeyMax filter.account.length self.accountMax
  checkPubkeyMax filter.owner.length self.ownerMax
  filter.account.forM fun pubkey => checkPubkeyReject pubkey self.accountReject
  filter.owner.forM fun pubkey => checkPubkeyReject pubkey self.ownerReject
  check (¬filter.filters.length > maxFilters) (.tooMuchFilters maxFilters)
  checkConditions false filter.filters

/-- Data slices are in order and do not overlap. An end above 64 bits wraps. -/
def checkDataSlices (dataSlices : List ConfigFilterAccountsDataSlice) :
    Except ConfigLimitsError Unit :=
  dataSlices.zipIdx.forM fun (dsA, i) => do
    (dataSlices.drop (i + 1)).forM fun dsB =>
      check (¬dsA.offset > dsB.offset) .dataSliceOutOfOrder
    (dataSlices.take i).forM fun sliceB =>
      check (¬dsA.offset < (sliceB.offset + sliceB.length) % 2 ^ 64) .dataSliceOverlap

def checkFilter (self : ConfigLimitsAccounts) (nameMax : ℕ)
    (filters : HashMap String ConfigFilterAccounts)
    (dataSlices : List ConfigFilterAccountsDataSlice) : Except ConfigLimitsError Unit := do
  checkSection filters nameMax self.max
  filters.values.forM self.checkAccounts
  checkMax dataSlices.length self.dataSliceMax
  checkDataSlices dataSlices

end ConfigLimitsAccounts

namespace ConfigLimitsTransactions

/-- The checks of one transaction filter. -/
def checkTransactions (self : ConfigLimitsTransactions) (filter : ConfigFilterTransactions) :
    Except ConfigLimitsError Unit := do
  checkAny (filter.vote.isNone && filter.failed.isNone && filter.accountInclude.isEmpty &&
    filter.accountExclude.isEmpty && filter.accountRequired.isEmpty) self.any
  checkPubkeyMax filter.accountInclude.length self.accountIncludeMax
  checkPubkeyMax filter.accountExclude.length self.accountExcludeMax
  checkPubkeyMax filter.accountRequired.length self.accountRequiredMax
  filter.accountInclude.forM fun pubkey => checkPubkeyReject pubkey self.accountIncludeReject

def checkFilter (self : ConfigLimitsTransactions) (nameMax : ℕ)
    (filters : HashMap String ConfigFilterTransactions) : Except ConfigLimitsError Unit := do
  checkSection filters nameMax self.max
  filters.values.forM self.checkTransactions

end ConfigLimitsTransactions

def ConfigLimitsEntries.checkFilter (self : ConfigLimitsEntries) (nameMax : ℕ)
    (filters : HashSet String) : Except ConfigLimitsError Unit :=
  checkSection filters nameMax self.max

def ConfigLimitsBlocksMeta.checkFilter (self : ConfigLimitsBlocksMeta) (nameMax : ℕ)
    (filters : HashSet String) : Except ConfigLimitsError Unit :=
  checkSection filters nameMax self.max

namespace ConfigLimitsBlocks

/-- The checks of one block filter. -/
def checkBlocks (self : ConfigLimitsBlocks) (filter : ConfigFilterBlocks) :
    Except ConfigLimitsError Unit := do
  checkAny filter.accountInclude.isEmpty self.accountIncludeAny
  checkPubkeyMax filter.accountInclude.length self.accountIncludeMax
  check (filter.includeTransactions = some false ∨ self.includeTransactions = true)
    (.blocksNotAllowed "transactions")
  check ((filter.includeAccounts = none ∨ filter.includeAccounts = some false) ∨
    self.includeAccounts = true) (.blocksNotAllowed "accounts")
  -- the limit of the accounts, as in the check before
  check ((filter.includeEntries = none ∨ filter.includeEntries = some false) ∨
    self.includeAccounts = true) (.blocksNotAllowed "entries")
  filter.accountInclude.forM fun pubkey => checkPubkeyReject pubkey self.accountIncludeReject

def checkFilter (self : ConfigLimitsBlocks) (nameMax : ℕ)
    (filters : HashMap String ConfigFilterBlocks) : Except ConfigLimitsError Unit := do
  checkSection filters nameMax self.max
  filters.values.forM self.checkBlocks

end ConfigLimitsBlocks

/-- `ConfigLimits::check_filter`. -/
def ConfigLimits.checkFilter (self : ConfigLimits) (filter : ConfigFilter) :
    Except ConfigLimitsError Unit := do
  self.slots.checkFilter self.nameMax filter.slots
  self.accounts.checkFilter self.nameMax filter.accounts filter.accountsDataSlice
  self.transactions.checkFilter self.nameMax filter.transactions
  self.transactionsStatus.checkFilter self.nameMax filter.transactionsStatus
  self.entries.checkFilter self.nameMax filter.entries
  self.blocksMeta.checkFilter self.nameMax filter.blocksMeta
  self.blocks.checkFilter self.nameMax filter.blocks

-- ════════════════════════════════════════════════════════════════════════
-- What the sections admit
-- ════════════════════════════════════════════════════════════════════════

/-- Every name is at most `nameMax` long, and there are at most `max` filters. -/
structure SectionWithin {ν : Type} (filters : HashMap String ν) (nameMax max : ℕ) : Prop where
  names : ∀ name ∈ filters.keys, name.utf8ByteSize ≤ nameMax
  count : filters.len ≤ max

/-- The lists and conditions of an account filter respect the limits. -/
structure ConfigLimitsAccounts.Admits (limits : ConfigLimitsAccounts)
    (filter : ConfigFilterAccounts) : Prop where
  account : filter.account.length ≤ limits.accountMax
  owner : filter.owner.length ≤ limits.ownerMax
  accountReject : ∀ pubkey ∈ filter.account, pubkey ∉ limits.accountReject
  ownerReject : ∀ pubkey ∈ filter.owner, pubkey ∉ limits.ownerReject
  conditions : filter.filters.length ≤ maxFilters
  data : ∀ condition ∈ filter.filters, condition.Fits
  dataSize : (filter.filters.filterMap ConfigFilterAccountsFilter.dataSize?).length ≤ 1

/-- The lists of a transaction filter respect the limits. -/
structure ConfigLimitsTransactions.Admits (limits : ConfigLimitsTransactions)
    (filter : ConfigFilterTransactions) : Prop where
  accountInclude : filter.accountInclude.length ≤ limits.accountIncludeMax
  accountExclude : filter.accountExclude.length ≤ limits.accountExcludeMax
  accountRequired : filter.accountRequired.length ≤ limits.accountRequiredMax
  accountIncludeReject : ∀ pubkey ∈ filter.accountInclude, pubkey ∉ limits.accountIncludeReject

/-- A block filter respects the limits, those on entries apart. -/
structure ConfigLimitsBlocks.Within (limits : ConfigLimitsBlocks) (filter : ConfigFilterBlocks) :
    Prop where
  accountInclude : filter.accountInclude.length ≤ limits.accountIncludeMax
  transactions : filter.includeTransactions ≠ some false → limits.includeTransactions = true
  accounts : filter.includeAccounts = some true → limits.includeAccounts = true
  accountIncludeReject : ∀ pubkey ∈ filter.accountInclude, pubkey ∉ limits.accountIncludeReject

/-- A filter that selects nothing in particular is allowed, or this one does. -/
def AnyAllowed (isEmpty any : Bool) : Prop := isEmpty = true → any = true

/-- A slice starts where those before it have ended, or after. -/
def SlicesOrdered (dataSlices : List ConfigFilterAccountsDataSlice) : Prop :=
  dataSlices.Pairwise fun a b =>
    a.offset ≤ b.offset ∧ (a.offset + a.length) % 2 ^ 64 ≤ b.offset

variable {ν : Type} {nameMax max : ℕ}

theorem checkAny_ok {isEmpty any : Bool} :
    checkAny isEmpty any = .ok () ↔ AnyAllowed isEmpty any := by
  rw [checkAny, check_eq_ok]
  cases isEmpty <;> cases any <;> simp [AnyAllowed]

theorem checkPubkeyReject_ok {pubkeys : List Pubkey} {set : Finset Pubkey} :
    (pubkeys.forM fun pubkey => checkPubkeyReject pubkey set) = .ok () ↔
      ∀ pubkey ∈ pubkeys, pubkey ∉ set := by
  simp only [forM_eq_ok, checkPubkeyReject, check_eq_ok]

theorem checkSection_ok {filters : HashMap String ν} :
    checkSection filters nameMax max = .ok () ↔ SectionWithin filters nameMax max := by
  simp only [checkSection, then_eq_ok, checkNamesMax, checkNameMax, checkMax, forM_eq_ok,
    check_eq_ok]
  exact ⟨fun h => ⟨h.1, h.2⟩, fun h => ⟨h.names, h.count⟩⟩

theorem checkConditions_ok {datasizeDefined : Bool} {filters : List ConfigFilterAccountsFilter} :
    ConfigLimitsAccounts.checkConditions datasizeDefined filters = .ok () ↔
      (∀ condition ∈ filters, condition.Fits) ∧
        (filters.filterMap ConfigFilterAccountsFilter.dataSize?).length + datasizeDefined.toNat ≤
          1 := by
  induction filters generalizing datasizeDefined with
  | nil => cases datasizeDefined <;> simp [ConfigLimitsAccounts.checkConditions]
  | cons condition filters ih =>
    rw [List.forall_mem_cons]
    cases condition with
    | memcmp offset data =>
      rw [ConfigLimitsAccounts.checkConditions, then_eq_ok, check_eq_ok, ih, not_lt,
        List.filterMap_cons_none rfl]
      simp [and_assoc]
    | dataSize size =>
      have hsize : (ConfigFilterAccountsFilter.dataSize size).dataSize? = some size := rfl
      rw [ConfigLimitsAccounts.checkConditions, then_eq_ok, check_eq_ok, ih,
        List.filterMap_cons_some hsize]
      cases datasizeDefined <;> simp
    | tokenAccountState =>
      rw [ConfigLimitsAccounts.checkConditions, ih,
        List.filterMap_cons_none rfl]
      simp
    | lamports cmp =>
      rw [ConfigLimitsAccounts.checkConditions, ih,
        List.filterMap_cons_none rfl]
      simp

theorem checkAccounts_ok {limits : ConfigLimitsAccounts} {filter : ConfigFilterAccounts} :
    limits.checkAccounts filter = .ok () ↔
      AnyAllowed (filter.account.isEmpty && filter.owner.isEmpty) limits.any ∧
        limits.Admits filter := by
  simp only [ConfigLimitsAccounts.checkAccounts, then_eq_ok, checkAny_ok, checkPubkeyMax,
    check_eq_ok, checkPubkeyReject_ok, checkConditions_ok, not_lt, gt_iff_lt]
  constructor
  · rintro ⟨hany, haccount, howner, haccounts, howners, hcount, hfits, hsize⟩
    exact ⟨hany, haccount, howner, haccounts, howners, hcount, hfits, by simpa using hsize⟩
  · rintro ⟨hany, h⟩
    exact ⟨hany, h.account, h.owner, h.accountReject, h.ownerReject, h.conditions, h.data,
      by simpa using h.dataSize⟩

theorem checkDataSlices_ok {dataSlices : List ConfigFilterAccountsDataSlice} :
    ConfigLimitsAccounts.checkDataSlices dataSlices = .ok () ↔ SlicesOrdered dataSlices := by
  simp only [ConfigLimitsAccounts.checkDataSlices, forM_eq_ok, then_eq_ok, check_eq_ok, not_lt,
    gt_iff_lt, Prod.forall, List.mem_zipIdx_iff_getElem?, SlicesOrdered, List.pairwise_iff_getElem]
  constructor
  · intro h i j hi hj hij
    have hdrop := (h dataSlices[i] i (List.getElem?_eq_getElem hi)).1 dataSlices[j]
    have htake := (h dataSlices[j] j (List.getElem?_eq_getElem hj)).2 dataSlices[i]
    refine ⟨hdrop ?_, htake ?_⟩
    · exact List.mem_drop_iff_getElem.mpr ⟨j - (i + 1), by omega, by congr 1; omega⟩
    · exact List.mem_take_iff_getElem.mpr ⟨i, by omega, rfl⟩
  · intro h a i hi
    obtain ⟨hlt, rfl⟩ := List.getElem?_eq_some_iff.mp hi
    constructor
    · intro b hb
      obtain ⟨k, hk, rfl⟩ := List.mem_drop_iff_getElem.mp hb
      exact (h i (i + 1 + k) hlt (by omega) (by omega)).1
    · intro b hb
      obtain ⟨k, hk, rfl⟩ := List.mem_take_iff_getElem.mp hb
      exact (h k i (by omega) hlt (by omega)).2

theorem checkTransactions_ok {limits : ConfigLimitsTransactions}
    {filter : ConfigFilterTransactions} :
    limits.checkTransactions filter = .ok () ↔
      AnyAllowed (filter.vote.isNone && filter.failed.isNone && filter.accountInclude.isEmpty &&
        filter.accountExclude.isEmpty && filter.accountRequired.isEmpty) limits.any ∧
        limits.Admits filter := by
  simp only [ConfigLimitsTransactions.checkTransactions, then_eq_ok, checkAny_ok, checkPubkeyMax,
    check_eq_ok, checkPubkeyReject_ok]
  constructor
  · rintro ⟨hany, hinclude, hexclude, hrequired, hreject⟩
    exact ⟨hany, hinclude, hexclude, hrequired, hreject⟩
  · rintro ⟨hany, h⟩
    exact ⟨hany, h.accountInclude, h.accountExclude, h.accountRequired, h.accountIncludeReject⟩

/-- A switch that is off or left out needs no permission. -/
theorem switch_allowed {included : Option Bool} {allowed : Bool} :
    (included = none ∨ included = some false) ∨ allowed = true ↔
      (included = some true → allowed = true) := by
  cases included with
  | none => simp
  | some b => cases b <;> simp

theorem checkBlocks_ok {limits : ConfigLimitsBlocks} {filter : ConfigFilterBlocks} :
    limits.checkBlocks filter = .ok () ↔
      (AnyAllowed filter.accountInclude.isEmpty limits.accountIncludeAny ∧ limits.Within filter) ∧
        (filter.includeEntries = some true → limits.includeAccounts = true) := by
  simp only [ConfigLimitsBlocks.checkBlocks, then_eq_ok, checkAny_ok, checkPubkeyMax, check_eq_ok,
    checkPubkeyReject_ok, switch_allowed]
  constructor
  · rintro ⟨hany, hinclude, htxs, haccounts, hentries, hreject⟩
    exact ⟨⟨hany, hinclude, fun hne => htxs.resolve_left hne, haccounts, hreject⟩, hentries⟩
  · rintro ⟨⟨hany, h⟩, hentries⟩
    exact ⟨hany, h.accountInclude, or_iff_not_imp_left.mpr h.transactions, h.accounts, hentries,
      h.accountIncludeReject⟩

-- ════════════════════════════════════════════════════════════════════════
-- What a filter that has been admitted satisfies
-- ════════════════════════════════════════════════════════════════════════

namespace ConfigLimits

/-- The limits on a subscription, those on the entries of blocks apart. -/
structure Within (limits : ConfigLimits) (filter : ConfigFilter) : Prop where
  slots : SectionWithin filter.slots limits.nameMax limits.slots.max
  accounts : SectionWithin filter.accounts limits.nameMax limits.accounts.max
  accountFilters : ∀ f ∈ filter.accounts.values,
    AnyAllowed (f.account.isEmpty && f.owner.isEmpty) limits.accounts.any ∧
      limits.accounts.Admits f
  dataSliceMax : filter.accountsDataSlice.length ≤ limits.accounts.dataSliceMax
  dataSlices : SlicesOrdered filter.accountsDataSlice
  transactions : SectionWithin filter.transactions limits.nameMax limits.transactions.max
  transactionFilters : ∀ f ∈ filter.transactions.values,
    AnyAllowed (f.vote.isNone && f.failed.isNone && f.accountInclude.isEmpty &&
      f.accountExclude.isEmpty && f.accountRequired.isEmpty) limits.transactions.any ∧
      limits.transactions.Admits f
  transactionsStatus :
    SectionWithin filter.transactionsStatus limits.nameMax limits.transactionsStatus.max
  statusFilters : ∀ f ∈ filter.transactionsStatus.values,
    AnyAllowed (f.vote.isNone && f.failed.isNone && f.accountInclude.isEmpty &&
      f.accountExclude.isEmpty && f.accountRequired.isEmpty) limits.transactionsStatus.any ∧
      limits.transactionsStatus.Admits f
  entries : SectionWithin filter.entries limits.nameMax limits.entries.max
  blocksMeta : SectionWithin filter.blocksMeta limits.nameMax limits.blocksMeta.max
  blocks : SectionWithin filter.blocks limits.nameMax limits.blocks.max
  blockFilters : ∀ f ∈ filter.blocks.values,
    AnyAllowed f.accountInclude.isEmpty limits.blocks.accountIncludeAny ∧ limits.blocks.Within f

/-- What an admitted filter is meant to satisfy. -/
structure Admits (limits : ConfigLimits) (filter : ConfigFilter) : Prop where
  names : ∀ name ∈ filter.names, name.utf8ByteSize ≤ limits.nameMax
  slots : filter.slots.len ≤ limits.slots.max
  accounts : filter.accounts.len ≤ limits.accounts.max
  transactions : filter.transactions.len ≤ limits.transactions.max
  transactionsStatus : filter.transactionsStatus.len ≤ limits.transactionsStatus.max
  entries : filter.entries.len ≤ limits.entries.max
  blocksMeta : filter.blocksMeta.len ≤ limits.blocksMeta.max
  blocks : filter.blocks.len ≤ limits.blocks.max
  accountFilters : ∀ f ∈ filter.accounts.values, limits.accounts.Admits f
  dataSlices : filter.accountsDataSlice.length ≤ limits.accounts.dataSliceMax
  transactionFilters : ∀ f ∈ filter.transactions.values, limits.transactions.Admits f
  statusFilters : ∀ f ∈ filter.transactionsStatus.values, limits.transactionsStatus.Admits f
  blockFilters : ∀ f ∈ filter.blocks.values, limits.blocks.Within f
  blockEntries : ∀ f ∈ filter.blocks.values,
    f.includeEntries = some true → limits.blocks.includeEntries = true

variable {limits : ConfigLimits} {filter : ConfigFilter}

/-- What is admitted: the entries of blocks are allowed along with the accounts. -/
theorem checkFilter_ok : limits.checkFilter filter = .ok () ↔ limits.Within filter ∧
    ∀ f ∈ filter.blocks.values, f.includeEntries = some true →
      limits.blocks.includeAccounts = true := by
  simp only [checkFilter, ConfigLimitsSlots.checkFilter, ConfigLimitsAccounts.checkFilter,
    ConfigLimitsTransactions.checkFilter, ConfigLimitsEntries.checkFilter,
    ConfigLimitsBlocksMeta.checkFilter, ConfigLimitsBlocks.checkFilter, then_eq_ok,
    checkSection_ok, forM_eq_ok, checkAccounts_ok, checkTransactions_ok, checkBlocks_ok,
    checkMax, check_eq_ok, checkDataSlices_ok, and_assoc]
  constructor
  · rintro ⟨hslots, haccounts, haccount, hmax, hslices, htxs, htx, hstatuses, hstatus, hentries,
      hmeta, hblocks, hblock⟩
    exact ⟨⟨hslots, haccounts, haccount, hmax, hslices, htxs, htx, hstatuses, hstatus, hentries,
      hmeta, hblocks, fun f hf => ⟨(hblock f hf).1, (hblock f hf).2.1⟩⟩,
      fun f hf => (hblock f hf).2.2⟩
  · rintro ⟨h, hentries⟩
    exact ⟨h.slots, h.accounts, h.accountFilters, h.dataSliceMax, h.dataSlices, h.transactions,
      h.transactionFilters, h.transactionsStatus, h.statusFilters, h.entries, h.blocksMeta,
      h.blocks, fun f hf => ⟨(h.blockFilters f hf).1, (h.blockFilters f hf).2, hentries f hf⟩⟩

theorem Within.names (h : limits.Within filter) {name : String} (hname : name ∈ filter.names) :
    name.utf8ByteSize ≤ limits.nameMax := by
  simp only [ConfigFilter.names, List.mem_append] at hname
  rcases hname with (((((h' | h') | h') | h') | h') | h') | h'
  · exact h.slots.names name h'
  · exact h.accounts.names name h'
  · exact h.transactions.names name h'
  · exact h.transactionsStatus.names name h'
  · exact h.entries.names name h'
  · exact h.blocksMeta.names name h'
  · exact h.blocks.names name h'

/-- A filter within the limits is admitted if its entries of blocks are. -/
theorem Within.admits (h : limits.Within filter) (hentries : ∀ f ∈ filter.blocks.values,
    f.includeEntries = some true → limits.blocks.includeEntries = true) : limits.Admits filter where
  names _ hname := h.names hname
  slots := h.slots.count
  accounts := h.accounts.count
  transactions := h.transactions.count
  transactionsStatus := h.transactionsStatus.count
  entries := h.entries.count
  blocksMeta := h.blocksMeta.count
  blocks := h.blocks.count
  accountFilters f hf := (h.accountFilters f hf).2
  dataSlices := h.dataSliceMax
  transactionFilters f hf := (h.transactionFilters f hf).2
  statusFilters f hf := (h.statusFilters f hf).2
  blockFilters f hf := (h.blockFilters f hf).2
  blockEntries := hentries

/-- A filter asks for entries of blocks, and the operator allows the accounts of
blocks but not the entries. -/
structure EntriesSlip (limits : ConfigLimits) (filter : ConfigFilter) : Prop where
  accounts : limits.blocks.includeAccounts = true
  entries : limits.blocks.includeEntries = false
  asked : ∃ f ∈ filter.blocks.values, f.includeEntries = some true

/-- A filter that is not admitted is refused, except for one within the other
limits that asks for entries where only accounts are allowed. -/
theorem checkFilter_sound_iff (limits : ConfigLimits) (filter : ConfigFilter) :
    (limits.checkFilter filter = .ok () → limits.Admits filter) ↔
      ¬(limits.Within filter ∧ limits.EntriesSlip filter) := by
  rw [checkFilter_ok]
  constructor
  · rintro h ⟨hwithin, haccounts, hentries, f, hf, hasked⟩
    have hadmits := h ⟨hwithin, fun _ _ _ => haccounts⟩
    have hallowed := hadmits.blockEntries f hf hasked
    rw [hentries] at hallowed
    cases hallowed
  · rintro h ⟨hwithin, haccounts⟩
    refine hwithin.admits fun f hf hasked => ?_
    cases hentries : limits.blocks.includeEntries with
    | true => rfl
    | false => exact absurd ⟨hwithin, haccounts f hf hasked, hentries, f, hf, hasked⟩ h

/-- The default limits with the entries of blocks switched off. -/
def withoutEntries : ConfigLimits :=
  { ConfigLimits.default with
    blocks := { ConfigLimits.default.blocks with includeEntries := false } }

/-- A subscription to blocks with their entries. -/
def blocksWithEntries : ConfigFilter :=
  { ConfigFilter.default with
    blocks := .singleton "blocks"
      { accountInclude := []
        includeTransactions := none
        includeAccounts := none
        includeEntries := some true } }

/-- Entries of blocks are admitted although they are switched off. -/
theorem disabled_entries_admitted :
    withoutEntries.checkFilter blocksWithEntries = .ok () ∧
      ¬withoutEntries.Admits blocksWithEntries := by
  refine ⟨rfl, fun h => ?_⟩
  have hallowed := h.blockEntries _ (List.mem_singleton.mpr rfl) rfl
  cases hallowed

end ConfigLimits

end Dragonmouth.Filters
