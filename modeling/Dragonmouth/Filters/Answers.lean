import Dragonmouth.Filters.Conditions
import Dragonmouth.Filters.Limits

/-!
# The updates of a message

A filter built from a configuration answers a message that is no block with at
most one update of each kind, which names the configured filters that match.

## Main definitions

- `Filter.Built`: a filter holds what has been configured
-/

namespace Dragonmouth.Filters

open Checks
open Richat (MessageSlot MessageAccount MessageTransaction)

-- ════════════════════════════════════════════════════════════════════════
-- Building a whole filter
-- ════════════════════════════════════════════════════════════════════════

/-- The conditions of every account filter can be kept whole. -/
def ConfigFilter.Buildable (config : ConfigFilter) : Prop :=
  ∀ filter ∈ config.accounts.values, Filters.Buildable filter.filters

/-- No memcmp condition ends beyond 64 bits. -/
def ConfigFilter.EndsBelow (config : ConfigFilter) : Prop :=
  ∀ filter ∈ config.accounts.values, ∀ condition ∈ filter.filters, Filters.EndsBelow condition

/-- A filter holds what has been configured. -/
structure Filter.Built (config : ConfigFilter) (filter : Filter) : Prop where
  slots : BuiltFrom (fun f => .ok (FilterSlotsInner.new f)) config.slots filter.slots.filters
  accounts : BuiltFrom FilterAccountsInner.new config.accounts filter.accounts.filters
  accountsDataSlices : filter.accountsDataSlices = .new config.accountsDataSlice
  transactionsType : filter.transactions.filterType = .transaction
  transactions : BuiltFrom (fun f => .ok (FilterTransactionsInner.new f)) config.transactions
    filter.transactions.filters
  transactionsStatusType : filter.transactionsStatus.filterType = .transactionStatus
  transactionsStatus : BuiltFrom (fun f => .ok (FilterTransactionsInner.new f))
    config.transactionsStatus filter.transactionsStatus.filters
  entries : filter.entries.filters = config.entries.keys.map FilterName.mk
  blocksMeta : filter.blocksMeta.filters = config.blocksMeta.keys.map FilterName.mk
  blocks : BuiltFrom (fun f => .ok (FilterBlocksInner.new f)) config.blocks filter.blocks.filters

section

variable {state : RandomState} {seed : ℕ} {names : FilterNames}

theorem FilterSlots.built_of_new {configs : HashMap String ConfigFilterSlots}
    {built : FilterSlots × FilterNames} (h : new state seed names configs = .ok built) :
    BuiltFrom (fun f => .ok (FilterSlotsInner.new f)) configs built.1.filters := by
  obtain ⟨filters, hfilters, h⟩ := bind_eq_ok.mp h
  rw [← Except.ok.inj h]
  exact collect_built hfilters state seed

theorem FilterAccounts.built_of_new {configs : HashMap String ConfigFilterAccounts}
    {built : FilterAccounts × FilterNames} (h : new state seed names configs = .ok built) :
    BuiltFrom FilterAccountsInner.new configs built.1.filters := by
  obtain ⟨filters, hfilters, h⟩ := bind_eq_ok.mp h
  rw [← Except.ok.inj h]
  exact collect_built hfilters state seed

theorem FilterTransactions.built_of_new {configs : HashMap String ConfigFilterTransactions}
    {filterType : FilterTransactionsType} {built : FilterTransactions × FilterNames}
    (h : new state seed names configs filterType = .ok built) :
    built.1.filterType = filterType ∧
      BuiltFrom (fun f => .ok (FilterTransactionsInner.new f)) configs built.1.filters := by
  obtain ⟨filters, hfilters, h⟩ := bind_eq_ok.mp h
  rw [← Except.ok.inj h]
  exact ⟨rfl, collect_built hfilters state seed⟩

theorem FilterBlocks.built_of_new {configs : HashMap String ConfigFilterBlocks}
    {built : FilterBlocks × FilterNames} (h : new state seed names configs = .ok built) :
    BuiltFrom (fun f => .ok (FilterBlocksInner.new f)) configs built.1.filters := by
  obtain ⟨filters, hfilters, h⟩ := bind_eq_ok.mp h
  rw [← Except.ok.inj h]
  exact collect_built hfilters state seed

theorem Filter.built_of_new {config : ConfigFilter} {filter : Filter}
    (h : Filter.new state config = .ok filter) : filter.Built config := by
  obtain ⟨slots, hslots, h⟩ := bind_eq_ok.mp h
  obtain ⟨accounts, haccounts, h⟩ := bind_eq_ok.mp h
  obtain ⟨transactions, htransactions, h⟩ := bind_eq_ok.mp h
  obtain ⟨statuses, hstatuses, h⟩ := bind_eq_ok.mp h
  obtain ⟨blocks, hblocks, h⟩ := bind_eq_ok.mp h
  rw [← Except.ok.inj h]
  exact
    { slots := FilterSlots.built_of_new hslots
      accounts := FilterAccounts.built_of_new haccounts
      accountsDataSlices := rfl
      transactionsType := (FilterTransactions.built_of_new htransactions).1
      transactions := (FilterTransactions.built_of_new htransactions).2
      transactionsStatusType := (FilterTransactions.built_of_new hstatuses).1
      transactionsStatus := (FilterTransactions.built_of_new hstatuses).2
      entries := FilterNames.getAll_names _ _
      blocksMeta := FilterNames.getAll_names _ _
      blocks := FilterBlocks.built_of_new hblocks }

/-- The accounts are the only section whose constructor can fail. -/
theorem Filter.new_ok (state : RandomState) {config : ConfigFilter} (hbuild : config.Buildable) :
    ∃ filter, Filter.new state config = .ok filter := by
  have haccounts : ∀ c ∈ config.accounts.entries, ∃ f, FilterAccountsInner.new c.2 = .ok f :=
    fun c hc => FilterAccountsInner.new_ok (hbuild c.2 (HashMap.mem_values.mpr ⟨c.1, hc⟩))
  have htotal : ∀ {ν ν' : Type} (build : ν → ν') (configs : HashMap String ν) (names : FilterNames),
      ∃ built, FilterNames.buildAll (fun f => .ok (build f)) names configs.entries = .ok built :=
    fun build configs => FilterNames.buildAll_ok fun c _ => ⟨build c.2, rfl⟩
  obtain ⟨slots, hslots⟩ := htotal FilterSlotsInner.new config.slots .default
  obtain ⟨accounts, haccounts⟩ := FilterNames.buildAll_ok haccounts slots.2
  obtain ⟨transactions, htransactions⟩ :=
    htotal FilterTransactionsInner.new config.transactions accounts.2
  obtain ⟨statuses, hstatuses⟩ :=
    htotal FilterTransactionsInner.new config.transactionsStatus transactions.2
  obtain ⟨blocks, hblocks⟩ := htotal FilterBlocksInner.new config.blocks
    (FilterBlocksMeta.new (FilterEntries.new statuses.2 config.entries).2 config.blocksMeta).2
  simp only [Filter.new, FilterSlots.new, FilterAccounts.new, FilterTransactions.new,
    FilterBlocks.new, hslots, haccounts, htransactions, hstatuses, hblocks, Except.bind, bind]
  exact ⟨_, rfl⟩

end

-- ════════════════════════════════════════════════════════════════════════
-- The updates of a message
-- ════════════════════════════════════════════════════════════════════════

theorem mem_updateOf {names : List String} {u : FilteredUpdateType} {update : FilteredUpdate}
    (h : update ∈ (updateOf names u).toList) : update.filteredUpdate = u := by
  rw [updateOf] at h
  split at h
  · exact absurd h List.not_mem_nil
  · rw [List.mem_singleton.mp h]

theorem filter_same (names : List String) {u : FilteredUpdateType} {kind : UpdateKind}
    (hkind : u.kind = kind) :
    ((updateOf names u).toList.filter fun update => update.filteredUpdate.kind = kind) =
      (updateOf names u).toList :=
  List.filter_eq_self.mpr fun _ hu => decide_eq_true (mem_updateOf hu ▸ hkind)

theorem filter_other (names : List String) {u : FilteredUpdateType} {kind : UpdateKind}
    (hkind : u.kind ≠ kind) :
    ((updateOf names u).toList.filter fun update => update.filteredUpdate.kind = kind) = [] :=
  List.filter_eq_nil_iff.mpr fun _ hu =>
    decide_eq_true_iff.not.mpr (mem_updateOf hu ▸ hkind)

section

variable {validAccountData : Bytes → Bool} {config : ConfigFilter} {filter : Filter}
  {commitment : Richat.CommitmentLevel}

/-- The answer of a message that produces updates of one kind. -/
theorem answers_one {names : List String} (u : FilteredUpdateType)
    (hkinds : kinds u.message = [u.kind]) (hnodup : names.Nodup)
    (hmem : ∀ name, name ∈ names ↔
      Matches validAccountData config commitment u.message u.kind name) :
    Answers validAccountData config commitment u.message (updateOf names u).toList := by
  constructor
  · intro update hupdate
    rw [mem_updateOf hupdate, hkinds]
    exact ⟨rfl, List.mem_singleton.mpr rfl⟩
  · intro kind hkind
    rw [hkinds] at hkind
    rw [List.mem_singleton.mp hkind, filter_same names rfl]
    exact updateOf_answer hnodup hmem u

namespace Filter.Built

variable (h : filter.Built config)
include h

theorem slot_answers (message : MessageSlot) :
    ∃ updates, filter.getUpdatesRef validAccountData (.slot message) commitment = .ok updates ∧
      Answers validAccountData config commitment (.slot message) updates := by
  obtain ⟨names, hnames, hnodup, hmem⟩ := acceptedNames_built h.slots
    (fun f => .ok (f.accepts message commitment))
    (fun f => SlotMatches f message commitment) fun f inner _ hinner =>
      ⟨_, rfl, by rw [← Except.ok.inj hinner]; exact FilterSlotsInner.accepts_iff⟩
  refine ⟨(updateOf names (.slot message)).toList, ?_, answers_one (.slot message) rfl hnodup hmem⟩
  rw [getUpdatesRef, FilterSlots.getUpdate, hnames]
  rfl

theorem account_answers (hbuild : config.Buildable) (hends : config.EndsBelow)
    (message : MessageAccount) :
    ∃ updates, filter.getUpdatesRef validAccountData (.account message) commitment = .ok updates ∧
      Answers validAccountData config commitment (.account message) updates := by
  obtain ⟨names, hnames, hnodup, hmem⟩ := acceptedNames_built h.accounts
    (fun f => f.accepts validAccountData message)
    (fun f => AccountMatches validAccountData f message) fun f inner hf hinner =>
      FilterAccountsInner.accepts_spec (hbuild f hf) (hends f hf) hinner validAccountData message
  refine ⟨(updateOf names (.account message filter.accountsDataSlices)).toList, ?_,
    answers_one (.account message _) rfl hnodup hmem⟩
  rw [getUpdatesRef, FilterAccounts.getUpdate, hnames]
  rfl

theorem entry_answers (message : Richat.MessageEntry) :
    Answers validAccountData config commitment (.entry message)
      (filter.entries.getUpdate message).toList := by
  have hnames : filter.entries.filters.map FilterName.name = config.entries.keys := by
    rw [h.entries, List.map_map]
    exact List.map_id _
  rw [FilterEntries.getUpdate, hnames]
  exact answers_one (.entry message) rfl config.entries.keys_nodup fun _ => AList.mem_keys.symm

theorem blockMeta_answers (message : Richat.MessageBlockMeta) :
    Answers validAccountData config commitment (.blockMeta message)
      (filter.blocksMeta.getUpdate message).toList := by
  have hnames : filter.blocksMeta.filters.map FilterName.name = config.blocksMeta.keys := by
    rw [h.blocksMeta, List.map_map]
    exact List.map_id _
  rw [FilterBlocksMeta.getUpdate, hnames]
  exact answers_one (.blockMeta message) rfl config.blocksMeta.keys_nodup
    fun _ => AList.mem_keys.symm

theorem transaction_answers {message : MessageTransaction} (hkeyed : Keyed message) :
    ∃ updates,
      filter.getUpdatesRef validAccountData (.transaction message) commitment = .ok updates ∧
      Answers validAccountData config commitment (.transaction message) updates := by
  have haccepts : ∀ f inner, (.ok (FilterTransactionsInner.new f) : Except Panic _) = .ok inner →
      (inner.accepts message = true ↔ TransactionMatches f message) := by
    intro f inner hinner
    rw [← Except.ok.inj hinner]
    exact FilterTransactionsInner.accepts_iff hkeyed
  obtain ⟨names, hnames, hnodup, hmem⟩ := acceptedNames_built h.transactions
    (fun f => .ok (f.accepts message)) (fun f => TransactionMatches f message)
    fun f inner _ hinner => ⟨_, rfl, haccepts f inner hinner⟩
  obtain ⟨statuses, hstatuses, hnodup', hmem'⟩ := acceptedNames_built h.transactionsStatus
    (fun f => .ok (f.accepts message)) (fun f => TransactionMatches f message)
    fun f inner _ hinner => ⟨_, rfl, haccepts f inner hinner⟩
  refine ⟨(updateOf names (.transaction message)).toList ++
    (updateOf statuses (.transactionStatus message)).toList, ?_, ?_, ?_⟩
  · rw [getUpdatesRef, FilterTransactions.getUpdate, FilterTransactions.getUpdate, hnames,
      hstatuses, h.transactionsType, h.transactionsStatusType]
    rfl
  · intro update hupdate
    rcases List.mem_append.mp hupdate with hu | hu
    · rw [mem_updateOf hu]
      exact ⟨rfl, .head _⟩
    · rw [mem_updateOf hu]
      exact ⟨rfl, .tail _ (.head _)⟩
  · intro kind hkind
    have htx : (FilteredUpdateType.transaction message).kind = .transaction := rfl
    have hst : (FilteredUpdateType.transactionStatus message).kind = .transactionStatus := rfl
    rw [List.filter_append]
    rcases List.mem_pair.mp hkind with rfl | rfl
    · rw [filter_same names htx, filter_other statuses (by rw [hst]; decide), List.append_nil]
      exact updateOf_answer hnodup hmem _
    · rw [filter_other names (by rw [htx]; decide), filter_same statuses hst, List.nil_append]
      exact updateOf_answer hnodup' hmem' _

end Filter.Built

end

/-- The conditions of an account filter that has been admitted are kept whole. -/
theorem ConfigLimitsAccounts.Admits.buildable {limits : ConfigLimitsAccounts}
    {filter : ConfigFilterAccounts} (h : limits.Admits filter) : Buildable filter.filters := by
  refine ⟨(List.length_filterMap_le _ _).trans h.conditions,
    (List.length_filterMap_le _ _).trans h.conditions, h.data, ?_⟩
  intro a b ha hb
  rw [← FilterAccountsState.mem_dataSize] at ha hb
  obtain ⟨i, hi, rfl⟩ := List.getElem_of_mem ha
  obtain ⟨j, hj, rfl⟩ := List.getElem_of_mem hb
  have hone := h.dataSize
  have hij : i = j := by omega
  subst hij
  rfl

/-- A filter the limits have admitted can be built. -/
theorem buildable_of_checkFilter {limits : ConfigLimits} {config : ConfigFilter}
    (h : limits.checkFilter config = .ok ()) : config.Buildable := by
  intro filter hfilter
  exact ((ConfigLimits.checkFilter_ok.mp h).1.accountFilters filter hfilter).2.buildable

/-- A filter that can be built answers every message that is no block. -/
theorem getUpdatesRef_answers (validAccountData : Bytes → Bool) (state : RandomState)
    {config : ConfigFilter} (hbuild : config.Buildable) (hends : config.EndsBelow) :
    ∃ filter, Filter.new state config = .ok filter ∧
      ∀ (message : Message) (commitment : Richat.CommitmentLevel),
        (∀ block, message ≠ .block block) → (∀ tx, message = .transaction tx → Keyed tx) →
        ∃ updates, filter.getUpdatesRef validAccountData message commitment = .ok updates ∧
          Answers validAccountData config commitment message updates := by
  obtain ⟨filter, hnew⟩ := Filter.new_ok state hbuild
  have hbuilt := Filter.built_of_new hnew
  refine ⟨filter, hnew, fun message commitment hblock hkeyed => ?_⟩
  cases message with
  | slot message => exact hbuilt.slot_answers message
  | account message => exact hbuilt.account_answers hbuild hends message
  | transaction message => exact hbuilt.transaction_answers (hkeyed message rfl)
  | entry message => exact ⟨_, rfl, hbuilt.entry_answers message⟩
  | blockMeta message => exact ⟨_, rfl, hbuilt.blockMeta_answers message⟩
  | block message => exact absurd rfl (hblock message)

/-- An account filter with the given conditions. -/
def accountsWith (conditions : List ConfigFilterAccountsFilter) : ConfigFilter :=
  { ConfigFilter.default with
    accounts := .singleton "accounts"
      { account := []
        owner := []
        filters := conditions
        nonemptyTxnSignature := none } }

/-- An account with two bytes of data. -/
def twoBytes : MessageAccount where
  pubkey := .replicate 32 1
  owner := .replicate 32 2
  nonemptyTxnSignature := false
  account :=
    { pubkey := .replicate 32 1
      lamports := 300
      owner := .replicate 32 2
      executable := false
      rentEpoch := 0
      data := [6, 6]
      writeVersion := 6
      txnSignature := none }
  slot := 9
  isStartup := false
  createdAt := ⟨1, 500⟩
  size := 0

theorem getUpdatesRef_answers_twoBytes :
    ∃ filter, Filter.new .listed (accountsWith [.memcmp 1 [6], .dataSize 2]) = .ok filter ∧
      ∃ updates, filter.getUpdatesRef (fun _ => false) (.account twoBytes) .processed =
        .ok updates ∧ Answers (fun _ => false) (accountsWith [.memcmp 1 [6], .dataSize 2])
          .processed (.account twoBytes) updates := by
  have hbuild : (accountsWith [.memcmp 1 [6], .dataSize 2]).Buildable := by
    intro filter hfilter
    rw [List.mem_singleton.mp hfilter]
    exact ⟨by decide, by decide, by simp [maxDataSize], by simp⟩
  have hends : (accountsWith [.memcmp 1 [6], .dataSize 2]).EndsBelow := by
    intro filter hfilter
    rw [List.mem_singleton.mp hfilter]
    simp [EndsBelow]
  obtain ⟨filter, hnew, h⟩ := getUpdatesRef_answers (fun _ => false) .listed hbuild hends
  exact ⟨filter, hnew, h (.account twoBytes) .processed (by simp) (by simp)⟩

/-- Of two sizes asked for, the last one decides. -/
theorem last_size_decides :
    (accountsWith [.dataSize 1, .dataSize 2]).EndsBelow ∧
      ∃ filter updates, Filter.new .listed (accountsWith [.dataSize 1, .dataSize 2]) = .ok filter ∧
        filter.getUpdatesRef (fun _ => false) (.account twoBytes) .processed = .ok updates ∧
        ¬Answers (fun _ => false) (accountsWith [.dataSize 1, .dataSize 2]) .processed
          (.account twoBytes) updates := by
  refine ⟨?_, _, _, rfl, rfl, fun h => ?_⟩
  · intro filter hfilter
    rw [List.mem_singleton.mp hfilter]
    simp [EndsBelow]
  · have hnone := (h.answer .account (.head _)).none ?_
    · cases hnone
    · rintro ⟨name, filter, hfilter, hmatches⟩
      have hlookup := List.mem_singleton.mp (AList.mem_lookup_iff.mp hfilter)
      cases hlookup
      have hsize : (2 : ℕ) = 1 := hmatches.conditions (.dataSize 1) (.head _)
      cases hsize

end Dragonmouth.Filters
