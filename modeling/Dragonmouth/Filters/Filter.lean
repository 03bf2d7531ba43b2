import Dragonmouth.Filters.Config
import Dragonmouth.Filters.Parse

/-!
# Filters

`Filter::new` turns a configuration into sets, arrays of a fixed capacity and
interned names; `get_updates_ref` evaluates it on a message. Whether data is that
of a token account is decided by a function that is a parameter. Additions on
64 bits wrap, as in a release build.

## Main definitions

- `FilterNames`, `ArrayVec`: interned names, and arrays of a fixed capacity
- `FilterSlots`, `FilterAccounts`, `FilterTransactions`, `FilterEntries`,
  `FilterBlocksMeta`, `FilterBlocks`: the filters of each kind
- `Filter.new`, `Filter.getUpdatesRef`: all of them
-/

namespace Dragonmouth.Filters

open Richat (MessageSlot MessageAccount MessageTransaction MessageEntry MessageBlockMeta
  MessageBlock)

/-- The panics of building, evaluating and encoding. -/
inductive Panic where
  /-- ArrayVec: capacity exceeded -/
  | capacityExceeded
  /-- slice index out of order or out of range -/
  | sliceIndex
  /-- capacity overflow -/
  | capacityOverflow
  /-- index out of bounds -/
  | indexOutOfBounds
  deriving DecidableEq

/-- At most `capacity` items. -/
structure ArrayVec (α : Type) (capacity : ℕ) where
  items : List α
  fits : items.length ≤ capacity

namespace ArrayVec

variable {α : Type} {capacity : ℕ}

def empty : ArrayVec α capacity := ⟨[], Nat.zero_le _⟩

/-- Collect items, which panics beyond the capacity. -/
def collect (items : List α) : Except Panic (ArrayVec α capacity) :=
  if h : items.length ≤ capacity then .ok ⟨items, h⟩ else .error .capacityExceeded

/-- Push an item, which panics beyond the capacity. -/
def push (self : ArrayVec α capacity) (item : α) : Except Panic (ArrayVec α capacity) :=
  collect (self.items ++ [item])

end ArrayVec

-- ════════════════════════════════════════════════════════════════════════
-- Names
-- ════════════════════════════════════════════════════════════════════════

structure FilterName where
  name : String
  deriving DecidableEq

/-- The names interned so far. -/
structure FilterNames where
  names : HashSet FilterName

namespace FilterNames

def default : FilterNames := ⟨∅⟩

/-- The name interned before, or a new one. -/
def get (self : FilterNames) (name : String) : FilterName × FilterNames :=
  match self.names.keys.find? fun interned => interned.name = name with
  | some interned => (interned, self)
  | none => (⟨name⟩, ⟨self.names.insert ⟨name⟩ ()⟩)

/-- The loops of the constructors: intern the name of each configured filter and
build its filter. -/
def buildAll {ν ν' : Type} (build : ν → Except Panic ν') :
    FilterNames → List (HashMap.Entry String ν) →
      Except Panic (List (HashMap.Entry FilterName ν') × FilterNames)
  | names, [] => .ok ([], names)
  | names, ⟨name, config⟩ :: configs => do
    let (name, names) := names.get name
    let filter ← build config
    let (filters, names) ← buildAll build names configs
    .ok (⟨name, filter⟩ :: filters, names)

/-- Intern the names of a set. -/
def getAll : FilterNames → List String → List FilterName × FilterNames
  | names, [] => ([], names)
  | names, name :: rest =>
    let (name, names) := names.get name
    let (rest, names) := getAll names rest
    (name :: rest, names)

end FilterNames

/-- The loops of the evaluations: the names of the filters that accept a message. -/
def acceptedNames {ν : Type} (accepts : ν → Except Panic Bool) :
    List (HashMap.Entry FilterName ν) → Except Panic (List String)
  | [] => .ok []
  | ⟨name, filter⟩ :: filters => do
    let accepted ← accepts filter
    let names ← acceptedNames accepts filters
    .ok (if accepted then name.name :: names else names)

-- ════════════════════════════════════════════════════════════════════════
-- Updates
-- ════════════════════════════════════════════════════════════════════════

/-- Ranges of the data of an account, `start..end`. -/
abbrev FilterAccountDataSlices := List (ℕ × ℕ)

inductive FilteredUpdateType where
  | slot (message : MessageSlot)
  | account (message : MessageAccount) (dataSlices : FilterAccountDataSlices)
  | transaction (message : MessageTransaction)
  | transactionStatus (message : MessageTransaction)
  | entry (message : MessageEntry)
  | blockMeta (message : MessageBlockMeta)
  | block (message : MessageBlock) (accounts transactions : List ℕ) (entries : Bool)
      (dataSlices : FilterAccountDataSlices)
  deriving DecidableEq

structure FilteredUpdate where
  filters : List String
  filteredUpdate : FilteredUpdateType
  deriving DecidableEq

/-- `filters.is_empty().not().then(..)`. -/
def updateOf (filters : List String) (filteredUpdate : FilteredUpdateType) :
    Option FilteredUpdate :=
  if filters = [] then none else some ⟨filters, filteredUpdate⟩

/-- `FilterAccountDataSlices::new`. -/
def FilterAccountDataSlices.new (dataSlices : List ConfigFilterAccountsDataSlice) :
    FilterAccountDataSlices :=
  dataSlices.map fun dataSlice =>
    (dataSlice.offset, (dataSlice.offset + dataSlice.length) % 2 ^ 64)

-- ════════════════════════════════════════════════════════════════════════
-- Slots
-- ════════════════════════════════════════════════════════════════════════

structure FilterSlotsInner where
  filterByCommitment : Bool

def FilterSlotsInner.new (filter : ConfigFilterSlots) : FilterSlotsInner :=
  ⟨filter.filterByCommitment.getD false⟩

def FilterSlotsInner.accepts (self : FilterSlotsInner) (message : MessageSlot)
    (commitment : Richat.CommitmentLevel) : Bool :=
  !self.filterByCommitment ||
    (message.commitment == .processed && commitment == .processed ||
      message.commitment == .confirmed && commitment == .confirmed ||
      message.commitment == .finalized && commitment == .finalized)

structure FilterSlots where
  filters : HashMap FilterName FilterSlotsInner

namespace FilterSlots

def new (state : RandomState) (seed : ℕ) (names : FilterNames)
    (configs : HashMap String ConfigFilterSlots) : Except Panic (FilterSlots × FilterNames) := do
  let (filters, names) ←
    FilterNames.buildAll (fun filter => .ok (FilterSlotsInner.new filter)) names configs.entries
  .ok (⟨.collect state seed filters⟩, names)

def getUpdate (self : FilterSlots) (message : MessageSlot) (commitment : Richat.CommitmentLevel) :
    Except Panic (Option FilteredUpdate) := do
  let filters ← acceptedNames (fun filter => .ok (filter.accepts message commitment))
    self.filters.entries
  .ok (updateOf filters (.slot message))

end FilterSlots

-- ════════════════════════════════════════════════════════════════════════
-- Accounts
-- ════════════════════════════════════════════════════════════════════════

inductive FilterAccountsLamports where
  | eq (value : ℕ)
  | ne (value : ℕ)
  | lt (value : ℕ)
  | gt (value : ℕ)
  deriving DecidableEq

namespace FilterAccountsLamports

def ofConfig : ConfigFilterAccountsFilterLamports → FilterAccountsLamports
  | .eq value => .eq value
  | .ne value => .ne value
  | .lt value => .lt value
  | .gt value => .gt value

def isMatch (lamports : ℕ) : FilterAccountsLamports → Bool
  | eq value => value = lamports
  | ne value => value ≠ lamports
  | lt value => value > lamports
  | gt value => value < lamports

end FilterAccountsLamports

structure FilterAccountsState where
  memcmp : ArrayVec (ℕ × ArrayVec UInt8 maxDataSize) maxFilters
  datasize : Option ℕ
  tokenAccountState : Bool
  lamports : ArrayVec FilterAccountsLamports maxFilters

namespace FilterAccountsState

def default : FilterAccountsState := ⟨.empty, none, false, .empty⟩

/-- Add a condition. -/
def add (self : FilterAccountsState) :
    ConfigFilterAccountsFilter → Except Panic FilterAccountsState
  | .memcmp offset data => do
    let data ← ArrayVec.collect data
    let memcmp ← self.memcmp.push (offset, data)
    .ok { self with memcmp := memcmp }
  | .dataSize datasize => .ok { self with datasize := some datasize }
  | .tokenAccountState => .ok { self with tokenAccountState := true }
  | .lamports value => do
    let lamports ← self.lamports.push (.ofConfig value)
    .ok { self with lamports := lamports }

/-- Add the conditions one after the other. -/
def addAll : FilterAccountsState → List ConfigFilterAccountsFilter →
    Except Panic FilterAccountsState
  | self, [] => .ok self
  | self, filter :: filters => do
    let self ← self.add filter
    addAll self filters

def new (filters : List ConfigFilterAccountsFilter) : Except Panic FilterAccountsState :=
  addAll default filters

/-- The loop over the memcmp conditions. -/
def matchMemcmp (data : Bytes) : List (ℕ × ArrayVec UInt8 maxDataSize) → Except Panic Bool
  | [] => .ok true
  | (offset, bytes) :: rest =>
    let stop := (offset + bytes.items.length) % 2 ^ 64
    if data.length < stop then .ok false
    else if stop < offset then .error .sliceIndex
    else if (data.drop offset).take (stop - offset) ≠ bytes.items then .ok false
    else matchMemcmp data rest

/-- `is_match`; `validAccountData` is `TokenAccount::valid_account_data`. -/
def isMatch (validAccountData : Bytes → Bool) (self : FilterAccountsState) (lamports : ℕ)
    (data : Bytes) : Except Panic Bool :=
  if ∃ datasize ∈ self.datasize, data.length ≠ datasize then .ok false
  else if self.tokenAccountState && !validAccountData data then .ok false
  else if self.lamports.items.any fun f => !f.isMatch lamports then .ok false
  else matchMemcmp data self.memcmp.items

end FilterAccountsState

structure FilterAccountsInner where
  account : Finset Pubkey
  owner : Finset Pubkey
  filters : Option FilterAccountsState
  nonemptyTxnSignature : Option Bool

namespace FilterAccountsInner

def new (filter : ConfigFilterAccounts) : Except Panic FilterAccountsInner := do
  let filters ←
    if filter.filters = [] then .ok none
    else (FilterAccountsState.new filter.filters).map some
  .ok
    { account := filter.account.toFinset
      owner := filter.owner.toFinset
      filters := filters
      nonemptyTxnSignature := filter.nonemptyTxnSignature }

def accepts (validAccountData : Bytes → Bool) (self : FilterAccountsInner)
    (message : MessageAccount) : Except Panic Bool :=
  if self.account ≠ ∅ ∧ message.pubkey ∉ self.account then .ok false
  else if self.owner ≠ ∅ ∧ message.owner ∉ self.owner then .ok false
  else do
    let matched ← self.filters.elim (.ok true) fun filters =>
      filters.isMatch validAccountData message.account.lamports message.account.data
    if matched = false then .ok false
    else if ∃ flag ∈ self.nonemptyTxnSignature, flag ≠ message.nonemptyTxnSignature then .ok false
    else .ok true

end FilterAccountsInner

structure FilterAccounts where
  filters : HashMap FilterName FilterAccountsInner

namespace FilterAccounts

def new (state : RandomState) (seed : ℕ) (names : FilterNames)
    (configs : HashMap String ConfigFilterAccounts) :
    Except Panic (FilterAccounts × FilterNames) := do
  let (filters, names) ← FilterNames.buildAll FilterAccountsInner.new names configs.entries
  .ok (⟨.collect state seed filters⟩, names)

def getUpdate (validAccountData : Bytes → Bool) (self : FilterAccounts)
    (message : MessageAccount) (dataSlices : FilterAccountDataSlices) :
    Except Panic (Option FilteredUpdate) := do
  let filters ← acceptedNames (fun filter => filter.accepts validAccountData message)
    self.filters.entries
  .ok (updateOf filters (.account message dataSlices))

end FilterAccounts

-- ════════════════════════════════════════════════════════════════════════
-- Transactions
-- ════════════════════════════════════════════════════════════════════════

inductive FilterTransactionsType where
  | transaction
  | transactionStatus
  deriving DecidableEq

structure FilterTransactionsInner where
  vote : Option Bool
  failed : Option Bool
  signature : Option Signature
  accountInclude : Finset Pubkey
  accountExclude : Finset Pubkey
  accountRequired : Finset Pubkey

namespace FilterTransactionsInner

def new (filter : ConfigFilterTransactions) : FilterTransactionsInner where
  vote := filter.vote
  failed := filter.failed
  signature := filter.signature
  accountInclude := filter.accountInclude.toFinset
  accountExclude := filter.accountExclude.toFinset
  accountRequired := filter.accountRequired.toFinset

def accepts (self : FilterTransactionsInner) (message : MessageTransaction) : Bool :=
  if ∃ isVote ∈ self.vote, isVote ≠ message.transaction.isVote then false
  else if ∃ isFailed ∈ self.failed, isFailed ≠ message.error.isSome then false
  else if ∃ signature ∈ self.signature, signature ≠ message.signature then false
  else if self.accountInclude ≠ ∅ ∧ self.accountInclude ∩ message.accountKeys = ∅ then false
  else if self.accountExclude ≠ ∅ ∧ self.accountExclude ∩ message.accountKeys ≠ ∅ then false
  else if self.accountRequired ≠ ∅ ∧ ¬self.accountRequired ⊆ message.accountKeys then false
  else true

end FilterTransactionsInner

structure FilterTransactions where
  filterType : FilterTransactionsType
  filters : HashMap FilterName FilterTransactionsInner

namespace FilterTransactions

def new (state : RandomState) (seed : ℕ) (names : FilterNames)
    (configs : HashMap String ConfigFilterTransactions) (filterType : FilterTransactionsType) :
    Except Panic (FilterTransactions × FilterNames) := do
  let (filters, names) ←
    FilterNames.buildAll (fun filter => .ok (FilterTransactionsInner.new filter)) names
      configs.entries
  .ok (⟨filterType, .collect state seed filters⟩, names)

def getUpdate (self : FilterTransactions) (message : MessageTransaction) :
    Except Panic (Option FilteredUpdate) := do
  let filters ← acceptedNames (fun filter => .ok (filter.accepts message)) self.filters.entries
  .ok (updateOf filters
    (match self.filterType with
      | .transaction => .transaction message
      | .transactionStatus => .transactionStatus message))

end FilterTransactions

-- ════════════════════════════════════════════════════════════════════════
-- Entries and block metas
-- ════════════════════════════════════════════════════════════════════════

structure FilterEntries where
  filters : List FilterName

namespace FilterEntries

def new (names : FilterNames) (configs : HashSet String) : FilterEntries × FilterNames :=
  let (filters, names) := names.getAll configs.keys
  (⟨filters⟩, names)

def getUpdate (self : FilterEntries) (message : MessageEntry) : Option FilteredUpdate :=
  updateOf (self.filters.map FilterName.name) (.entry message)

end FilterEntries

structure FilterBlocksMeta where
  filters : List FilterName

namespace FilterBlocksMeta

def new (names : FilterNames) (configs : HashSet String) : FilterBlocksMeta × FilterNames :=
  let (filters, names) := names.getAll configs.keys
  (⟨filters⟩, names)

def getUpdate (self : FilterBlocksMeta) (message : MessageBlockMeta) : Option FilteredUpdate :=
  updateOf (self.filters.map FilterName.name) (.blockMeta message)

end FilterBlocksMeta

-- ════════════════════════════════════════════════════════════════════════
-- Blocks
-- ════════════════════════════════════════════════════════════════════════

structure FilterBlocksInner where
  accountInclude : Finset Pubkey
  includeTransactions : Option Bool
  includeAccounts : Option Bool
  includeEntries : Option Bool

def FilterBlocksInner.new (filter : ConfigFilterBlocks) : FilterBlocksInner where
  accountInclude := filter.accountInclude.toFinset
  includeTransactions := filter.includeTransactions
  includeAccounts := filter.includeAccounts
  includeEntries := filter.includeEntries

/-- `iter().enumerate().filter_map(..)`: the indexes of the items that are selected. -/
def selectedIndexes {α : Type} (selects : α → Bool) (items : List α) : List ℕ :=
  items.zipIdx.filterMap fun (item, idx) => if selects item then some idx else none

namespace FilterBlocksInner

def accounts (self : FilterBlocksInner) (message : MessageBlock) : List ℕ :=
  if self.includeAccounts = some true then
    selectedIndexes (fun account =>
      !(self.accountInclude ≠ ∅ ∧ account.pubkey ∉ self.accountInclude)) message.accounts
  else []

def transactions (self : FilterBlocksInner) (message : MessageBlock) : List ℕ :=
  if self.includeTransactions = none ∨ self.includeTransactions = some true then
    selectedIndexes (fun tx : MessageTransaction =>
      !(self.accountInclude ≠ ∅ ∧ self.accountInclude ∩ tx.accountKeys = ∅)) message.transactions
  else []

/-- The update of one filter; `smallvec_inline![name; 8]` is eight copies of the name. -/
def update (self : FilterBlocksInner) (name : FilterName) (message : MessageBlock)
    (dataSlices : FilterAccountDataSlices) : FilteredUpdate where
  filters := List.replicate 8 name.name
  filteredUpdate := .block message (self.accounts message) (self.transactions message)
    (self.includeEntries = some true) dataSlices

end FilterBlocksInner

structure FilterBlocks where
  filters : HashMap FilterName FilterBlocksInner

namespace FilterBlocks

def new (state : RandomState) (seed : ℕ) (names : FilterNames)
    (configs : HashMap String ConfigFilterBlocks) : Except Panic (FilterBlocks × FilterNames) := do
  let (filters, names) ←
    FilterNames.buildAll (fun filter => .ok (FilterBlocksInner.new filter)) names configs.entries
  .ok (⟨.collect state seed filters⟩, names)

def getUpdates (self : FilterBlocks) (message : MessageBlock)
    (dataSlices : FilterAccountDataSlices) : List FilteredUpdate :=
  self.filters.entries.map fun ⟨name, filter⟩ => filter.update name message dataSlices

end FilterBlocks

-- ════════════════════════════════════════════════════════════════════════
-- The filter of a subscription
-- ════════════════════════════════════════════════════════════════════════

structure Filter where
  slots : FilterSlots
  accounts : FilterAccounts
  accountsDataSlices : FilterAccountDataSlices
  transactions : FilterTransactions
  transactionsStatus : FilterTransactions
  entries : FilterEntries
  blocksMeta : FilterBlocksMeta
  blocks : FilterBlocks
  commitment : ConfigFilterCommitment

namespace Filter

/-- `Filter::new`. -/
def new (state : RandomState) (config : ConfigFilter) : Except Panic Filter := do
  let (slots, names) ← FilterSlots.new state 0 .default config.slots
  let (accounts, names) ← FilterAccounts.new state 1 names config.accounts
  let accountsDataSlices := FilterAccountDataSlices.new config.accountsDataSlice
  let (transactions, names) ←
    FilterTransactions.new state 2 names config.transactions .transaction
  let (transactionsStatus, names) ←
    FilterTransactions.new state 3 names config.transactionsStatus .transactionStatus
  let (entries, names) := FilterEntries.new names config.entries
  let (blocksMeta, names) := FilterBlocksMeta.new names config.blocksMeta
  let (blocks, _) ← FilterBlocks.new state 4 names config.blocks
  .ok
    { slots := slots
      accounts := accounts
      accountsDataSlices := accountsDataSlices
      transactions := transactions
      transactionsStatus := transactionsStatus
      entries := entries
      blocksMeta := blocksMeta
      blocks := blocks
      commitment := config.commitment.getD .processed }

/-- `Filter::get_updates_ref`. -/
def getUpdatesRef (validAccountData : Bytes → Bool) (self : Filter) (message : Message)
    (commitment : Richat.CommitmentLevel) : Except Panic (List FilteredUpdate) :=
  match message with
  | .slot message => do
    let update ← self.slots.getUpdate message commitment
    .ok update.toList
  | .account message => do
    let update ← self.accounts.getUpdate validAccountData message self.accountsDataSlices
    .ok update.toList
  | .transaction message => do
    let update ← self.transactions.getUpdate message
    let status ← self.transactionsStatus.getUpdate message
    .ok (update.toList ++ status.toList)
  | .entry message => .ok (self.entries.getUpdate message).toList
  | .blockMeta message => .ok (self.blocksMeta.getUpdate message).toList
  | .block message => .ok (self.blocks.getUpdates message self.accountsDataSlices)

end Filter

end Dragonmouth.Filters
