import Dragonmouth.Foundations.HashMap
import Dragonmouth.Proto.Geyser

/-!
# Configuration of filters

The filters a client asks for and the limits the operator sets on them. Sizes
and 64-bit numbers are natural numbers. A set that is only asked for membership
is a finite set; maps and sets that are iterated are hash maps.

## Main definitions

- `ConfigFilter`: the filters of a subscription, by kind and name
- `ConfigLimits`: what the operator allows
- `ConfigLimitsError`, `ConfigFilterError`: why a filter is refused
-/

namespace Dragonmouth.Filters

/-- `MAX_FILTERS`. -/
def maxFilters : ℕ := 4

/-- `MAX_DATA_SIZE`. -/
def maxDataSize : ℕ := 128

/-- `MAX_DATA_BASE58_SIZE`. -/
def maxDataBase58Size : ℕ := 175

/-- `MAX_DATA_BASE64_SIZE`. -/
def maxDataBase64Size : ℕ := 172

structure ConfigFilterSlots where
  filterByCommitment : Option Bool
  deriving DecidableEq

inductive ConfigFilterAccountsFilterLamports where
  | eq (value : ℕ)
  | ne (value : ℕ)
  | lt (value : ℕ)
  | gt (value : ℕ)
  deriving DecidableEq

inductive ConfigFilterAccountsFilter where
  | memcmp (offset : ℕ) (data : Bytes)
  | dataSize (size : ℕ)
  | tokenAccountState
  | lamports (cmp : ConfigFilterAccountsFilterLamports)
  deriving DecidableEq

structure ConfigFilterAccounts where
  account : List Pubkey
  owner : List Pubkey
  filters : List ConfigFilterAccountsFilter
  nonemptyTxnSignature : Option Bool
  deriving DecidableEq

structure ConfigFilterAccountsDataSlice where
  offset : ℕ
  length : ℕ
  deriving DecidableEq

structure ConfigFilterTransactions where
  vote : Option Bool
  failed : Option Bool
  signature : Option Signature
  accountInclude : List Pubkey
  accountExclude : List Pubkey
  accountRequired : List Pubkey
  deriving DecidableEq

structure ConfigFilterBlocks where
  accountInclude : List Pubkey
  includeTransactions : Option Bool
  includeAccounts : Option Bool
  includeEntries : Option Bool
  deriving DecidableEq

inductive ConfigFilterCommitment where
  | processed
  | confirmed
  | finalized
  deriving DecidableEq

structure ConfigFilter where
  slots : HashMap String ConfigFilterSlots
  accounts : HashMap String ConfigFilterAccounts
  accountsDataSlice : List ConfigFilterAccountsDataSlice
  transactions : HashMap String ConfigFilterTransactions
  transactionsStatus : HashMap String ConfigFilterTransactions
  entries : HashSet String
  blocksMeta : HashSet String
  blocks : HashMap String ConfigFilterBlocks
  commitment : Option ConfigFilterCommitment

/-- `ConfigFilter::default`: nothing is asked for. -/
def ConfigFilter.default : ConfigFilter where
  slots := ∅
  accounts := ∅
  accountsDataSlice := []
  transactions := ∅
  transactionsStatus := ∅
  entries := ∅
  blocksMeta := ∅
  blocks := ∅
  commitment := none

/-- The names of the filters, of all seven kinds. -/
def ConfigFilter.names (filter : ConfigFilter) : List String :=
  filter.slots.keys ++ filter.accounts.keys ++ filter.transactions.keys ++
    filter.transactionsStatus.keys ++ filter.entries.keys ++ filter.blocksMeta.keys ++
    filter.blocks.keys

namespace ConfigFilterAccountsFilter

/-- A memcmp condition carries at most `MAX_DATA_SIZE` bytes. -/
def Fits : ConfigFilterAccountsFilter → Prop
  | memcmp _ data => data.length ≤ maxDataSize
  | dataSize _ => True
  | tokenAccountState => True
  | lamports _ => True

@[simp] theorem fits_memcmp {offset : ℕ} {data : Bytes} :
    (memcmp offset data).Fits ↔ data.length ≤ maxDataSize := Iff.rfl

@[simp] theorem fits_dataSize {size : ℕ} : (dataSize size).Fits := trivial

@[simp] theorem fits_tokenAccountState : tokenAccountState.Fits := trivial

@[simp] theorem fits_lamports {cmp : ConfigFilterAccountsFilterLamports} : (lamports cmp).Fits :=
  trivial

/-- The size a condition asks for. -/
def dataSize? : ConfigFilterAccountsFilter → Option ℕ
  | memcmp _ _ => none
  | dataSize size => some size
  | tokenAccountState => none
  | lamports _ => none

/-- The bytes a condition compares, with their offset. -/
def memcmp? : ConfigFilterAccountsFilter → Option (ℕ × Bytes)
  | memcmp offset data => some (offset, data)
  | _ => none

/-- The comparison of lamports a condition makes. -/
def lamports? : ConfigFilterAccountsFilter → Option ConfigFilterAccountsFilterLamports
  | lamports cmp => some cmp
  | _ => none

end ConfigFilterAccountsFilter

structure ConfigLimitsSlots where
  max : ℕ

structure ConfigLimitsAccounts where
  max : ℕ
  any : Bool
  accountMax : ℕ
  accountReject : Finset Pubkey
  ownerMax : ℕ
  ownerReject : Finset Pubkey
  dataSliceMax : ℕ

structure ConfigLimitsTransactions where
  max : ℕ
  any : Bool
  accountIncludeMax : ℕ
  accountIncludeReject : Finset Pubkey
  accountExcludeMax : ℕ
  accountRequiredMax : ℕ

structure ConfigLimitsEntries where
  max : ℕ

structure ConfigLimitsBlocksMeta where
  max : ℕ

structure ConfigLimitsBlocks where
  max : ℕ
  accountIncludeMax : ℕ
  accountIncludeAny : Bool
  accountIncludeReject : Finset Pubkey
  includeTransactions : Bool
  includeAccounts : Bool
  includeEntries : Bool

structure ConfigLimits where
  nameMax : ℕ
  slots : ConfigLimitsSlots
  accounts : ConfigLimitsAccounts
  transactions : ConfigLimitsTransactions
  transactionsStatus : ConfigLimitsTransactions
  entries : ConfigLimitsEntries
  blocksMeta : ConfigLimitsBlocksMeta
  blocks : ConfigLimitsBlocks

/-- `usize::MAX`. -/
def usizeMax : ℕ := 2 ^ 64 - 1

/-- `ConfigLimitsTransactions::default`. -/
def ConfigLimitsTransactions.default : ConfigLimitsTransactions where
  max := usizeMax
  any := true
  accountIncludeMax := usizeMax
  accountIncludeReject := ∅
  accountExcludeMax := usizeMax
  accountRequiredMax := usizeMax

/-- `ConfigLimits::default`. -/
def ConfigLimits.default : ConfigLimits where
  nameMax := 128
  slots := { max := usizeMax }
  accounts :=
    { max := usizeMax
      any := true
      accountMax := usizeMax
      accountReject := ∅
      ownerMax := usizeMax
      ownerReject := ∅
      dataSliceMax := usizeMax }
  transactions := .default
  transactionsStatus := .default
  entries := { max := usizeMax }
  blocksMeta := { max := usizeMax }
  blocks :=
    { max := usizeMax
      accountIncludeMax := usizeMax
      accountIncludeAny := true
      accountIncludeReject := ∅
      includeTransactions := true
      includeAccounts := true
      includeEntries := true }

inductive ConfigLimitsError where
  | filterNameOverflow (max : ℕ)
  | filtersOverflow (max : ℕ)
  | emptyNotAllowed
  | pubkeysOverflow (max : ℕ)
  | pubkeyNotAllowed (pubkey : Pubkey)
  | tooMuchFilters (max : ℕ)
  | filterDataOverflow
  | datasizeDuplicated
  | dataSliceOutOfOrder
  | dataSliceOverlap
  | blocksNotAllowed (included : String)
  deriving DecidableEq

inductive ConfigFilterError where
  | limits (error : ConfigLimitsError)
  | fieldNotDefined (field : String)
  | tokenAccountStateInvalid
  | invalidBase58
  | invalidBase64
  | pubkey (pubkey : String) (error : String)
  | signature (signature : String) (error : String)
  | unknownCommitment (value : ℤ)
  | invalidCommitment (value : Proto.CommitmentLevel)
  deriving DecidableEq

end Dragonmouth.Filters
