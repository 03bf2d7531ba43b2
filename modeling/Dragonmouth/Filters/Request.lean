import Dragonmouth.Filters.Config
import Dragonmouth.Filters.Parse
import Dragonmouth.Foundations.Checks

/-!
# Requests

A subscriber sends its filters as a request; the server turns them back into a
configuration. The parsers of keys, signatures and encodings are parameters, and
each map that is built orders its entries as its state says.

## Main definitions

- `SubscribeRequest`: the filters of a request
- `SubscribeRequest.ofConfig`, `ConfigFilter.tryFrom`: the conversions
- `ConfigFilter.Same`: configurations that are equal section by section
-/

namespace Dragonmouth.Filters

open Checks
open Proto (CommitmentLevel)

-- ════════════════════════════════════════════════════════════════════════
-- Requests
-- ════════════════════════════════════════════════════════════════════════

structure SubscribeRequestFilterSlots where
  filterByCommitment : Option Bool

inductive AccountsFilterLamports where
  | eq (value : ℕ)
  | ne (value : ℕ)
  | lt (value : ℕ)
  | gt (value : ℕ)

structure SubscribeRequestFilterAccountsFilterLamports where
  cmp : Option AccountsFilterLamports

inductive AccountsFilterMemcmpOneof where
  | bytes (data : Bytes)
  | base58 (data : String)
  | base64 (data : String)

structure SubscribeRequestFilterAccountsFilterMemcmp where
  offset : ℕ
  data : Option AccountsFilterMemcmpOneof

inductive AccountsFilterDataOneof where
  | memcmp (memcmp : SubscribeRequestFilterAccountsFilterMemcmp)
  | datasize (size : ℕ)
  | tokenAccountState (value : Bool)
  | lamports (lamports : SubscribeRequestFilterAccountsFilterLamports)

structure SubscribeRequestFilterAccountsFilter where
  filter : Option AccountsFilterDataOneof

structure SubscribeRequestFilterAccounts where
  account : List String
  owner : List String
  filters : List SubscribeRequestFilterAccountsFilter
  nonemptyTxnSignature : Option Bool

structure SubscribeRequestAccountsDataSlice where
  offset : ℕ
  length : ℕ

structure SubscribeRequestFilterTransactions where
  vote : Option Bool
  failed : Option Bool
  signature : Option String
  accountInclude : List String
  accountExclude : List String
  accountRequired : List String

structure SubscribeRequestFilterEntry where

structure SubscribeRequestFilterBlocksMeta where

structure SubscribeRequestFilterBlocks where
  accountInclude : List String
  includeTransactions : Option Bool
  includeAccounts : Option Bool
  includeEntries : Option Bool

structure SubscribeRequestPing where
  id : ℤ

structure SubscribeRequest where
  slots : HashMap String SubscribeRequestFilterSlots
  accounts : HashMap String SubscribeRequestFilterAccounts
  accountsDataSlice : List SubscribeRequestAccountsDataSlice
  transactions : HashMap String SubscribeRequestFilterTransactions
  transactionsStatus : HashMap String SubscribeRequestFilterTransactions
  entry : HashMap String SubscribeRequestFilterEntry
  blocksMeta : HashMap String SubscribeRequestFilterBlocksMeta
  blocks : HashMap String SubscribeRequestFilterBlocks
  commitment : Option ℤ
  ping : Option SubscribeRequestPing
  fromSlot : Option Slot

/-- String forms: those of keys and signatures, and the decoders of data. -/
structure Strings where
  pubkeyToString : Pubkey → String
  pubkeyParse : String → Except String Pubkey
  signatureToString : Signature → String
  signatureParse : String → Except String Signature
  base58Decode : String → Option Bytes
  base64Decode : String → Option Bytes

/-- String forms parse back to the same value. -/
structure Strings.Documented (S : Strings) : Prop where
  pubkey : ∀ pubkey, S.pubkeyParse (S.pubkeyToString pubkey) = .ok pubkey
  signature : ∀ signature, S.signatureParse (S.signatureToString signature) = .ok signature

-- ════════════════════════════════════════════════════════════════════════
-- To a request
-- ════════════════════════════════════════════════════════════════════════

/-- `ConfigFilter::conv_map`. -/
def convMap {C T : Type} (state : RandomState) (seed : ℕ) (into : C → T) (map : HashMap String C) :
    HashMap String T :=
  .collect state seed (map.entries.map fun entry => ⟨entry.1, into entry.2⟩)

/-- `ConfigFilter::conv_set`. -/
def convSet {T : Type} (state : RandomState) (seed : ℕ) (default : T) (set : HashSet String) :
    HashMap String T :=
  .collect state seed (set.keys.map fun key => ⟨key, default⟩)

def SubscribeRequestFilterSlots.ofConfig (value : ConfigFilterSlots) :
    SubscribeRequestFilterSlots where
  filterByCommitment := value.filterByCommitment

def SubscribeRequestFilterAccountsFilterLamports.ofConfig
    (value : ConfigFilterAccountsFilterLamports) :
    SubscribeRequestFilterAccountsFilterLamports where
  cmp := some (match value with
    | .eq value => .eq value
    | .ne value => .ne value
    | .lt value => .lt value
    | .gt value => .gt value)

def SubscribeRequestFilterAccountsFilter.ofConfig (value : ConfigFilterAccountsFilter) :
    SubscribeRequestFilterAccountsFilter where
  filter := some (match value with
    | .memcmp offset data => .memcmp { offset := offset, data := some (.bytes data) }
    | .dataSize size => .datasize size
    | .tokenAccountState => .tokenAccountState true
    | .lamports value => .lamports (.ofConfig value))

def SubscribeRequestAccountsDataSlice.ofConfig (value : ConfigFilterAccountsDataSlice) :
    SubscribeRequestAccountsDataSlice where
  offset := value.offset
  length := value.length

/-- `From<ConfigFilterCommitment> for i32`. -/
def ConfigFilterCommitment.toInt32 (value : ConfigFilterCommitment) : ℤ :=
  CommitmentLevel.toInt32 (match value with
    | processed => .processed
    | confirmed => .confirmed
    | finalized => .finalized)

section

variable (S : Strings)

/-- `ConfigFilter::conv_vec_pubkeys`. -/
def convVecPubkeys (pubkeys : List Pubkey) : List String := pubkeys.map S.pubkeyToString

def SubscribeRequestFilterAccounts.ofConfig (value : ConfigFilterAccounts) :
    SubscribeRequestFilterAccounts where
  account := convVecPubkeys S value.account
  owner := convVecPubkeys S value.owner
  filters := value.filters.map .ofConfig
  nonemptyTxnSignature := value.nonemptyTxnSignature

def SubscribeRequestFilterTransactions.ofConfig (value : ConfigFilterTransactions) :
    SubscribeRequestFilterTransactions where
  vote := value.vote
  failed := value.failed
  signature := value.signature.map S.signatureToString
  accountInclude := convVecPubkeys S value.accountInclude
  accountExclude := convVecPubkeys S value.accountExclude
  accountRequired := convVecPubkeys S value.accountRequired

def SubscribeRequestFilterBlocks.ofConfig (value : ConfigFilterBlocks) :
    SubscribeRequestFilterBlocks where
  accountInclude := convVecPubkeys S value.accountInclude
  includeTransactions := value.includeTransactions
  includeAccounts := value.includeAccounts
  includeEntries := value.includeEntries

/-- `From<ConfigFilter> for SubscribeRequest`. -/
def SubscribeRequest.ofConfig (state : RandomState) (value : ConfigFilter) :
    SubscribeRequest where
  slots := convMap state 0 .ofConfig value.slots
  accounts := convMap state 1 (.ofConfig S) value.accounts
  accountsDataSlice := value.accountsDataSlice.map .ofConfig
  transactions := convMap state 2 (.ofConfig S) value.transactions
  transactionsStatus := convMap state 3 (.ofConfig S) value.transactionsStatus
  entry := convSet state 4 {} value.entries
  blocksMeta := convSet state 5 {} value.blocksMeta
  blocks := convMap state 6 (.ofConfig S) value.blocks
  commitment := value.commitment.map ConfigFilterCommitment.toInt32
  ping := none
  fromSlot := none

end

-- ════════════════════════════════════════════════════════════════════════
-- From a request
-- ════════════════════════════════════════════════════════════════════════

/-- `ConfigFilter::try_conv_map`. -/
def tryConvMap {T C : Type} (state : RandomState) (seed : ℕ)
    (tryInto : T → Except ConfigFilterError C) (map : HashMap String T) :
    Except ConfigFilterError (HashMap String C) := do
  let entries ← map.entries.mapM fun entry =>
    (tryInto entry.2).map fun value => (⟨entry.1, value⟩ : HashMap.Entry String C)
  .ok (.collect state seed entries)

/-- `into_keys().collect()`. -/
def keySet {T : Type} (state : RandomState) (seed : ℕ) (map : HashMap String T) :
    HashSet String :=
  .collect state seed (map.keys.map fun key => ⟨key, ()⟩)

/-- `ok_or(FieldNotDefined(field))`. -/
def defined {α : Type} (field : String) : Option α → Except ConfigFilterError α
  | some value => .ok value
  | none => .error (.fieldNotDefined field)

/-- `map(..).transpose()`. -/
def transposed {α β : Type} (f : α → Except ConfigFilterError β) :
    Option α → Except ConfigFilterError (Option β)
  | some value => (f value).map some
  | none => .ok none

def ConfigFilterSlots.tryFrom (value : SubscribeRequestFilterSlots) :
    Except ConfigFilterError ConfigFilterSlots :=
  .ok { filterByCommitment := value.filterByCommitment }

def ConfigFilterAccountsFilterLamports.tryFrom
    (value : SubscribeRequestFilterAccountsFilterLamports) :
    Except ConfigFilterError ConfigFilterAccountsFilterLamports := do
  let value ← defined "cmp" value.cmp
  .ok (match value with
    | .eq value => .eq value
    | .ne value => .ne value
    | .lt value => .lt value
    | .gt value => .gt value)

def ConfigFilterAccountsDataSlice.tryFrom (value : SubscribeRequestAccountsDataSlice) :
    Except ConfigFilterError ConfigFilterAccountsDataSlice :=
  .ok { offset := value.offset, length := value.length }

/-- `TryFrom<CommitmentLevelProto> for ConfigFilterCommitment`. -/
def ConfigFilterCommitment.tryFromLevel : CommitmentLevel →
    Except ConfigFilterError ConfigFilterCommitment
  | .processed => .ok .processed
  | .confirmed => .ok .confirmed
  | .finalized => .ok .finalized
  | value => .error (.invalidCommitment value)

/-- `TryFrom<i32> for ConfigFilterCommitment`. -/
def ConfigFilterCommitment.tryFrom (value : ℤ) :
    Except ConfigFilterError ConfigFilterCommitment :=
  match CommitmentLevel.ofInt32 value with
  | some level => tryFromLevel level
  | none => .error (.unknownCommitment value)

section

variable (S : Strings)

/-- `ConfigFilter::parse_vec_pubkeys`. -/
def parseVecPubkeys (pubkeys : List String) : Except ConfigFilterError (List Pubkey) :=
  pubkeys.mapM fun pubkey => (S.pubkeyParse pubkey).mapError (.pubkey pubkey)

/-- The data of a memcmp condition. -/
def memcmpData : AccountsFilterMemcmpOneof → Except ConfigFilterError Bytes
  | .bytes data => .ok data
  | .base58 data => do
    check (¬data.utf8ByteSize > maxDataBase58Size) (.limits .filterDataOverflow)
    (S.base58Decode data).elim (.error .invalidBase58) .ok
  | .base64 data => do
    check (¬data.utf8ByteSize > maxDataBase64Size) (.limits .filterDataOverflow)
    (S.base64Decode data).elim (.error .invalidBase64) .ok

def ConfigFilterAccountsFilter.tryFrom (value : SubscribeRequestFilterAccountsFilter) :
    Except ConfigFilterError ConfigFilterAccountsFilter := do
  let value ← defined "filter" value.filter
  match value with
  | .memcmp condition => do
    let value ← defined "data" condition.data
    let data ← memcmpData S value
    check (¬data.length > maxDataSize) (.limits .filterDataOverflow)
    .ok (.memcmp condition.offset data)
  | .datasize size => .ok (.dataSize size)
  | .tokenAccountState value => do
    check (value = true) .tokenAccountStateInvalid
    .ok .tokenAccountState
  | .lamports condition => do
    let cmp ← ConfigFilterAccountsFilterLamports.tryFrom condition
    .ok (.lamports cmp)

def ConfigFilterAccounts.tryFrom (value : SubscribeRequestFilterAccounts) :
    Except ConfigFilterError ConfigFilterAccounts := do
  let account ← parseVecPubkeys S value.account
  let owner ← parseVecPubkeys S value.owner
  check (¬value.filters.length > maxFilters) (.limits (.tooMuchFilters maxFilters))
  let filters ← value.filters.mapM (ConfigFilterAccountsFilter.tryFrom S)
  .ok
    { account := account
      owner := owner
      filters := filters
      nonemptyTxnSignature := value.nonemptyTxnSignature }

def ConfigFilterTransactions.tryFrom (value : SubscribeRequestFilterTransactions) :
    Except ConfigFilterError ConfigFilterTransactions := do
  let signature ← transposed (fun sig => (S.signatureParse sig).mapError (.signature sig))
    value.signature
  let accountInclude ← parseVecPubkeys S value.accountInclude
  let accountExclude ← parseVecPubkeys S value.accountExclude
  let accountRequired ← parseVecPubkeys S value.accountRequired
  .ok
    { vote := value.vote
      failed := value.failed
      signature := signature
      accountInclude := accountInclude
      accountExclude := accountExclude
      accountRequired := accountRequired }

def ConfigFilterBlocks.tryFrom (value : SubscribeRequestFilterBlocks) :
    Except ConfigFilterError ConfigFilterBlocks := do
  let accountInclude ← parseVecPubkeys S value.accountInclude
  .ok
    { accountInclude := accountInclude
      includeTransactions := value.includeTransactions
      includeAccounts := value.includeAccounts
      includeEntries := value.includeEntries }

/-- `TryFrom<SubscribeRequest> for ConfigFilter`. -/
def ConfigFilter.tryFrom (state : RandomState) (value : SubscribeRequest) :
    Except ConfigFilterError ConfigFilter := do
  let slots ← tryConvMap state 0 ConfigFilterSlots.tryFrom value.slots
  let accounts ← tryConvMap state 1 (ConfigFilterAccounts.tryFrom S) value.accounts
  let accountsDataSlice ←
    value.accountsDataSlice.mapM ConfigFilterAccountsDataSlice.tryFrom
  let transactions ← tryConvMap state 2 (ConfigFilterTransactions.tryFrom S) value.transactions
  let transactionsStatus ←
    tryConvMap state 3 (ConfigFilterTransactions.tryFrom S) value.transactionsStatus
  let blocks ← tryConvMap state 6 (ConfigFilterBlocks.tryFrom S) value.blocks
  let commitment ← transposed ConfigFilterCommitment.tryFrom value.commitment
  .ok
    { slots := slots
      accounts := accounts
      accountsDataSlice := accountsDataSlice
      transactions := transactions
      transactionsStatus := transactionsStatus
      entries := keySet state 4 value.entry
      blocksMeta := keySet state 5 value.blocksMeta
      blocks := blocks
      commitment := commitment }

end

-- ════════════════════════════════════════════════════════════════════════
-- There and back
-- ════════════════════════════════════════════════════════════════════════

/-- Equal section by section, the maps as maps. -/
structure ConfigFilter.Same (a b : ConfigFilter) : Prop where
  slots : a.slots.toFinmap = b.slots.toFinmap
  accounts : a.accounts.toFinmap = b.accounts.toFinmap
  accountsDataSlice : a.accountsDataSlice = b.accountsDataSlice
  transactions : a.transactions.toFinmap = b.transactions.toFinmap
  transactionsStatus : a.transactionsStatus.toFinmap = b.transactionsStatus.toFinmap
  entries : a.entries.toFinmap = b.entries.toFinmap
  blocksMeta : a.blocksMeta.toFinmap = b.blocksMeta.toFinmap
  blocks : a.blocks.toFinmap = b.blocks.toFinmap
  commitment : a.commitment = b.commitment

section

variable (state state' : RandomState) (seed seed' : ℕ)

/-- Converting a map there and back gives an equal map. -/
theorem tryConvMap_convMap {C T : Type} (into : C → T) (tryInto : T → Except ConfigFilterError C)
    (map : HashMap String C) (h : ∀ value ∈ map.values, tryInto (into value) = .ok value) :
    ∃ map', tryConvMap state seed tryInto (convMap state' seed' into map) = .ok map' ∧
      map'.toFinmap = map.toFinmap := by
  obtain ⟨entries, hperm, hmap⟩ := HashMap.collect_map state' seed'
    (f := fun entry => ⟨entry.1, into entry.2⟩) (fun _ => rfl) map
  have hback : ((convMap state' seed' into map).entries.mapM fun entry =>
      (tryInto entry.2).map fun value => (⟨entry.1, value⟩ : HashMap.Entry String C)) =
        .ok entries := by
    rw [convMap, hmap]
    refine mapM_map_eq_ok fun entry hentry => ?_
    have hvalue := HashMap.mem_values.mpr ⟨entry.1, hperm.mem_iff.mp hentry⟩
    rw [h entry.2 hvalue]
    rfl
  have hnodup : entries.NodupKeys := (List.perm_nodupKeys hperm).mpr map.nodupKeys
  refine ⟨.collect state seed entries, bind_eq_ok.mpr ⟨entries, hback, rfl⟩, ?_⟩
  rw [AList.toFinmap_eq]
  exact (HashMap.collect_perm state seed hnodup).trans hperm

/-- Converting a set there and back gives an equal set. -/
theorem keySet_convSet {T : Type} (default : T) (set : HashSet String) :
    (keySet state seed (convSet state' seed' default set)).toFinmap = set.toFinmap := by
  obtain ⟨entries, hperm, hmap⟩ := HashMap.collect_map state' seed'
    (f := fun entry => (⟨entry.1, default⟩ : HashMap.Entry String T)) (fun _ => rfl) set
  have hset : (convSet state' seed' default set).entries =
      entries.map fun entry => ⟨entry.1, default⟩ := by
    rw [← hmap, convSet, AList.keys, List.keys, List.map_map]
    rfl
  have hkeys : ((convSet state' seed' default set).keys.map fun key =>
      (⟨key, ()⟩ : HashMap.Entry String Unit)) = entries := by
    rw [AList.keys, List.keys, hset, List.map_map, List.map_map]
    exact List.map_id _
  have hnodup : entries.NodupKeys := (List.perm_nodupKeys hperm).mpr set.nodupKeys
  rw [AList.toFinmap_eq, keySet, hkeys]
  exact (HashMap.collect_perm state seed hnodup).trans hperm

end

theorem ConfigFilterCommitment.tryFrom_toInt32 (value : ConfigFilterCommitment) :
    tryFrom value.toInt32 = .ok value := by
  cases value <;> rfl

section

variable {S : Strings} (hS : S.Documented)

include hS

theorem parseVecPubkeys_convVecPubkeys (pubkeys : List Pubkey) :
    parseVecPubkeys S (convVecPubkeys S pubkeys) = .ok pubkeys :=
  mapM_map_eq_ok fun pubkey _ => mapError_eq_ok.mpr (hS.pubkey pubkey)

omit hS in
theorem ConfigFilterAccountsFilter.tryFrom_ofConfig {value : ConfigFilterAccountsFilter}
    (h : value.Fits) : tryFrom S (.ofConfig value) = .ok value := by
  cases value with
  | memcmp offset data =>
    have hdata : ¬data.length > maxDataSize := Nat.not_lt.mpr h
    exact bind_eq_ok.mpr ⟨_, rfl, bind_eq_ok.mpr ⟨_, rfl, bind_eq_ok.mpr ⟨_, rfl,
      bind_eq_ok.mpr ⟨(), check_eq_ok.mpr hdata, rfl⟩⟩⟩⟩
  | dataSize size => rfl
  | tokenAccountState => rfl
  | lamports cmp => cases cmp <;> rfl

theorem ConfigFilterAccounts.tryFrom_ofConfig {value : ConfigFilterAccounts}
    (hcount : value.filters.length ≤ maxFilters) (hdata : ∀ filter ∈ value.filters, filter.Fits) :
    tryFrom S (.ofConfig S value) = .ok value := by
  have hlength : ¬(value.filters.map SubscribeRequestFilterAccountsFilter.ofConfig).length >
      maxFilters := by
    rw [List.length_map]
    exact Nat.not_lt.mpr hcount
  have hfilters : (value.filters.map SubscribeRequestFilterAccountsFilter.ofConfig).mapM
      (ConfigFilterAccountsFilter.tryFrom S) = .ok value.filters :=
    mapM_map_eq_ok fun filter hf => ConfigFilterAccountsFilter.tryFrom_ofConfig (hdata filter hf)
  exact bind_eq_ok.mpr ⟨_, parseVecPubkeys_convVecPubkeys hS value.account,
    bind_eq_ok.mpr ⟨_, parseVecPubkeys_convVecPubkeys hS value.owner,
      bind_eq_ok.mpr ⟨(), check_eq_ok.mpr hlength, bind_eq_ok.mpr ⟨_, hfilters, rfl⟩⟩⟩⟩

theorem ConfigFilterTransactions.tryFrom_ofConfig (value : ConfigFilterTransactions) :
    tryFrom S (.ofConfig S value) = .ok value := by
  have hsignature : transposed (fun sig => (S.signatureParse sig).mapError (.signature sig))
      (value.signature.map S.signatureToString) = .ok value.signature := by
    cases value.signature with
    | none => rfl
    | some signature =>
      exact map_eq_ok.mpr ⟨signature, mapError_eq_ok.mpr (hS.signature signature), rfl⟩
  exact bind_eq_ok.mpr ⟨_, hsignature,
    bind_eq_ok.mpr ⟨_, parseVecPubkeys_convVecPubkeys hS value.accountInclude,
      bind_eq_ok.mpr ⟨_, parseVecPubkeys_convVecPubkeys hS value.accountExclude,
        bind_eq_ok.mpr ⟨_, parseVecPubkeys_convVecPubkeys hS value.accountRequired, rfl⟩⟩⟩⟩

theorem ConfigFilterBlocks.tryFrom_ofConfig (value : ConfigFilterBlocks) :
    tryFrom S (.ofConfig S value) = .ok value :=
  bind_eq_ok.mpr ⟨_, parseVecPubkeys_convVecPubkeys hS value.accountInclude, rfl⟩

/-- A configuration within the limits of a request comes back as it was sent. -/
theorem ConfigFilter.request_round_trip (state state' : RandomState) {config : ConfigFilter}
    (hcount : ∀ filter ∈ config.accounts.values, filter.filters.length ≤ maxFilters)
    (hdata : ∀ filter ∈ config.accounts.values, ∀ condition ∈ filter.filters, condition.Fits) :
    ∃ config', ConfigFilter.tryFrom S state (.ofConfig S state' config) = .ok config' ∧
      config'.Same config := by
  obtain ⟨slots, hslots, hslots'⟩ := tryConvMap_convMap state state' 0 0 .ofConfig
    ConfigFilterSlots.tryFrom config.slots fun _ _ => rfl
  obtain ⟨accounts, haccounts, haccounts'⟩ := tryConvMap_convMap state state' 1 1 (.ofConfig S)
    (ConfigFilterAccounts.tryFrom S) config.accounts fun filter hf =>
      ConfigFilterAccounts.tryFrom_ofConfig hS (hcount filter hf) (hdata filter hf)
  have hslices : (config.accountsDataSlice.map SubscribeRequestAccountsDataSlice.ofConfig).mapM
      ConfigFilterAccountsDataSlice.tryFrom = .ok config.accountsDataSlice :=
    mapM_map_eq_ok fun _ _ => rfl
  obtain ⟨transactions, htransactions, htransactions'⟩ := tryConvMap_convMap state state' 2 2
    (.ofConfig S) (ConfigFilterTransactions.tryFrom S) config.transactions fun filter _ =>
      ConfigFilterTransactions.tryFrom_ofConfig hS filter
  obtain ⟨statuses, hstatuses, hstatuses'⟩ := tryConvMap_convMap state state' 3 3
    (.ofConfig S) (ConfigFilterTransactions.tryFrom S) config.transactionsStatus fun filter _ =>
      ConfigFilterTransactions.tryFrom_ofConfig hS filter
  obtain ⟨blocks, hblocks, hblocks'⟩ := tryConvMap_convMap state state' 6 6 (.ofConfig S)
    (ConfigFilterBlocks.tryFrom S) config.blocks fun filter _ =>
      ConfigFilterBlocks.tryFrom_ofConfig hS filter
  have hcommitment : transposed ConfigFilterCommitment.tryFrom
      (config.commitment.map ConfigFilterCommitment.toInt32) = .ok config.commitment := by
    cases config.commitment with
    | none => rfl
    | some commitment => exact map_eq_ok.mpr ⟨commitment, commitment.tryFrom_toInt32, rfl⟩
  refine ⟨_, bind_eq_ok.mpr ⟨slots, hslots, bind_eq_ok.mpr ⟨accounts, haccounts,
    bind_eq_ok.mpr ⟨_, hslices, bind_eq_ok.mpr ⟨transactions, htransactions,
      bind_eq_ok.mpr ⟨statuses, hstatuses, bind_eq_ok.mpr ⟨blocks, hblocks,
        bind_eq_ok.mpr ⟨_, hcommitment, rfl⟩⟩⟩⟩⟩⟩⟩, ?_⟩
  exact
    { slots := hslots'
      accounts := haccounts'
      accountsDataSlice := rfl
      transactions := htransactions'
      transactionsStatus := hstatuses'
      entries := keySet_convSet state state' 4 4 SubscribeRequestFilterEntry.mk config.entries
      blocksMeta := keySet_convSet state state' 5 5 SubscribeRequestFilterBlocksMeta.mk
        config.blocksMeta
      blocks := hblocks'
      commitment := rfl }

end

/-- String forms with one character for each byte. -/
def bytewise : Strings where
  pubkeyToString pubkey := String.ofList (pubkey.toList.map fun b => Char.ofNat b.toNat)
  pubkeyParse s := (toArray .invalidPubkey (s.toList.map fun c => UInt8.ofNat c.toNat)).mapError
    fun _ => "String is the wrong size"
  signatureToString signature :=
    String.ofList (signature.toList.map fun b => Char.ofNat b.toNat)
  signatureParse s :=
    (toArray .invalidSignature (s.toList.map fun c => UInt8.ofNat c.toNat)).mapError
      fun _ => "string decoded to wrong size for signature"
  base58Decode _ := none
  base64Decode _ := none

theorem bytewise_documented : bytewise.Documented := by
  have hbyte : ∀ b : UInt8, UInt8.ofNat (Char.ofNat b.toNat).toNat = b := by
    have hall : ∀ n < 256, UInt8.ofNat (Char.ofNat n).toNat = UInt8.ofNat n := by decide +kernel
    intro b
    rw [hall b.toNat b.toNat_lt, UInt8.ofNat_toNat]
  have hbytes : ∀ bytes : Bytes,
      ((String.ofList (bytes.map fun b => Char.ofNat b.toNat)).toList.map fun c =>
        UInt8.ofNat c.toNat) = bytes := by
    intro bytes
    rw [String.toList_ofList, List.map_map]
    exact (List.map_congr_left fun b _ => hbyte b).trans (List.map_id _)
  exact ⟨fun pubkey => mapError_eq_ok.mpr (toArray_ok.mpr (hbytes _).symm),
    fun signature => mapError_eq_ok.mpr (toArray_ok.mpr (hbytes _).symm)⟩

/-- A configuration with slots, accounts, transactions and entries. -/
def severalSections : ConfigFilter :=
  { ConfigFilter.default with
    slots := .singleton "slots" ⟨some true⟩
    accounts := .singleton "accounts"
      { account := []
        owner := []
        filters := [.memcmp 8 [1, 2], .dataSize 165, .tokenAccountState, .lamports (.gt 7)]
        nonemptyTxnSignature := some true }
    accountsDataSlice := [⟨0, 32⟩]
    entries := .singleton "entries" ()
    commitment := some .confirmed }

theorem request_round_trip_severalSections :
    ∃ config', ConfigFilter.tryFrom bytewise .listed (.ofConfig bytewise .listed severalSections) =
      .ok config' ∧ config'.Same severalSections := by
  refine ConfigFilter.request_round_trip bytewise_documented .listed .listed ?_ ?_
  · intro filter hfilter
    rw [List.mem_singleton.mp hfilter]
    decide
  · intro filter hfilter
    rw [List.mem_singleton.mp hfilter]
    simp [maxDataSize]

end Dragonmouth.Filters
