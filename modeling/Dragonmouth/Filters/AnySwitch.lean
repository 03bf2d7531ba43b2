import Dragonmouth.Filters.Answers
import Dragonmouth.Filters.Parse

/-!
# The switch `any`

With `any` switched off, filters that select nothing in particular are meant to be
refused. The check that refuses them and the evaluation of a filter go through its
fields independently of each other: the check for transactions leaves out the
signature, the one for accounts all but the lists of keys.

## Main definitions

- `ConfigFilterTransactions.Unrestricted`, `ConfigFilterAccounts.Unrestricted`: a
  filter that matches whatever is parsed
- `TransactionsSwitch`, `AccountsSwitch`: exactly such a filter is refused
-/

namespace Dragonmouth.Filters

open Checks Encoding
open Proto (SubscribeUpdateAccountInfo SubscribeUpdateTransactionInfo TransactionStatusMeta
  TransactionError Timestamp)
open Richat (MessageAccount MessageTransaction)

-- ════════════════════════════════════════════════════════════════════════
-- What can be parsed
-- ════════════════════════════════════════════════════════════════════════

/-- A transaction the parser delivers. -/
def ParsedTransaction (message : MessageTransaction) : Prop :=
  ∃ capacity transaction slot createdAt encodedLen,
    MessageParserProst.parseTransaction capacity transaction slot createdAt encodedLen =
      .ok message

/-- An account the parser delivers. -/
def ParsedAccount (message : MessageAccount) : Prop :=
  ∃ account slot isStartup createdAt size,
    MessageParserProst.parseAccount account slot isStartup createdAt size = .ok message

/-- The metadata of a transaction without loaded addresses. -/
def transactionMeta (failed : Bool) : TransactionStatusMeta where
  err := if failed then some ⟨[]⟩ else none
  fee := 0
  preBalances := []
  postBalances := []
  innerInstructions := []
  innerInstructionsNone := true
  logMessages := []
  logMessagesNone := true
  preTokenBalances := []
  postTokenBalances := []
  rewards := []
  loadedWritableAddresses := []
  loadedReadonlyAddresses := []
  returnData := none
  returnDataNone := true
  computeUnitsConsumed := none

/-- A transaction with the given fields. -/
def transactionInfo (isVote failed : Bool) (signature : Signature) (keys : List Pubkey) :
    SubscribeUpdateTransactionInfo where
  signature := signature.toList
  isVote := isVote
  transaction := some
    { signatures := []
      message := some
        { header := none
          accountKeys := keys.map (·.toList)
          recentBlockhash := []
          instructions := []
          versioned := false
          addressTableLookups := [] } }
  txMeta := some (transactionMeta failed)
  index := 0

/-- An account with the given fields. -/
def accountInfoWith (pubkey owner : Pubkey) (lamports : ℕ) (data : Bytes) (flag : Bool) :
    SubscribeUpdateAccountInfo where
  pubkey := pubkey.toList
  lamports := lamports
  owner := owner.toList
  executable := false
  rentEpoch := 0
  data := data
  writeVersion := 0
  txnSignature := if flag then some [] else none

theorem parseTransaction_transactionInfo (isVote failed : Bool) (signature : Signature)
    (keys : List Pubkey) (capacity : Finset Pubkey → ℕ) (slot : Slot) (createdAt : Timestamp)
    (encodedLen : ℕ) :
    MessageParserProst.parseTransaction capacity (transactionInfo isVote failed signature keys)
      slot createdAt encodedLen = .ok
        { signature := signature
          error := (transactionMeta failed).err
          accountKeys := keys.toFinset
          transaction := transactionInfo isVote failed signature keys
          slot := slot
          createdAt := createdAt
          size := encodedLen + signatureBytes + capacity keys.toFinset * pubkeyBytes } := by
  have hkeys : pubkeysOf (keys.map (·.toList)) = .ok keys :=
    mapM_map_eq_ok fun key _ => toArray_ok.mpr rfl
  have hsignature : toArray .invalidSignature signature.toList = .ok signature :=
    toArray_ok.mpr rfl
  have hgen : genAccountKeysProst (transactionInfo isVote failed signature keys)
      (transactionMeta failed) = .ok (keys ++ [] ++ []).toFinset :=
    bind_eq_ok.mpr ⟨_, rfl, bind_eq_ok.mpr ⟨keys, hkeys,
      bind_eq_ok.mpr ⟨[], rfl, bind_eq_ok.mpr ⟨[], rfl, rfl⟩⟩⟩⟩
  rw [List.append_nil, List.append_nil] at hgen
  exact bind_eq_ok.mpr ⟨transactionMeta failed, rfl, bind_eq_ok.mpr ⟨_, hgen,
    bind_eq_ok.mpr ⟨signature, hsignature, rfl⟩⟩⟩

/-- Transactions are parsed with whatever vote flag, error, signature and keys. -/
theorem exists_parsedTransaction (isVote failed : Bool) (signature : Signature)
    (keys : List Pubkey) : ∃ message, ParsedTransaction message ∧
      message.transaction = transactionInfo isVote failed signature keys ∧
      message.error.isSome = failed ∧ message.signature = signature := by
  have hparse := parseTransaction_transactionInfo isVote failed signature keys (fun _ => 0) 0
    ⟨0, 0⟩ 0
  refine ⟨_, ⟨_, _, _, _, _, hparse⟩, rfl, ?_, rfl⟩
  cases failed
  · rfl
  · rfl

/-- Accounts are parsed with whatever keys, lamports, data and signature flag. -/
theorem exists_parsedAccount (pubkey owner : Pubkey) (lamports : ℕ) (data : Bytes)
    (flag : Bool) : ∃ message, ParsedAccount message ∧ message.pubkey = pubkey ∧
      message.owner = owner ∧ message.nonemptyTxnSignature = flag ∧
      message.account.lamports = lamports ∧ message.account.data = data := by
  have hpubkey : toArray .invalidPubkey pubkey.toList = .ok pubkey := toArray_ok.mpr rfl
  have howner : toArray .invalidPubkey owner.toList = .ok owner := toArray_ok.mpr rfl
  have hparse : MessageParserProst.parseAccount
      (accountInfoWith pubkey owner lamports data flag) 0 false ⟨0, 0⟩ 0 = .ok
        { pubkey := pubkey
          owner := owner
          nonemptyTxnSignature := flag
          account := accountInfoWith pubkey owner lamports data flag
          slot := 0
          isStartup := false
          createdAt := ⟨0, 0⟩
          size := 0 } := by
    rw [MessageParserProst.parseAccount, accountInfoWith, hpubkey, howner]
    cases flag <;> rfl
  exact ⟨_, ⟨_, _, _, _, _, hparse⟩, rfl, rfl, rfl, rfl, rfl⟩

-- ════════════════════════════════════════════════════════════════════════
-- Filters that match everything
-- ════════════════════════════════════════════════════════════════════════

/-- A transaction filter that asks for nothing. -/
structure ConfigFilterTransactions.Unrestricted (filter : ConfigFilterTransactions) : Prop where
  vote : filter.vote = none
  failed : filter.failed = none
  signature : filter.signature = none
  accountInclude : filter.accountInclude = []
  accountExclude : filter.accountExclude = []
  accountRequired : filter.accountRequired = []

/-- An account filter that asks for nothing: the only condition every account meets
is that it has no bytes at the beginning of its data. -/
structure ConfigFilterAccounts.Unrestricted (filter : ConfigFilterAccounts) : Prop where
  account : filter.account = []
  owner : filter.owner = []
  filters : ∀ condition ∈ filter.filters, condition = .memcmp 0 []
  nonemptyTxnSignature : filter.nonemptyTxnSignature = none

theorem ConfigFilterTransactions.Unrestricted.matches {filter : ConfigFilterTransactions}
    (h : filter.Unrestricted) (message : MessageTransaction) :
    TransactionMatches filter message where
  vote := .inl h.vote
  failed := .inl h.failed
  signature := .inl h.signature
  accountInclude := .inl h.accountInclude
  accountExclude key hkey := by
    rw [h.accountExclude] at hkey
    exact absurd hkey List.not_mem_nil
  accountRequired key hkey := by
    rw [h.accountRequired] at hkey
    exact absurd hkey List.not_mem_nil

/-- An option that agrees with both values of a flag is none. -/
theorem eq_none_of_flags {o : Option Bool} (h : ∀ b, o = none ∨ o = some b) : o = none := by
  cases o with
  | none => rfl
  | some b =>
    have hother := h (!b)
    cases b <;> simp at hother

theorem exists_signature_ne (signature : Signature) : ∃ other : Signature, other ≠ signature := by
  by_cases h : signature = .replicate 64 0
  · refine ⟨.replicate 64 1, ?_⟩
    rw [h]
    decide
  · exact ⟨.replicate 64 0, fun he => h he.symm⟩

/-- The keys of a transaction put together from them. -/
theorem mem_transactionInfo {isVote failed : Bool} {signature : Signature} {keys : List Pubkey}
    {key : Pubkey} :
    key.toList ∈ transactionKeys (transactionInfo isVote failed signature keys) ↔ key ∈ keys := by
  have hkeys : transactionKeys (transactionInfo isVote failed signature keys) =
      keys.map (·.toList) ++ ([] ++ []) := rfl
  rw [hkeys, List.append_nil, List.append_nil, List.mem_map]
  constructor
  · rintro ⟨key', hkey, he⟩
    rwa [← Vector.toList_inj.mp he]
  · intro hkey
    exact ⟨key, hkey, rfl⟩

/-- A transaction filter matches everything exactly if it asks for nothing. -/
theorem forall_transactionMatches_iff {filter : ConfigFilterTransactions} :
    (∀ message, ParsedTransaction message → TransactionMatches filter message) ↔
      filter.Unrestricted := by
  refine ⟨fun h => ?_, fun h message _ => h.matches message⟩
  have hmatches : ∀ isVote failed signature keys, ∃ message,
      TransactionMatches filter message ∧
      message.transaction = transactionInfo isVote failed signature keys ∧
      message.error.isSome = failed ∧ message.signature = signature := by
    intro isVote failed signature keys
    obtain ⟨message, hparsed, hfields⟩ := exists_parsedTransaction isVote failed signature keys
    exact ⟨message, h message hparsed, hfields⟩
  constructor
  · apply eq_none_of_flags
    intro b
    obtain ⟨message, hm, htx, -⟩ := hmatches b false (.replicate 64 0) []
    have hvote := hm.vote
    rwa [htx] at hvote
  · apply eq_none_of_flags
    intro b
    obtain ⟨message, hm, -, herror, -⟩ := hmatches false b (.replicate 64 0) []
    have hfailed := hm.failed
    rwa [herror] at hfailed
  · cases hs : filter.signature with
    | none => rfl
    | some signature =>
      obtain ⟨other, hne⟩ := exists_signature_ne signature
      obtain ⟨message, hm, -, -, hsig⟩ := hmatches false false other []
      have hagrees := hm.signature
      rw [hsig, hs] at hagrees
      simp [hne.symm] at hagrees
  · obtain ⟨message, hm, htx, -⟩ := hmatches false false (.replicate 64 0) []
    obtain hnil | ⟨key, -, hkey⟩ := hm.accountInclude
    · exact hnil
    · rw [htx, mem_transactionInfo] at hkey
      exact absurd hkey List.not_mem_nil
  · by_contra hne
    obtain ⟨key, hkey⟩ := List.exists_mem_of_ne_nil _ hne
    obtain ⟨message, hm, htx, -⟩ := hmatches false false (.replicate 64 0) [key]
    apply hm.accountExclude key hkey
    rw [htx, mem_transactionInfo]
    exact List.mem_singleton.mpr rfl
  · by_contra hne
    obtain ⟨key, hkey⟩ := List.exists_mem_of_ne_nil _ hne
    obtain ⟨message, hm, htx, -⟩ := hmatches false false (.replicate 64 0) []
    have hmem := hm.accountRequired key hkey
    rw [htx, mem_transactionInfo] at hmem
    exact List.not_mem_nil hmem

/-- The bytes of a number, as a key. -/
def pubkeyOf (n : ℕ) : Pubkey := Vector.ofFn fun i : Fin 32 => UInt8.ofNat (n / 256 ^ i.val % 256)

/-- Numbers of 64 bits have keys of their own. -/
theorem pubkeyOf_inj {a b : ℕ} (ha : a < 2 ^ 64) (hb : b < 2 ^ 64) (h : pubkeyOf a = pubkeyOf b) :
    a = b := by
  have hdigits : ∀ i < 32, a / 256 ^ i % 256 = b / 256 ^ i % 256 := by
    intro i hi
    have hi' := congrArg (fun v : Pubkey => (v[i]).toNat) h
    simpa [pubkeyOf] using hi'
  have hmod : ∀ k ≤ 32, a % 256 ^ k = b % 256 ^ k := by
    intro k
    induction k with
    | zero =>
      intro _
      rw [pow_zero, Nat.mod_one, Nat.mod_one]
    | succ k ih =>
      intro hk
      rw [Nat.mod_pow_succ, Nat.mod_pow_succ, ih (by omega), hdigits k (by omega)]
  have h8 := hmod 8 (by omega)
  have hpow : 256 ^ 8 = 2 ^ 64 := by decide
  rwa [hpow, Nat.mod_eq_of_lt ha, Nat.mod_eq_of_lt hb] at h8

/-- No list that fits into memory holds all keys. -/
theorem exists_pubkey_notMem {keys : List Pubkey} (h : keys.length ≤ usizeMax) :
    ∃ key : Pubkey, key ∉ keys := by
  have hinj : Set.InjOn pubkeyOf (Finset.range (2 ^ 64)) := by
    intro a ha b hb he
    exact pubkeyOf_inj (Finset.mem_range.mp ha) (Finset.mem_range.mp hb) he
  have hcard : keys.toFinset.card < ((Finset.range (2 ^ 64)).image pubkeyOf).card := by
    rw [Finset.card_image_of_injOn hinj, Finset.card_range]
    have hlt : usizeMax < 2 ^ 64 := by decide
    exact (List.toFinset_card_le keys).trans_lt (h.trans_lt hlt)
  obtain ⟨key, -, hkey⟩ := Finset.exists_mem_notMem_of_card_lt_card hcard
  exact ⟨key, fun hmem => hkey (List.mem_toFinset.mpr hmem)⟩

/-- Lists of keys that leave no key out are empty. -/
theorem eq_nil_of_selects {keys : List Pubkey} (hlen : keys.length ≤ usizeMax)
    (h : ∀ key, keys = [] ∨ key ∈ keys) : keys = [] := by
  obtain ⟨key, hkey⟩ := exists_pubkey_notMem hlen
  exact (h key).resolve_right hkey

/-- Lamports that a comparison refuses. -/
def refusedLamports : ConfigFilterAccountsFilterLamports → ℕ
  | .eq value => if value = 0 then 1 else 0
  | .ne value => value
  | .lt value => value
  | .gt value => value

/-- Only a condition on no bytes holds of all accounts. -/
theorem eq_memcmp_of_holds {validAccountData : Bytes → Bool}
    (hinvalid : validAccountData [] = false) {condition : ConfigFilterAccountsFilter}
    (h : ∀ lamports data, ConditionHolds validAccountData lamports data condition) :
    condition = .memcmp 0 [] := by
  cases condition with
  | memcmp offset bytes =>
    obtain ⟨before, after, hdata, hlen⟩ := h 0 []
    simp only [List.nil_eq, List.append_eq_nil_iff] at hdata
    obtain ⟨⟨rfl, rfl⟩, rfl⟩ := hdata
    rw [← hlen]
    rfl
  | dataSize size =>
    have hzero : 0 = size := h 0 []
    have hone : 1 = size := h 0 [0]
    omega
  | tokenAccountState =>
    have hvalid : validAccountData [] = true := h 0 []
    rw [hinvalid] at hvalid
    cases hvalid
  | lamports cmp =>
    have hrefused := h (refusedLamports cmp) []
    cases cmp with
    | eq value =>
      simp only [ConditionHolds, refusedLamports] at hrefused
      split at hrefused <;> omega
    | ne value => exact absurd rfl hrefused
    | lt value => exact absurd hrefused (Nat.lt_irrefl value)
    | gt value => exact absurd hrefused (Nat.lt_irrefl value)

/-- An account filter matches everything exactly if it asks for nothing. -/
theorem forall_accountMatches_iff {validAccountData : Bytes → Bool}
    (hinvalid : validAccountData [] = false) {filter : ConfigFilterAccounts}
    (haccount : filter.account.length ≤ usizeMax) (howner : filter.owner.length ≤ usizeMax) :
    (∀ message, ParsedAccount message → AccountMatches validAccountData filter message) ↔
      filter.Unrestricted := by
  constructor
  · intro h
    have hmatches : ∀ pubkey owner lamports data flag, ∃ message,
        AccountMatches validAccountData filter message ∧ message.pubkey = pubkey ∧
        message.owner = owner ∧ message.nonemptyTxnSignature = flag ∧
        message.account.lamports = lamports ∧ message.account.data = data := by
      intro pubkey owner lamports data flag
      obtain ⟨message, hparsed, hfields⟩ := exists_parsedAccount pubkey owner lamports data flag
      exact ⟨message, h message hparsed, hfields⟩
    constructor
    · apply eq_nil_of_selects haccount
      intro key
      obtain ⟨message, hm, hkey, -⟩ := hmatches key (.replicate 32 0) 0 [] false
      have hselected := hm.account
      rwa [hkey] at hselected
    · apply eq_nil_of_selects howner
      intro key
      obtain ⟨message, hm, -, hkey, -⟩ := hmatches (.replicate 32 0) key 0 [] false
      have hselected := hm.owner
      rwa [hkey] at hselected
    · intro condition hc
      apply eq_memcmp_of_holds hinvalid
      intro lamports data
      obtain ⟨message, hm, -, -, -, hlamports, hdata⟩ :=
        hmatches (.replicate 32 0) (.replicate 32 0) lamports data false
      have hholds := hm.conditions condition hc
      rwa [hlamports, hdata] at hholds
    · apply eq_none_of_flags
      intro b
      obtain ⟨message, hm, -, -, hflag, -⟩ :=
        hmatches (.replicate 32 0) (.replicate 32 0) 0 [] b
      have hagrees := hm.nonemptyTxnSignature
      rwa [hflag] at hagrees
  · intro h message _
    refine ⟨.inl h.account, .inl h.owner, ?_, .inl h.nonemptyTxnSignature⟩
    intro condition hc
    rw [h.filters condition hc]
    exact ⟨[], message.account.data, rfl, rfl⟩

-- ════════════════════════════════════════════════════════════════════════
-- What is refused
-- ════════════════════════════════════════════════════════════════════════

open ConfigLimits

theorem checkAny_eq_error {isEmpty any : Bool} :
    checkAny isEmpty any = .error .emptyNotAllowed ↔ isEmpty = true ∧ any = false := by
  cases isEmpty <;> cases any <;> simp [checkAny, check]

theorem checkSection_singleton {ν : Type} {name : String} {filter : ν} {nameMax max : ℕ}
    (hname : name.utf8ByteSize ≤ nameMax) (hmax : 1 ≤ max) :
    checkSection (.singleton name filter) nameMax max = .ok () := by
  refine checkSection_ok.mpr ⟨?_, hmax⟩
  intro key hkey
  rwa [List.mem_singleton.mp hkey]

theorem reject_avoids (pubkeys : List Pubkey) (set : Finset Pubkey) :
    Avoids .emptyNotAllowed (pubkeys.forM fun pubkey => checkPubkeyReject pubkey set) :=
  .forM fun _ _ => .check (by simp)

theorem checkConditions_avoids (datasizeDefined : Bool)
    (filters : List ConfigFilterAccountsFilter) :
    Avoids .emptyNotAllowed
      (ConfigLimitsAccounts.checkConditions datasizeDefined filters) := by
  induction filters generalizing datasizeDefined with
  | nil => exact .ok ()
  | cons condition filters ih =>
    cases condition with
    | memcmp offset data => exact .seq (.check (by simp)) (ih _)
    | dataSize size => exact .seq (.check (by simp)) (ih _)
    | tokenAccountState => exact ih _
    | lamports cmp => exact ih _

theorem checkDataSlices_avoids (dataSlices : List ConfigFilterAccountsDataSlice) :
    Avoids .emptyNotAllowed (ConfigLimitsAccounts.checkDataSlices dataSlices) :=
  .forM fun _ _ => .seq (.forM fun _ _ => .check (by simp)) (.forM fun _ _ => .check (by simp))

/-- A section with one filter is refused for the filter. -/
theorem forM_values_singleton {ν : Type} {name : String} {filter : ν}
    {f : ν → Except ConfigLimitsError Unit} {e : ConfigLimitsError} :
    (HashMap.values (AList.singleton name filter)).forM f = .error e ↔ f filter = .error e := by
  rw [forM_eq_error]
  exact reaches_cons.trans (or_iff_left fun h => not_reaches_nil h.2)

variable {nameMax : ℕ} {name : String}

theorem transactions_refused_iff {limits : ConfigLimitsTransactions} (hany : limits.any = false)
    (hname : name.utf8ByteSize ≤ nameMax) (hmax : 1 ≤ limits.max)
    {filter : ConfigFilterTransactions} :
    limits.checkFilter nameMax (.singleton name filter) = .error .emptyNotAllowed ↔
      filter.vote = none ∧ filter.failed = none ∧ filter.accountInclude = [] ∧
        filter.accountExclude = [] ∧ filter.accountRequired = [] := by
  have hrest : Avoids .emptyNotAllowed (do
      checkPubkeyMax filter.accountInclude.length limits.accountIncludeMax
      checkPubkeyMax filter.accountExclude.length limits.accountExcludeMax
      checkPubkeyMax filter.accountRequired.length limits.accountRequiredMax
      filter.accountInclude.forM fun pubkey =>
        checkPubkeyReject pubkey limits.accountIncludeReject) :=
    .seq (.check (by simp)) (.seq (.check (by simp)) (.seq (.check (by simp)) (reject_avoids _ _)))
  have hfilter : limits.checkTransactions filter = .error .emptyNotAllowed ↔
      checkAny (filter.vote.isNone && filter.failed.isNone && filter.accountInclude.isEmpty &&
        filter.accountExclude.isEmpty && filter.accountRequired.isEmpty) limits.any =
          .error .emptyNotAllowed := then_eq_error_of_avoids hrest
  rw [ConfigLimitsTransactions.checkFilter, checkSection_singleton hname hmax]
  refine forM_values_singleton.trans (hfilter.trans ?_)
  rw [checkAny_eq_error, and_iff_left hany]
  simp only [Bool.and_eq_true, Option.isNone_iff_eq_none, List.isEmpty_iff, and_assoc]

theorem accounts_refused_iff {limits : ConfigLimitsAccounts} (hany : limits.any = false)
    (hname : name.utf8ByteSize ≤ nameMax) (hmax : 1 ≤ limits.max)
    {filter : ConfigFilterAccounts} (dataSlices : List ConfigFilterAccountsDataSlice) :
    limits.checkFilter nameMax (.singleton name filter) dataSlices = .error .emptyNotAllowed ↔
      filter.account = [] ∧ filter.owner = [] := by
  have hrest : Avoids .emptyNotAllowed (do
      checkPubkeyMax filter.account.length limits.accountMax
      checkPubkeyMax filter.owner.length limits.ownerMax
      filter.account.forM fun pubkey => checkPubkeyReject pubkey limits.accountReject
      filter.owner.forM fun pubkey => checkPubkeyReject pubkey limits.ownerReject
      check (¬filter.filters.length > maxFilters) (.tooMuchFilters maxFilters)
      ConfigLimitsAccounts.checkConditions false filter.filters) :=
    .seq (.check (by simp)) (.seq (.check (by simp)) (.seq (reject_avoids _ _)
      (.seq (reject_avoids _ _) (.seq (.check (by simp)) (checkConditions_avoids _ _)))))
  have hfilter : limits.checkAccounts filter = .error .emptyNotAllowed ↔
      checkAny (filter.account.isEmpty && filter.owner.isEmpty) limits.any =
        .error .emptyNotAllowed := then_eq_error_of_avoids hrest
  have hslices : Avoids .emptyNotAllowed (do
      checkMax dataSlices.length limits.dataSliceMax
      ConfigLimitsAccounts.checkDataSlices dataSlices) :=
    .seq (.check (by simp)) (checkDataSlices_avoids dataSlices)
  rw [ConfigLimitsAccounts.checkFilter, checkSection_singleton hname hmax]
  refine (then_eq_error_of_avoids hslices).trans (forM_values_singleton.trans (hfilter.trans ?_))
  rw [checkAny_eq_error, and_iff_left hany]
  simp only [Bool.and_eq_true, List.isEmpty_iff]

-- ════════════════════════════════════════════════════════════════════════
-- Sections with one filter
-- ════════════════════════════════════════════════════════════════════════

/-- Every transaction that can be parsed produces an update. -/
def FilterTransactions.MatchesAll (self : FilterTransactions) : Prop :=
  ∀ message, ParsedTransaction message → ∃ update, self.getUpdate message = .ok (some update)

/-- Every account that can be parsed produces an update. -/
def FilterAccounts.MatchesAll (validAccountData : Bytes → Bool) (self : FilterAccounts) : Prop :=
  ∀ message dataSlices, ParsedAccount message →
    ∃ update, self.getUpdate validAccountData message dataSlices = .ok (some update)

section

variable {ν ν' : Type} {build : ν → Except Panic ν'} {config : ν}

/-- What is built from one configured filter. -/
theorem built_singleton {m : HashMap FilterName ν'}
    (h : BuiltFrom build (AList.singleton name config) m) :
    ∃ filter, build config = .ok filter ∧ m.entries = [⟨⟨name⟩, filter⟩] := by
  obtain ⟨filters, hperm, hall⟩ := h
  obtain ⟨⟨key, filter⟩, rest, ⟨hkey, hbuild⟩, hrest, rfl⟩ := List.forall₂_cons_left_iff.mp hall
  obtain rfl := List.forall₂_nil_left_iff.mp hrest
  obtain rfl : key = ⟨name⟩ := hkey
  exact ⟨filter, hbuild, List.perm_singleton.mp hperm⟩

/-- The section produces an update if its filter accepts. -/
theorem updateOf_singleton {accepts : ν' → Except Panic Bool} {filter : ν'}
    {update : FilteredUpdateType} :
    (∃ found, (do
        let filters ← acceptedNames accepts [⟨⟨name⟩, filter⟩]
        .ok (updateOf filters update) : Except Panic _) = .ok (some found)) ↔
      accepts filter = .ok true := by
  simp only [acceptedNames, bind_eq_ok]
  constructor
  · rintro ⟨found, filters, ⟨accepted, haccepted, names, hnames, hfilters⟩, hfound⟩
    obtain rfl : [] = names := Except.ok.inj hnames
    cases accepted with
    | true => exact haccepted
    | false =>
      obtain rfl : [] = filters := Except.ok.inj hfilters
      cases hfound
  · intro haccepted
    exact ⟨_, _, ⟨true, haccepted, [], rfl, rfl⟩, rfl⟩

end

theorem transactions_matchesAll_iff {state : RandomState} {seed : ℕ} {names : FilterNames}
    {filterType : FilterTransactionsType} {filter : ConfigFilterTransactions}
    {built : FilterTransactions × FilterNames}
    (hnew : FilterTransactions.new state seed names (.singleton name filter) filterType =
      .ok built) : built.1.MatchesAll ↔ filter.Unrestricted := by
  obtain ⟨inner, hinner, hentries⟩ := built_singleton (FilterTransactions.built_of_new hnew).2
  rw [← forall_transactionMatches_iff]
  refine forall_congr' fun message => forall_congr' fun hparsed => ?_
  have hkeyed : Keyed message := by
    obtain ⟨capacity, transaction, slot, createdAt, encodedLen, hparse⟩ := hparsed
    exact parseTransaction_keyed hparse
  rw [FilterTransactions.getUpdate, hentries, updateOf_singleton, ← Except.ok.inj hinner,
    Except.ok.injEq]
  exact FilterTransactionsInner.accepts_iff hkeyed

namespace FilterAccountsState

variable {state state' : FilterAccountsState} {conditions : List ConfigFilterAccountsFilter}

/-- A condition that has been added fits into its array. -/
theorem add_fits {condition : ConfigFilterAccountsFilter}
    (h : state.add condition = .ok state') : condition.Fits := by
  cases condition with
  | memcmp offset data =>
    obtain ⟨bytes, hbytes, -⟩ := bind_eq_ok.mp h
    rw [ArrayVec.collect] at hbytes
    split at hbytes
    · rename_i hfits
      exact hfits
    · cases hbytes
  | dataSize size => trivial
  | tokenAccountState => trivial
  | lamports cmp => trivial

theorem addAll_fits (h : state.addAll conditions = .ok state') :
    ∀ condition ∈ conditions, condition.Fits := by
  induction conditions generalizing state with
  | nil => exact fun _ hc => absurd hc List.not_mem_nil
  | cons condition conditions ih =>
    obtain ⟨state₁, hadd, hrest⟩ := bind_eq_ok.mp h
    exact List.forall_mem_cons.mpr ⟨add_fits hadd, ih hrest⟩

/-- What a match says of the size and the bytes compared. -/
theorem isMatch_true {validAccountData : Bytes → Bool} {lamports : ℕ} {data : Bytes}
    (h : state.isMatch validAccountData lamports data = .ok true) :
    ¬(∃ datasize ∈ state.datasize, data.length ≠ datasize) ∧
      matchMemcmp data state.memcmp.items = .ok true := by
  rw [isMatch] at h
  split at h
  · cases h
  · rename_i hsize
    split at h
    · cases h
    · split at h
      · cases h
      · exact ⟨hsize, h⟩

/-- Only conditions on no bytes hold of empty data. -/
theorem matchMemcmp_nil {items : List (ℕ × ArrayVec UInt8 maxDataSize)}
    (h : matchMemcmp [] items = .ok true) :
    ∀ item ∈ items, item.1 = 0 ∧ item.2.items = [] := by
  induction items with
  | nil => exact fun _ hitem => absurd hitem List.not_mem_nil
  | cons item items ih =>
    obtain ⟨offset, bytes⟩ := item
    rw [matchMemcmp] at h
    split at h
    · cases h
    · rename_i hstop
      split at h
      · cases h
      · rename_i horder
        split at h
        · cases h
        · rename_i hslice
          have hzero : offset = 0 := by
            rw [List.length_nil] at hstop
            omega
          have hbytes : bytes.items = [] := by
            rw [not_not, List.drop_nil, List.take_nil] at hslice
            exact hslice.symm
          exact List.forall_mem_cons.mpr ⟨⟨hzero, hbytes⟩, ih h⟩

/-- Conditions that hold of data of any size are only on no bytes. -/
theorem memcmp_of_matches (hkeeps : state.Keeps conditions) {validAccountData : Bytes → Bool}
    (h : ∀ data, state.isMatch validAccountData 0 data = .ok true) :
    (∀ size, .dataSize size ∉ conditions) ∧
      ∀ offset data, .memcmp offset data ∈ conditions → offset = 0 ∧ data = [] := by
  constructor
  · intro size hsize
    have hmem := mem_dataSize.mpr hsize
    have hlast := List.getLast?_eq_some_getLast (List.ne_nil_of_mem hmem)
    rw [← hkeeps.datasize] at hlast
    have hzero := (isMatch_true (h [])).1
    have hone := (isMatch_true (h [0])).1
    simp only [hlast, Option.mem_some_iff, exists_eq_left', not_not, List.length_nil,
      List.length_singleton] at hzero hone
    omega
  · intro offset data hc
    have hmem := mem_memcmp.mpr hc
    rw [← hkeeps.memcmp, List.mem_map] at hmem
    obtain ⟨item, hitem, he⟩ := hmem
    cases he
    exact matchMemcmp_nil (isMatch_true (h [])).2 item hitem

end FilterAccountsState

/-- An account that is accepted meets the conditions that have been built. -/
theorem FilterAccountsInner.conditions_of_accepts {inner : FilterAccountsInner}
    {validAccountData : Bytes → Bool} {message : MessageAccount}
    (h : inner.accepts validAccountData message = .ok true) :
    inner.filters.elim (.ok true) (fun filters =>
      filters.isMatch validAccountData message.account.lamports message.account.data) =
        .ok true := by
  rw [accepts] at h
  split at h
  · cases h
  · split at h
    · cases h
    · obtain ⟨matched, hmatched, hrest⟩ := bind_eq_ok.mp h
      cases matched with
      | true => exact hmatched
      | false => cases hrest

section

variable {validAccountData : Bytes → Bool} {filter : ConfigFilterAccounts}
  {inner : FilterAccountsInner}

/-- Where there are conditions, a state has been built from them. -/
theorem FilterAccountsInner.new_state (hne : filter.filters ≠ [])
    (hnew : FilterAccountsInner.new filter = .ok inner) :
    ∃ state, FilterAccountsState.new filter.filters = .ok state ∧ inner.filters = some state := by
  rw [FilterAccountsInner.new, if_neg hne] at hnew
  obtain ⟨filters, hfilters, hinner⟩ := bind_eq_ok.mp hnew
  obtain ⟨state, hstate, rfl⟩ := map_eq_ok.mp hfilters
  exact ⟨state, hstate, by rw [← Except.ok.inj hinner]⟩

/-- The conditions of a filter that accepts everything are within their arrays, and
their ends fit. -/
theorem buildable_of_accepts (hcount : filter.filters.length ≤ maxFilters)
    (hnew : FilterAccountsInner.new filter = .ok inner)
    (h : ∀ message, ParsedAccount message → inner.accepts validAccountData message = .ok true) :
    Buildable filter.filters ∧ ∀ condition ∈ filter.filters, EndsBelow condition := by
  by_cases hnil : filter.filters = []
  · rw [hnil]
    exact ⟨⟨Nat.zero_le _, Nat.zero_le _, by simp, by simp⟩, by simp⟩
  · obtain ⟨state, hstate, hfilters⟩ := FilterAccountsInner.new_state hnil hnew
    have hfits := FilterAccountsState.addAll_fits hstate
    have hlen : ∀ {α : Type} (f : ConfigFilterAccountsFilter → Option α),
        (filter.filters.filterMap f).length ≤ maxFilters :=
      fun f => (List.length_filterMap_le _ _).trans hcount
    obtain ⟨state', hstate', hkeeps⟩ := FilterAccountsState.Keeps.default.addAll filter.filters
      hfits (hlen _) (hlen _)
    obtain rfl : state = state' := Except.ok.inj (hstate.symm.trans hstate')
    have hmatch : ∀ data, state.isMatch validAccountData 0 data = .ok true := by
      intro data
      obtain ⟨message, hparsed, -, -, -, hlamports, hdata⟩ :=
        exists_parsedAccount (.replicate 32 0) (.replicate 32 0) 0 data false
      have hconditions := FilterAccountsInner.conditions_of_accepts (h message hparsed)
      rwa [hfilters, hlamports, hdata] at hconditions
    obtain ⟨hsizes, hmemcmps⟩ := FilterAccountsState.memcmp_of_matches hkeeps hmatch
    refine ⟨⟨hlen _, hlen _, hfits, fun a _ ha => absurd ha (hsizes a)⟩, ?_⟩
    intro condition hc
    cases condition with
    | memcmp offset data =>
      obtain ⟨rfl, rfl⟩ := hmemcmps offset data hc
      exact Nat.two_pow_pos 64
    | dataSize size => trivial
    | tokenAccountState => trivial
    | lamports cmp => trivial

/-- A filter that asks for nothing can be built. -/
theorem ConfigFilterAccounts.Unrestricted.buildable (h : filter.Unrestricted)
    (hcount : filter.filters.length ≤ maxFilters) :
    Buildable filter.filters ∧ ∀ condition ∈ filter.filters, EndsBelow condition := by
  refine ⟨⟨(List.length_filterMap_le _ _).trans hcount,
    (List.length_filterMap_le _ _).trans hcount, ?_, ?_⟩, ?_⟩
  · intro condition hc
    rw [h.filters condition hc]
    exact Nat.zero_le _
  · intro a _ ha
    cases h.filters _ ha
  · intro condition hc
    rw [h.filters condition hc]
    exact Nat.two_pow_pos 64

theorem accounts_matchesAll_iff (hinvalid : validAccountData [] = false)
    (hcount : filter.filters.length ≤ maxFilters)
    (haccount : filter.account.length ≤ usizeMax) (howner : filter.owner.length ≤ usizeMax)
    (state : RandomState) (seed : ℕ) (names : FilterNames) :
    (∃ built, FilterAccounts.new state seed names (.singleton name filter) = .ok built ∧
      built.1.MatchesAll validAccountData) ↔ filter.Unrestricted := by
  constructor
  · rintro ⟨built, hnew, hall⟩
    obtain ⟨inner, hinner, hentries⟩ := built_singleton (FilterAccounts.built_of_new hnew)
    have haccepts : ∀ message, ParsedAccount message →
        inner.accepts validAccountData message = .ok true := by
      intro message hparsed
      have hupdate := hall message [] hparsed
      rwa [FilterAccounts.getUpdate, hentries, updateOf_singleton] at hupdate
    obtain ⟨hbuild, hends⟩ := buildable_of_accepts hcount hinner haccepts
    apply (forall_accountMatches_iff hinvalid haccount howner).mp
    intro message hparsed
    obtain ⟨b, hb, hiff⟩ :=
      FilterAccountsInner.accepts_spec hbuild hends hinner validAccountData message
    rw [haccepts message hparsed, Except.ok.injEq] at hb
    exact hiff.mp hb.symm
  · intro h
    obtain ⟨hbuild, hends⟩ := h.buildable hcount
    obtain ⟨inner, hinner⟩ := FilterAccountsInner.new_ok hbuild
    have hall : ∀ config ∈ (AList.singleton name filter : HashMap String _).entries,
        ∃ value, FilterAccountsInner.new config.2 = .ok value := by
      intro config hc
      rw [List.mem_singleton.mp hc]
      exact ⟨inner, hinner⟩
    obtain ⟨built, hbuilt⟩ := FilterNames.buildAll_ok hall names
    have hnew : FilterAccounts.new state seed names (.singleton name filter) =
        .ok (⟨.collect state seed built.1⟩, built.2) := by
      rw [FilterAccounts.new, hbuilt]
      rfl
    refine ⟨_, hnew, fun message dataSlices hparsed => ?_⟩
    obtain ⟨inner', hinner', hentries⟩ := built_singleton (FilterAccounts.built_of_new hnew)
    obtain rfl : inner = inner' := Except.ok.inj (hinner.symm.trans hinner')
    obtain ⟨b, hb, hiff⟩ :=
      FilterAccountsInner.accepts_spec hbuild hends hinner validAccountData message
    have hmatches :=
      (forall_accountMatches_iff hinvalid haccount howner).mpr h message hparsed
    rw [FilterAccounts.getUpdate, hentries, updateOf_singleton, hb, hiff.mpr hmatches]

end

-- ════════════════════════════════════════════════════════════════════════
-- What the switch refuses
-- ════════════════════════════════════════════════════════════════════════

/-- A transaction filter on its own is refused as empty exactly if what is built from
it matches every transaction. -/
def TransactionsSwitch (limits : ConfigLimitsTransactions) (nameMax : ℕ) (state : RandomState)
    (seed : ℕ) (names : FilterNames) (filterType : FilterTransactionsType) (name : String)
    (filter : ConfigFilterTransactions) : Prop :=
  limits.checkFilter nameMax (.singleton name filter) = .error .emptyNotAllowed ↔
    ∃ built, FilterTransactions.new state seed names (.singleton name filter) filterType =
      .ok built ∧ built.1.MatchesAll

/-- An account filter on its own is refused as empty exactly if what is built from it
matches every account. -/
def AccountsSwitch (limits : ConfigLimitsAccounts) (nameMax : ℕ) (state : RandomState)
    (seed : ℕ) (names : FilterNames) (validAccountData : Bytes → Bool) (name : String)
    (filter : ConfigFilterAccounts) (dataSlices : List ConfigFilterAccountsDataSlice) : Prop :=
  limits.checkFilter nameMax (.singleton name filter) dataSlices = .error .emptyNotAllowed ↔
    ∃ built, FilterAccounts.new state seed names (.singleton name filter) = .ok built ∧
      built.1.MatchesAll validAccountData

/-- A transaction filter asks for a signature and for nothing else. -/
structure ConfigFilterTransactions.OnlySignature (filter : ConfigFilterTransactions) : Prop where
  vote : filter.vote = none
  failed : filter.failed = none
  accountInclude : filter.accountInclude = []
  accountExclude : filter.accountExclude = []
  accountRequired : filter.accountRequired = []
  signature : filter.signature ≠ none

/-- An account filter names no accounts and no owners, but has a condition that not
every account meets, or asks for the signature flag. -/
structure ConfigFilterAccounts.OnlyConditions (filter : ConfigFilterAccounts) : Prop where
  account : filter.account = []
  owner : filter.owner = []
  restricts : (∃ condition ∈ filter.filters, condition ≠ .memcmp 0 []) ∨
    filter.nonemptyTxnSignature ≠ none

theorem ConfigFilterTransactions.unrestricted_iff {filter : ConfigFilterTransactions} :
    ((filter.vote = none ∧ filter.failed = none ∧ filter.accountInclude = [] ∧
        filter.accountExclude = [] ∧ filter.accountRequired = []) ↔ filter.Unrestricted) ↔
      ¬filter.OnlySignature := by
  constructor
  · intro h honly
    exact honly.signature (h.mp ⟨honly.vote, honly.failed, honly.accountInclude,
      honly.accountExclude, honly.accountRequired⟩).signature
  · intro honly
    constructor
    · rintro ⟨hvote, hfailed, hinclude, hexclude, hrequired⟩
      refine ⟨hvote, hfailed, ?_, hinclude, hexclude, hrequired⟩
      by_contra hsignature
      exact honly ⟨hvote, hfailed, hinclude, hexclude, hrequired, hsignature⟩
    · intro h
      exact ⟨h.vote, h.failed, h.accountInclude, h.accountExclude, h.accountRequired⟩

theorem ConfigFilterAccounts.unrestricted_iff {filter : ConfigFilterAccounts} :
    ((filter.account = [] ∧ filter.owner = []) ↔ filter.Unrestricted) ↔
      ¬filter.OnlyConditions := by
  constructor
  · intro h honly
    have hun := h.mp ⟨honly.account, honly.owner⟩
    obtain ⟨condition, hc, hne⟩ | hne := honly.restricts
    · exact hne (hun.filters condition hc)
    · exact hne hun.nonemptyTxnSignature
  · intro honly
    constructor
    · rintro ⟨haccount, howner⟩
      refine ⟨haccount, howner, ?_, ?_⟩
      · intro condition hc
        by_contra hne
        exact honly ⟨haccount, howner, .inl ⟨condition, hc, hne⟩⟩
      · by_contra hne
        exact honly ⟨haccount, howner, .inr hne⟩
    · intro h
      exact ⟨h.account, h.owner⟩

theorem transactions_built (state : RandomState) (seed : ℕ) (names : FilterNames)
    (filterType : FilterTransactionsType) (configs : HashMap String ConfigFilterTransactions) :
    ∃ built, FilterTransactions.new state seed names configs filterType = .ok built := by
  have hall : ∃ built, FilterNames.buildAll (fun f => .ok (FilterTransactionsInner.new f)) names
      configs.entries = .ok built := by
    apply FilterNames.buildAll_ok
    intro config _
    exact ⟨FilterTransactionsInner.new config.2, rfl⟩
  obtain ⟨built, hbuilt⟩ := hall
  exact ⟨_, bind_eq_ok.mpr ⟨built, hbuilt, rfl⟩⟩

/-- With `any` switched off, exactly the filters that match everything are refused as
empty, except that a transaction filter with nothing but a signature, and an account
filter with nothing but conditions or the signature flag, are refused as well. -/
theorem any_switch_iff (state : RandomState) (seed : ℕ) (names : FilterNames) {nameMax : ℕ}
    {name : String} (hname : name.utf8ByteSize ≤ nameMax) :
    (∀ (limits : ConfigLimitsTransactions) (filterType : FilterTransactionsType)
        (filter : ConfigFilterTransactions), limits.any = false → 1 ≤ limits.max →
      (TransactionsSwitch limits nameMax state seed names filterType name filter ↔
        ¬filter.OnlySignature)) ∧
    ∀ (limits : ConfigLimitsAccounts) (validAccountData : Bytes → Bool)
        (filter : ConfigFilterAccounts) (dataSlices : List ConfigFilterAccountsDataSlice),
      limits.any = false → 1 ≤ limits.max → validAccountData [] = false →
      filter.filters.length ≤ maxFilters → filter.account.length ≤ usizeMax →
      filter.owner.length ≤ usizeMax →
      (AccountsSwitch limits nameMax state seed names validAccountData name filter dataSlices ↔
        ¬filter.OnlyConditions) := by
  constructor
  · intro limits filterType filter hany hmax
    have hmatches : (∃ built, FilterTransactions.new state seed names (.singleton name filter)
        filterType = .ok built ∧ built.1.MatchesAll) ↔ filter.Unrestricted := by
      constructor
      · rintro ⟨built, hnew, hall⟩
        exact (transactions_matchesAll_iff hnew).mp hall
      · intro h
        obtain ⟨built, hnew⟩ := transactions_built state seed names filterType _
        exact ⟨built, hnew, (transactions_matchesAll_iff hnew).mpr h⟩
    rw [TransactionsSwitch, transactions_refused_iff hany hname hmax, hmatches]
    exact ConfigFilterTransactions.unrestricted_iff
  · intro limits validAccountData filter dataSlices hany hmax hinvalid hcount haccount howner
    rw [AccountsSwitch, accounts_refused_iff hany hname hmax,
      accounts_matchesAll_iff hinvalid hcount haccount howner]
    exact ConfigFilterAccounts.unrestricted_iff

/-- The default limits with `any` switched off. -/
def transactionsNotAny : ConfigLimitsTransactions :=
  { ConfigLimitsTransactions.default with any := false }

def accountsNotAny : ConfigLimitsAccounts :=
  { ConfigLimits.default.accounts with any := false }

/-- A transaction filter with the given flag and signature. -/
def transactionsWith (vote : Option Bool) (signature : Option Signature) :
    ConfigFilterTransactions where
  vote := vote
  failed := none
  signature := signature
  accountInclude := []
  accountExclude := []
  accountRequired := []

/-- An account filter with the given owners and conditions. -/
def accountsOf (owner : List Pubkey) (filters : List ConfigFilterAccountsFilter) :
    ConfigFilterAccounts where
  account := []
  owner := owner
  filters := filters
  nonemptyTxnSignature := none

/-- A filter for votes and a filter for an owner are told apart from empty ones. -/
theorem any_switch_votes :
    TransactionsSwitch transactionsNotAny 128 .listed 0 .default .transaction "votes"
        (transactionsWith (some true) none) ∧
      AccountsSwitch accountsNotAny 128 .listed 0 .default (fun data => data.length = 165)
        "votes" (accountsOf [.replicate 32 1] [.dataSize 2]) [] := by
  obtain ⟨htransactions, haccounts⟩ := any_switch_iff .listed 0 .default
    (show ("votes" : String).utf8ByteSize ≤ 128 by decide)
  refine ⟨(htransactions _ .transaction _ rfl (by decide)).mpr fun h => ?_,
    (haccounts _ _ _ [] rfl (by decide) rfl (by decide) (by decide) (by decide)).mpr fun h => ?_⟩
  · cases h.vote
  · cases h.owner

/-- A filter for one signature, and one for accounts of two bytes, are refused as
empty, though neither matches everything. -/
theorem signature_refused_as_empty :
    transactionsNotAny.checkFilter 128
        (.singleton "one" (transactionsWith none (some (.replicate 64 1)))) =
          .error .emptyNotAllowed ∧
      ¬TransactionsSwitch transactionsNotAny 128 .listed 0 .default .transaction "one"
        (transactionsWith none (some (.replicate 64 1))) ∧
      accountsNotAny.checkFilter 128 (.singleton "one" (accountsOf [] [.dataSize 2])) [] =
        .error .emptyNotAllowed ∧
      ¬AccountsSwitch accountsNotAny 128 .listed 0 .default (fun data => data.length = 165)
        "one" (accountsOf [] [.dataSize 2]) [] := by
  have hrefused : transactionsNotAny.checkFilter 128
      (.singleton "one" (transactionsWith none (some (.replicate 64 1)))) =
        .error .emptyNotAllowed := rfl
  have hrefused' : accountsNotAny.checkFilter 128
      (.singleton "one" (accountsOf [] [.dataSize 2])) [] = .error .emptyNotAllowed := rfl
  refine ⟨hrefused, fun h => ?_, hrefused', fun h => ?_⟩
  · obtain ⟨built, hnew, hall⟩ := h.mp hrefused
    cases ((transactions_matchesAll_iff hnew).mp hall).signature
  · have hall := (accounts_matchesAll_iff rfl (by decide) (by decide) (by decide) .listed 0
      .default).mp (h.mp hrefused')
    cases hall.filters _ (List.mem_singleton.mpr rfl)

end Dragonmouth.Filters
