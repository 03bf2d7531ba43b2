import Dragonmouth.Filters.Blocks
import Dragonmouth.Filters.DataSlices
import Dragonmouth.Filters.Decode

/-!
# The contents of updates

A filter whose conditions and slices end within 64 bits, and whose slices are together
no longer than what can be allocated, answers every message without a panic or an abort.
What is encoded of an update are its contents: the names of the filters, the parts of the
message it selects, and of the data of accounts the slices that were asked for.

## Main definitions

- `FilteredUpdate.encodeWithin`: `encode` over an allocator with a bound
- `ConfigFilter.Fits`: configurations that are evaluated without an overflow
- `FilteredUpdate.contents`: what a subscriber reads of an update
- `Selected`: the updates of a message, blocks included

## Main results

- `Filter.Built.encoded`: every message is answered with the contents of its updates
-/

namespace Dragonmouth.Filters

open Checks Encoding
open Proto (Timestamp SubscribeUpdateAccountInfo)
open Richat (MessageAccount MessageTransaction MessageEntry MessageBlock)

/-- Nothing overflows where the filter is evaluated, and a vector for all slices is within
what a vector may hold and what the allocator serves. -/
structure ConfigFilter.Fits (allocMax : ℕ) (config : ConfigFilter) : Prop where
  ends : config.EndsBelow
  stops : ∀ dataSlice ∈ config.accountsDataSlice, dataSlice.stop < 2 ^ 64
  total : FilterAccountDataSlices.total config.accountsDataSlice < 2 ^ 63
  served : FilterAccountDataSlices.total config.accountsDataSlice ≤ allocMax

-- ════════════════════════════════════════════════════════════════════════
-- Allocation
-- ════════════════════════════════════════════════════════════════════════

/-- What stops the server where it answers a message. -/
inductive Crash where
  | panic (panic : Panic)
  /-- the allocator has not served a vector -/
  | abort
  deriving DecidableEq

/-- The capacity of the vectors that `get_slice` makes for an update. Without slices the
data is copied as it is. -/
def FilteredUpdateType.capacity : FilteredUpdateType → ℕ
  | .account _ slices => if slices = [] then 0 else slices.capacity
  | .block _ accounts _ _ slices =>
    if accounts = [] ∨ slices = [] then 0 else slices.capacity
  | _ => 0

/-- `encode` over an allocator that serves vectors for slices up to `allocMax` bytes, and the
other ones, which are as long as what they hold. A capacity that no vector may have is not
asked for: `encode` panics. -/
def FilteredUpdate.encodeWithin (P : Prost) (G : Geyser) (allocMax : ℕ) (self : FilteredUpdate) :
    Except Crash Bytes := do
  check (self.filteredUpdate.capacity ≤ allocMax ∨ self.filteredUpdate.capacity ≥ 2 ^ 63) .abort
  (self.encode P G).mapError .panic

-- ════════════════════════════════════════════════════════════════════════
-- Contents
-- ════════════════════════════════════════════════════════════════════════

section

variable (dataSlices : List ConfigFilterAccountsDataSlice)

/-- An account with the slices of its data, or all of it. -/
def slicedInfo (account : SubscribeUpdateAccountInfo) : SubscribeUpdateAccountInfo :=
  { account with data := slicesOf dataSlices account.data }

/-- The selected parts of a block, and the rest of its meta. -/
def blockContents (message : MessageBlock) (accounts transactions : List ℕ) (entries : Bool) :
    SubscribeUpdateBlock :=
  let blockMeta := message.blockMeta.blockMeta
  { slot := blockMeta.slot
    blockhash := blockMeta.blockhash
    rewards := blockMeta.rewards
    blockTime := blockMeta.blockTime
    blockHeight := blockMeta.blockHeight
    parentSlot := blockMeta.parentSlot
    parentBlockhash := blockMeta.parentBlockhash
    executedTransactionCount := blockMeta.executedTransactionCount
    transactions := (transactions.filterMap (message.transactions[·]?)).map
      MessageTransaction.transaction
    updatedAccountCount := message.accounts.length
    accounts := (accounts.filterMap (message.accounts[·]?)).map fun account =>
      slicedInfo dataSlices account.account
    entriesCount := blockMeta.entriesCount
    entries := if entries then message.entries.map MessageEntry.entry else [] }

/-- The contents of an update, and when its message was created. -/
def FilteredUpdateType.contents : FilteredUpdateType → UpdateOneof × Timestamp
  | .slot message => (.slot ⟨message.slot, message.parent, message.commitment.toInt32,
      message.deadError⟩, message.createdAt)
  | .account message _ => (.account ⟨some (slicedInfo dataSlices message.account), message.slot,
      message.isStartup⟩, message.createdAt)
  | .transaction message =>
    (.transaction ⟨some message.transaction, message.slot⟩, message.createdAt)
  | .transactionStatus message =>
    (.transactionStatus ⟨message.slot, message.signature.toList, message.transaction.isVote,
      message.transaction.index, message.error⟩, message.createdAt)
  | .entry message => (.entry message.entry, message.createdAt)
  | .blockMeta message => (.blockMeta message.blockMeta, message.createdAt)
  | .block message accounts transactions entries _ =>
    (.block (blockContents dataSlices message accounts transactions entries), message.createdAt)

/-- What a subscriber reads of an update. -/
def FilteredUpdate.contents (self : FilteredUpdate) : SubscribeUpdate :=
  let (updateOneof, createdAt) := self.filteredUpdate.contents dataSlices
  { filters := self.filters, updateOneof := some updateOneof, createdAt := some createdAt }

/-- The slices are those that were asked for, and the indexes are in range. -/
def FilteredUpdateType.Regular : FilteredUpdateType → Prop
  | .account _ slices => slices = .new dataSlices
  | .block message accounts transactions _ slices => slices = .new dataSlices ∧
      (∀ idx ∈ accounts, idx < message.accounts.length) ∧
      ∀ idx ∈ transactions, idx < message.transactions.length
  | _ => True

end

/-- The bytes of an update are those of its contents, and a subscriber reads them back if
the numbers fit their types. -/
structure Conveys (P : Prost) (decode : Bytes → Except String SubscribeUpdate)
    (dataSlices : List ConfigFilterAccountsDataSlice) (update : FilteredUpdate) (data : Bytes) :
    Prop where
  bytes : data = fieldsWrite P ((update.contents dataSlices).fields P)
  decoded : (update.contents dataSlices).InRange P → decode data = .ok (update.contents dataSlices)

section

variable {P : Prost} {G : Geyser} {decode : Bytes → Except String SubscribeUpdate}
  {allocMax : ℕ} {dataSlices : List ConfigFilterAccountsDataSlice}
  (hstops : ∀ dataSlice ∈ dataSlices, dataSlice.stop < 2 ^ 64)
  (htotal : FilterAccountDataSlices.total dataSlices < 2 ^ 63)
include hstops htotal

theorem accountInfo_sliced (account : SubscribeUpdateAccountInfo) :
    accountInfo (.new dataSlices) account = .ok (slicedInfo dataSlices account) :=
  bind_eq_ok.mpr ⟨_, FilterAccountDataSlices.getSlice_of_fits hstops htotal _, rfl⟩

omit hstops htotal in
/-- Items at indexes that are in range. -/
theorem mapM_itemAt {α β : Type} {items : List α} {f : α → Except Panic β} {g : α → β}
    (hf : ∀ item, f item = .ok (g item)) {indexes : List ℕ}
    (h : ∀ idx ∈ indexes, idx < items.length) :
    (indexes.mapM fun idx => do
      let item ← itemAt items idx
      f item) = .ok ((indexes.filterMap (items[·]?)).map g) := by
  induction indexes with
  | nil => rfl
  | cons idx indexes ih =>
    obtain ⟨item, hidx⟩ : ∃ item, items[idx]? = some item :=
      ⟨_, List.getElem?_eq_getElem (h idx (.head _))⟩
    have hitem : itemAt items idx = .ok item := by
      rw [itemAt, hidx]
      rfl
    rw [List.mapM_cons, hitem, ih fun i hi => h i (.tail _ hi), List.filterMap_cons, hidx]
    change (f _ >>= _) = _
    rw [hf]
    rfl

/-- A regular update is encoded as its contents. -/
theorem FilteredUpdate.message_regular {update : FilteredUpdate}
    (h : update.filteredUpdate.Regular dataSlices) : ∃ built,
      update.message = .ok built ∧ built.subscribeUpdate = update.contents dataSlices := by
  obtain ⟨filters, filteredUpdate⟩ := update
  cases filteredUpdate with
  | account message slices =>
    obtain rfl : slices = .new dataSlices := h
    exact ⟨_, bind_eq_ok.mpr ⟨_, accountInfo_sliced hstops htotal message.account, rfl⟩, rfl⟩
  | block message accounts transactions entries slices =>
    obtain ⟨rfl, haccounts, htransactions⟩ := h
    have htxs := mapM_itemAt (f := fun tx : MessageTransaction => .ok tx.transaction)
      (fun _ => rfl) htransactions
    have hinfos := mapM_itemAt (f := fun account : MessageAccount =>
      accountInfo (.new dataSlices) account.account)
      (fun account => accountInfo_sliced hstops htotal account.account) haccounts
    exact ⟨_, bind_eq_ok.mpr ⟨_, bind_eq_ok.mpr ⟨_, htxs, bind_eq_ok.mpr ⟨_, hinfos, rfl⟩⟩, rfl⟩,
      rfl⟩
  | _ => exact ⟨_, rfl, rfl⟩

/-- The vectors of a regular update are as large as the slices. -/
theorem FilteredUpdateType.capacity_regular {update : FilteredUpdateType}
    (h : update.Regular dataSlices) :
    update.capacity ≤ FilterAccountDataSlices.total dataSlices := by
  have hcapacity : (FilterAccountDataSlices.new dataSlices).capacity =
      FilterAccountDataSlices.total dataSlices :=
    FilterAccountDataSlices.capacity_new hstops (htotal.trans (by decide))
  cases update with
  | account message slices =>
    obtain rfl : slices = .new dataSlices := h
    rw [capacity, hcapacity]
    split
    · exact Nat.zero_le _
    · exact Nat.le_refl _
  | block message accounts transactions entries slices =>
    obtain ⟨rfl, -, -⟩ := h
    rw [capacity, hcapacity]
    split
    · exact Nat.zero_le _
    · exact Nat.le_refl _
  | _ => exact Nat.zero_le _

/-- A regular update is encoded where its slices can be allocated. -/
theorem FilteredUpdate.encode_regular (hP : P.Documented) (hwire : P.WireFormat)
    (hG : G.Documented P) (hdecode : Decodes P decode)
    (hserved : FilterAccountDataSlices.total dataSlices ≤ allocMax) {update : FilteredUpdate}
    (h : update.filteredUpdate.Regular dataSlices) : ∃ data,
      update.encodeWithin P G allocMax = .ok data ∧ Conveys P decode dataSlices update data := by
  obtain ⟨built, hbuilt, hcontents⟩ := update.message_regular hstops htotal h
  have hallocated := FilteredUpdateType.capacity_regular hstops htotal h
  have hencoded : update.encode P G = .ok (built.encodeToVec P G) :=
    bind_eq_ok.mpr ⟨built, hbuilt, rfl⟩
  refine ⟨built.encodeToVec P G, ?_, ?_, ?_⟩
  · exact then_eq_ok.mpr ⟨check_eq_ok.mpr (.inl (hallocated.trans hserved)),
      mapError_eq_ok.mpr hencoded⟩
  · rw [built.encodeToVec_fields hP hwire hG, hcontents]
  · rw [← hcontents]
    exact built.decode_encodeToVec hP hwire hG hdecode

end

-- ════════════════════════════════════════════════════════════════════════
-- The updates of a filter
-- ════════════════════════════════════════════════════════════════════════

/-- The updates of a message. A block has one for each block filter, with the name of the
filter eight times. -/
inductive Selected (validAccountData : Bytes → Bool) (config : ConfigFilter)
    (commitment : Richat.CommitmentLevel) : Message → List FilteredUpdate → Prop where
  | block {message : MessageBlock} {filters : List (HashMap.Entry String ConfigFilterBlocks)}
      {updates : List FilteredUpdate} (perm : filters.Perm config.blocks.entries)
      (carries : List.Forall₂ (fun f update => update.filters = List.replicate 8 f.1 ∧
        Carries f.2 message (.new config.accountsDataSlice) update.filteredUpdate)
        filters updates) : Selected validAccountData config commitment (.block message) updates
  | other {message : Message} {updates : List FilteredUpdate}
      (other : ∀ block, message ≠ .block block)
      (answers : Answers validAccountData config commitment message updates) :
      Selected validAccountData config commitment message updates

theorem regular_of_mem_updateOf {dataSlices : List ConfigFilterAccountsDataSlice}
    {names : List String} {u : FilteredUpdateType} (h : u.Regular dataSlices)
    {update : FilteredUpdate} (hupdate : update ∈ (updateOf names u).toList) :
    update.filteredUpdate.Regular dataSlices := by
  rw [mem_updateOf hupdate]
  exact h

theorem acceptedNames_total {ν : Type} (p : ν → Bool)
    (entries : List (HashMap.Entry FilterName ν)) :
    ∃ names, acceptedNames (fun filter => .ok (p filter)) entries = .ok names :=
  ⟨_, acceptedNames_ok (q := p) fun _ _ => rfl⟩

/-- What an update of a block filter has selected is regular. -/
theorem Carries.regular {message : MessageBlock} {f : ConfigFilterBlocks}
    {slices : List ConfigFilterAccountsDataSlice} {update : FilteredUpdateType}
    (h : Carries f message (.new slices) update) : update.Regular slices := by
  obtain ⟨accounts, transactions, entries, rfl, haccounts, htransactions, -⟩ := h
  exact ⟨rfl, fun _ => haccounts.lt_length, fun _ => htransactions.lt_length⟩

/-- A transaction is always answered, also one whose keys are not its own. -/
theorem Filter.transaction_updates (validAccountData : Bytes → Bool) (filter : Filter)
    (dataSlices : List ConfigFilterAccountsDataSlice) (message : MessageTransaction)
    (commitment : Richat.CommitmentLevel) : ∃ updates,
    filter.getUpdatesRef validAccountData (.transaction message) commitment = .ok updates ∧
      ∀ update ∈ updates, update.filteredUpdate.Regular dataSlices := by
  have hupdate : ∀ transactions : FilterTransactions,
      ∃ update, transactions.getUpdate message = .ok update ∧
        ∀ u ∈ update.toList, u.filteredUpdate.Regular dataSlices := by
    intro transactions
    obtain ⟨names, hnames⟩ := acceptedNames_total
      (fun filter : FilterTransactionsInner => filter.accepts message)
      transactions.filters.entries
    refine ⟨_, bind_eq_ok.mpr ⟨_, hnames, rfl⟩, fun u hu => ?_⟩
    refine regular_of_mem_updateOf ?_ hu
    cases transactions.filterType <;> trivial
  obtain ⟨update, hok, hregular⟩ := hupdate filter.transactions
  obtain ⟨status, hok', hregular'⟩ := hupdate filter.transactionsStatus
  refine ⟨_, bind_eq_ok.mpr ⟨_, hok, bind_eq_ok.mpr ⟨_, hok', rfl⟩⟩, fun u hu => ?_⟩
  exact (List.mem_append.mp hu).elim (hregular u) (hregular' u)

namespace Filter.Built

variable {validAccountData : Bytes → Bool} {config : ConfigFilter} {filter : Filter}
  (h : filter.Built config)
include h

/-- Every message is answered, with the updates it should have. -/
theorem updates_selected (hbuild : config.Buildable) (hends : config.EndsBelow)
    (message : Message) (commitment : Richat.CommitmentLevel) : ∃ updates,
    filter.getUpdatesRef validAccountData message commitment = .ok updates ∧
      (∀ update ∈ updates, update.filteredUpdate.Regular config.accountsDataSlice) ∧
      ((∀ tx, message = .transaction tx → Keyed tx) →
        Selected validAccountData config commitment message updates) := by
  cases message with
  | slot message =>
    obtain ⟨updates, hok, hanswers⟩ := h.slot_answers message
    refine ⟨updates, hok, fun update hupdate => ?_, fun _ => .other (by simp) hanswers⟩
    obtain ⟨update', hone, hupdates⟩ := bind_eq_ok.mp hok
    obtain ⟨names, -, hnames⟩ := bind_eq_ok.mp hone
    rw [← Except.ok.inj hupdates, ← Except.ok.inj hnames] at hupdate
    exact regular_of_mem_updateOf (u := .slot message) trivial hupdate
  | account message =>
    obtain ⟨updates, hok, hanswers⟩ := h.account_answers hbuild hends message
    refine ⟨updates, hok, fun update hupdate => ?_, fun _ => .other (by simp) hanswers⟩
    obtain ⟨update', hone, hupdates⟩ := bind_eq_ok.mp hok
    obtain ⟨names, -, hnames⟩ := bind_eq_ok.mp hone
    rw [← Except.ok.inj hupdates, ← Except.ok.inj hnames] at hupdate
    exact regular_of_mem_updateOf (u := .account message _) h.accountsDataSlices hupdate
  | transaction message =>
    obtain ⟨updates, hok, hregular⟩ := filter.transaction_updates validAccountData
      config.accountsDataSlice message commitment
    refine ⟨updates, hok, hregular, fun hkeyed => ?_⟩
    obtain ⟨updates', hok', hanswers⟩ := h.transaction_answers (hkeyed message rfl)
    rw [Except.ok.inj (hok.symm.trans hok')]
    exact .other (by simp) hanswers
  | entry message =>
    exact ⟨_, rfl, fun _ => regular_of_mem_updateOf (u := .entry message) trivial,
      fun _ => .other (by simp) (h.entry_answers message)⟩
  | blockMeta message =>
    exact ⟨_, rfl, fun _ => regular_of_mem_updateOf (u := .blockMeta message) trivial,
      fun _ => .other (by simp) (h.blockMeta_answers message)⟩
  | block message =>
    obtain ⟨filters, hperm, hall⟩ := getUpdates_blocks h message
    refine ⟨_, rfl, fun update hupdate => ?_, fun _ => .block hperm hall⟩
    obtain ⟨f, -, -, hcarries⟩ := exists_left hall hupdate
    exact hcarries.regular

/-- Every message is answered with the contents of its updates, and nothing panics or
aborts. -/
theorem encoded {P : Prost} {G : Geyser} {decode : Bytes → Except String SubscribeUpdate}
    (hP : P.Documented) (hwire : P.WireFormat) (hG : G.Documented P) (hdecode : Decodes P decode)
    {allocMax : ℕ} (validAccountData : Bytes → Bool) (hbuild : config.Buildable)
    (hfits : config.Fits allocMax) (message : Message) (commitment : Richat.CommitmentLevel) :
    ∃ updates datas,
      filter.getUpdatesRef validAccountData message commitment = .ok updates ∧
      updates.mapM (FilteredUpdate.encodeWithin P G allocMax) = .ok datas ∧
      List.Forall₂ (Conveys P decode config.accountsDataSlice) updates datas ∧
      ((∀ tx, message = .transaction tx → Keyed tx) →
        Selected validAccountData config commitment message updates) := by
  obtain ⟨updates, hok, hregular, hselected⟩ :=
    h.updates_selected hbuild hfits.ends message commitment
  have hencode : ∀ update ∈ updates, ∃ data,
      update.encodeWithin P G allocMax = .ok data ∧
        Conveys P decode config.accountsDataSlice update data :=
    fun update hupdate => FilteredUpdate.encode_regular hfits.stops hfits.total hP hwire hG hdecode
      hfits.served (hregular update hupdate)
  choose! encode hencode using hencode
  refine ⟨updates, updates.map encode, hok, mapM_eq_ok.mpr ?_, ?_, hselected⟩
  · rw [List.forall₂_map_right_iff, List.forall₂_same]
    exact fun update hupdate => (hencode update hupdate).1
  · rw [List.forall₂_map_right_iff, List.forall₂_same]
    exact fun update hupdate => (hencode update hupdate).2

end Filter.Built

end Dragonmouth.Filters
