import Dragonmouth.Filters.Answers
import Dragonmouth.Filters.Encode

/-!
# The updates of a block

Every block filter produces an update of its own. The update carries exactly the
accounts, transactions and entries the filter selects, by increasing indexes that
are in range; but it names the filter eight times.

## Main definitions

- `Selects`: the increasing indexes of the items that are selected
- `Carries`: the parts of a block an update carries
- `Reports`: an update that names its filter once
-/

namespace Dragonmouth.Filters

open Checks Encoding
open Richat (MessageAccount MessageTransaction MessageBlock)

/-- The indexes of the items that are selected, in increasing order. -/
structure Selects {α : Type} (selected : α → Prop) (items : List α) (indexes : List ℕ) : Prop where
  increasing : indexes.Pairwise (· < ·)
  exact : ∀ idx, idx ∈ indexes ↔ ∃ item, items[idx]? = some item ∧ selected item

/-- Accounts are selected by their key if accounts are asked for. -/
def AccountSelected (filter : ConfigFilterBlocks) (account : MessageAccount) : Prop :=
  filter.includeAccounts = some true ∧
    (filter.accountInclude = [] ∨ account.pubkey ∈ filter.accountInclude)

/-- Transactions are selected by their keys unless they are declined. -/
def TransactionSelected (filter : ConfigFilterBlocks) (tx : MessageTransaction) : Prop :=
  filter.includeTransactions ≠ some false ∧
    (filter.accountInclude = [] ∨ ∃ key ∈ filter.accountInclude, key ∈ tx.accountKeys)

/-- The parts of a block an update carries are those the filter selects. -/
def Carries (filter : ConfigFilterBlocks) (message : MessageBlock)
    (dataSlices : FilterAccountDataSlices) (update : FilteredUpdateType) : Prop :=
  ∃ accounts transactions entries,
    update = .block message accounts transactions entries dataSlices ∧
    Selects (AccountSelected filter) message.accounts accounts ∧
    Selects (TransactionSelected filter) message.transactions transactions ∧
    (entries = true ↔ filter.includeEntries = some true)

theorem selectedIndexes_eq {α : Type} (selects : α → Bool) (items : List α) :
    selectedIndexes selects items =
      (items.zipIdx.filter fun entry => selects entry.1).map Prod.snd := by
  rw [selectedIndexes]
  generalize items.zipIdx = entries
  induction entries with
  | nil => rfl
  | cons entry entries ih =>
    obtain ⟨item, idx⟩ := entry
    cases hsel : selects item <;> simp [hsel, ih]

theorem selectedIndexes_selects {α : Type} {selects : α → Bool} {selected : α → Prop}
    (h : ∀ item, selects item = true ↔ selected item) (items : List α) :
    Selects selected items (selectedIndexes selects items) := by
  rw [selectedIndexes_eq]
  constructor
  · have hrange : (items.zipIdx.map Prod.snd).Pairwise (· < ·) := by
      rw [List.zipIdx_map_snd]
      exact List.pairwise_lt_range'
    exact hrange.sublist (List.filter_sublist.map _)
  · intro idx
    simp only [List.mem_map, List.mem_filter, Prod.exists, List.mem_zipIdx_iff_getElem?, h]
    constructor
    · rintro ⟨item, i, ⟨hitem, hsel⟩, rfl⟩
      exact ⟨item, hitem, hsel⟩
    · rintro ⟨item, hitem, hsel⟩
      exact ⟨item, idx, ⟨hitem, hsel⟩, rfl⟩

/-- Nothing is selected. -/
theorem selects_nil {α : Type} {selected : α → Prop} (h : ∀ item, ¬selected item)
    (items : List α) : Selects selected items [] := by
  refine ⟨.nil, fun idx => iff_of_false List.not_mem_nil ?_⟩
  rintro ⟨item, -, hsel⟩
  exact h item hsel

theorem Selects.lt_length {α : Type} {selected : α → Prop} {items : List α} {indexes : List ℕ}
    (h : Selects selected items indexes) {idx : ℕ} (hidx : idx ∈ indexes) : idx < items.length := by
  obtain ⟨item, hitem, -⟩ := (h.exact idx).mp hidx
  exact (List.getElem?_eq_some_iff.mp hitem).1

namespace FilterBlocksInner

variable (filter : ConfigFilterBlocks) (message : MessageBlock)

theorem accounts_selects :
    Selects (AccountSelected filter) message.accounts ((new filter).accounts message) := by
  rw [accounts]
  split
  · rename_i hon
    refine selectedIndexes_selects (fun account => ?_) message.accounts
    rw [Bool.not_eq_true', decide_eq_false_iff_not]
    exact not_restricted.trans (and_iff_right hon).symm
  · rename_i hoff
    exact selects_nil (fun account h => hoff h.1) message.accounts

theorem transactions_selects :
    Selects (TransactionSelected filter) message.transactions
      ((new filter).transactions message) := by
  have hon : (filter.includeTransactions = none ∨ filter.includeTransactions = some true) ↔
      filter.includeTransactions ≠ some false := by
    cases filter.includeTransactions with
    | none => simp
    | some included => cases included <;> simp
  rw [transactions]
  split
  · rename_i hincluded
    refine selectedIndexes_selects (fun tx => ?_) message.transactions
    rw [Bool.not_eq_true', decide_eq_false_iff_not, not_and_or, not_not, ← ne_eq,
      ← Finset.nonempty_iff_ne_empty, TransactionSelected, and_iff_right (hon.mp hincluded)]
    simp only [new, List.toFinset_eq_empty_iff, Finset.Nonempty, Finset.mem_inter,
      List.mem_toFinset]
  · rename_i hoff
    exact selects_nil (fun tx h => hoff (hon.mpr h.1)) message.transactions

theorem update_carries (name : FilterName) (dataSlices : FilterAccountDataSlices) :
    Carries filter message dataSlices
      ((new filter).update name message dataSlices).filteredUpdate :=
  ⟨_, _, _, rfl, accounts_selects filter message, transactions_selects filter message,
    decide_eq_true_iff⟩

end FilterBlocksInner

section

variable (P : Prost) (G : Geyser)

/-- An update of a block filter as it is meant to be: it names the filter once, also
when encoded, and carries what the filter selects. -/
structure Reports (message : MessageBlock) (dataSlices : FilterAccountDataSlices)
    (filter : HashMap.Entry String ConfigFilterBlocks) (update : FilteredUpdate) : Prop where
  filters : update.filters = [filter.1]
  encoding : ∀ bytes, update.encode P G = .ok bytes → ∃ oneof createdAt,
    bytes = SubscribeUpdateMessage.encodeToVec P G ⟨[filter.1], oneof, createdAt⟩
  carries : Carries filter.2 message dataSlices update.filteredUpdate

/-- A block is answered with one update for each block filter, in some order. -/
def BlockAnswered (config : ConfigFilter) (message : MessageBlock)
    (updates : List FilteredUpdate) : Prop :=
  ∃ filters, filters.Perm config.blocks.entries ∧
    List.Forall₂ (Reports P G message (.new config.accountsDataSlice)) filters updates

end

/-- What the updates of a block are: one for each filter, with the filter's name
eight times. -/
theorem getUpdates_blocks {config : ConfigFilter} {filter : Filter} (h : filter.Built config)
    (message : MessageBlock) :
    ∃ filters, filters.Perm config.blocks.entries ∧ List.Forall₂ (fun f update =>
      update.filters = List.replicate 8 f.1 ∧
        Carries f.2 message (.new config.accountsDataSlice) update.filteredUpdate)
      filters (filter.blocks.getUpdates message filter.accountsDataSlices) := by
  obtain ⟨built, hperm, hnamed⟩ := h.blocks
  obtain ⟨filters, hall, hfilters⟩ := List.perm_comp_forall₂ hperm hnamed.flip
  refine ⟨filters, hfilters, ?_⟩
  rw [FilterBlocks.getUpdates, List.forall₂_map_right_iff, h.accountsDataSlices]
  refine hall.flip.imp fun f inner hf => ?_
  obtain ⟨hname, hinner⟩ := hf
  obtain ⟨name, inner⟩ := inner
  cases hname
  cases Except.ok.inj hinner
  exact ⟨rfl, FilterBlocksInner.update_carries f.2 message ⟨f.1⟩ _⟩

/-- A block is answered as meant exactly if nobody asks for blocks. -/
theorem blockAnswered_iff (P : Prost) (G : Geyser) (validAccountData : Bytes → Bool)
    {state : RandomState} {config : ConfigFilter} {filter : Filter}
    (hnew : Filter.new state config = .ok filter) (message : MessageBlock)
    (commitment : Richat.CommitmentLevel) :
    (∃ updates, filter.getUpdatesRef validAccountData (.block message) commitment = .ok updates ∧
      BlockAnswered P G config message updates) ↔ config.blocks = ∅ := by
  obtain ⟨filters, hfilters, hall⟩ := getUpdates_blocks (Filter.built_of_new hnew) message
  constructor
  · rintro ⟨updates, hupdates, reported, hreported, hreports⟩
    cases Except.ok.inj hupdates
    apply AList.ext
    rw [AList.empty_entries]
    by_contra hne
    obtain ⟨f, hf⟩ := List.exists_mem_of_ne_nil _ hne
    obtain ⟨update, hupdate, hreport⟩ := exists_right hreports (hreported.mem_iff.mpr hf)
    obtain ⟨f', -, height, -⟩ := exists_left hall hupdate
    rw [hreport.filters] at height
    exact absurd (congrArg List.length height) (by simp)
  · intro hblocks
    rw [hblocks] at hfilters
    have hnil : filters = [] := List.perm_nil.mp hfilters
    rw [hnil, List.forall₂_nil_left_iff] at hall
    refine ⟨[], congrArg Except.ok hall, [], ?_, .nil⟩
    rw [hblocks]
    exact .nil

/-- A block without anything but its meta. -/
def emptyBlock : MessageBlock where
  accounts := []
  transactions := []
  entries := []
  blockMeta :=
    { blockMeta :=
        { slot := 9
          blockhash := "hash"
          rewards := none
          blockTime := none
          blockHeight := none
          parentSlot := 8
          parentBlockhash := "parent"
          executedTransactionCount := 0
          entriesCount := 0 }
      createdAt := ⟨1, 500⟩
      size := 0 }
  createdAt := ⟨1, 500⟩

theorem blockAnswered_iff_nobody :
    ∃ filter, Filter.new .listed .default = .ok filter ∧
      ∃ updates, filter.getUpdatesRef (fun _ => false) (.block emptyBlock) .processed =
        .ok updates ∧ BlockAnswered wire (geyser wire) .default emptyBlock updates :=
  ⟨_, rfl,
    (blockAnswered_iff wire (geyser wire) (fun _ => false) rfl emptyBlock .processed).mpr rfl⟩

/-- A single block filter is named eight times. -/
theorem block_filter_repeated :
    ∃ filter update, Filter.new .listed ConfigLimits.blocksWithEntries = .ok filter ∧
      filter.getUpdatesRef (fun _ => false) (.block emptyBlock) .processed = .ok [update] ∧
      update.filters = List.replicate 8 "blocks" ∧
      ¬BlockAnswered wire (geyser wire) ConfigLimits.blocksWithEntries emptyBlock [update] := by
  refine ⟨_, _, rfl, rfl, rfl, ?_⟩
  rintro ⟨filters, hperm, hall⟩
  obtain ⟨f, -, hreport⟩ := exists_left hall (.head _)
  exact absurd (congrArg List.length hreport.filters) (by simp [FilterBlocksInner.update])

end Dragonmouth.Filters
