import Dragonmouth.Filters.Filter

/-!
# What filters select

A filter matches a message by what has been configured; the updates of a message
name the filters that match it. Building a section keeps each configured filter
under its name, whatever the order of the maps, and evaluating it accepts exactly
the messages its configuration matches.

## Main definitions

- `Matches`: the filters of a kind that match a message
- `Answers`: the updates a message should have
- `BuiltFrom`: a map of filters that has been built from a configuration
-/

namespace Dragonmouth.Filters

open Checks
open Richat (MessageSlot MessageAccount MessageTransaction)

-- ════════════════════════════════════════════════════════════════════════
-- Matching
-- ════════════════════════════════════════════════════════════════════════

/-- The level of the messages for which a commitment is the subscription's. -/
def levelOf : Richat.CommitmentLevel → Proto.CommitmentLevel
  | .processed => .processed
  | .confirmed => .confirmed
  | .finalized => .finalized

/-- A slot filter does not ask for the commitment, or the commitments agree. -/
def SlotMatches (filter : ConfigFilterSlots) (message : MessageSlot)
    (commitment : Richat.CommitmentLevel) : Prop :=
  filter.filterByCommitment ≠ some true ∨ message.commitment = levelOf commitment

/-- A condition on an account holds. -/
def ConditionHolds (validAccountData : Bytes → Bool) (lamports : ℕ) (data : Bytes) :
    ConfigFilterAccountsFilter → Prop
  | .memcmp offset bytes => ∃ before after, data = before ++ bytes ++ after ∧
      before.length = offset
  | .dataSize size => data.length = size
  | .tokenAccountState => validAccountData data = true
  | .lamports (.eq value) => lamports = value
  | .lamports (.ne value) => lamports ≠ value
  | .lamports (.lt value) => lamports < value
  | .lamports (.gt value) => value < lamports

/-- An account filter selects the account and its owner, and its conditions hold. -/
structure AccountMatches (validAccountData : Bytes → Bool) (filter : ConfigFilterAccounts)
    (message : MessageAccount) : Prop where
  account : filter.account = [] ∨ message.pubkey ∈ filter.account
  owner : filter.owner = [] ∨ message.owner ∈ filter.owner
  conditions : ∀ condition ∈ filter.filters,
    ConditionHolds validAccountData message.account.lamports message.account.data condition
  nonemptyTxnSignature : filter.nonemptyTxnSignature = none ∨
    filter.nonemptyTxnSignature = some message.nonemptyTxnSignature

/-- A transaction filter selects the transaction and its keys. -/
structure TransactionMatches (filter : ConfigFilterTransactions) (message : MessageTransaction) :
    Prop where
  vote : filter.vote = none ∨ filter.vote = some message.transaction.isVote
  failed : filter.failed = none ∨ filter.failed = some message.error.isSome
  signature : filter.signature = none ∨ filter.signature = some message.signature
  accountInclude : filter.accountInclude = [] ∨
    ∃ key ∈ filter.accountInclude, key.toList ∈ transactionKeys message.transaction
  accountExclude : ∀ key ∈ filter.accountExclude,
    key.toList ∉ transactionKeys message.transaction
  accountRequired : ∀ key ∈ filter.accountRequired,
    key.toList ∈ transactionKeys message.transaction

inductive UpdateKind where
  | slot
  | account
  | transaction
  | transactionStatus
  | entry
  | blockMeta
  | block
  deriving DecidableEq

namespace FilteredUpdateType

def kind : FilteredUpdateType → UpdateKind
  | slot _ => .slot
  | account _ _ => .account
  | transaction _ => .transaction
  | transactionStatus _ => .transactionStatus
  | entry _ => .entry
  | blockMeta _ => .blockMeta
  | block _ _ _ _ _ => .block

/-- The message of an update. -/
def message : FilteredUpdateType → Message
  | slot message => .slot message
  | account message _ => .account message
  | transaction message => .transaction message
  | transactionStatus message => .transaction message
  | entry message => .entry message
  | blockMeta message => .blockMeta message
  | block message _ _ _ _ => .block message

end FilteredUpdateType

/-- The kinds of updates a message can produce. -/
def kinds : Message → List UpdateKind
  | .slot _ => [.slot]
  | .account _ => [.account]
  | .transaction _ => [.transaction, .transactionStatus]
  | .entry _ => [.entry]
  | .blockMeta _ => [.blockMeta]
  | .block _ => [.block]

/-- The filters of a kind that match a message, by name. -/
def Matches (validAccountData : Bytes → Bool) (config : ConfigFilter)
    (commitment : Richat.CommitmentLevel) : Message → UpdateKind → String → Prop
  | .slot message, .slot, name =>
    ∃ filter, config.slots.lookup name = some filter ∧ SlotMatches filter message commitment
  | .account message, .account, name =>
    ∃ filter, config.accounts.lookup name = some filter ∧
      AccountMatches validAccountData filter message
  | .transaction message, .transaction, name =>
    ∃ filter, config.transactions.lookup name = some filter ∧ TransactionMatches filter message
  | .transaction message, .transactionStatus, name =>
    ∃ filter, config.transactionsStatus.lookup name = some filter ∧
      TransactionMatches filter message
  | .entry _, .entry, name => name ∈ config.entries
  | .blockMeta _, .blockMeta, name => name ∈ config.blocksMeta
  | _, _, _ => False

/-- No update if no filter matches, and otherwise one that names the matching
filters once each. -/
structure Answer (matching : String → Prop) (updates : List FilteredUpdate) : Prop where
  none : (¬∃ name, matching name) → updates = []
  one : (∃ name, matching name) → ∃ update, updates = [update] ∧ update.filters.Nodup ∧
    ∀ name, name ∈ update.filters ↔ matching name

/-- The updates a message should have, of each kind it can produce. -/
structure Answers (validAccountData : Bytes → Bool) (config : ConfigFilter)
    (commitment : Richat.CommitmentLevel) (message : Message) (updates : List FilteredUpdate) :
    Prop where
  carried : ∀ update ∈ updates, update.filteredUpdate.message = message ∧
    update.filteredUpdate.kind ∈ kinds message
  answer : ∀ kind ∈ kinds message,
    Answer (Matches validAccountData config commitment message kind)
      (updates.filter fun update => update.filteredUpdate.kind = kind)

-- ════════════════════════════════════════════════════════════════════════
-- Building
-- ════════════════════════════════════════════════════════════════════════

theorem FilterNames.get_name (names : FilterNames) (name : String) :
    (names.get name).1 = ⟨name⟩ := by
  rw [get]
  split
  · rename_i interned hfind
    have hname : interned.name = name := by simpa using List.find?_some hfind
    rw [← hname]
  · rfl

theorem FilterNames.getAll_names (names : FilterNames) (configs : List String) :
    (names.getAll configs).1 = configs.map FilterName.mk := by
  induction configs generalizing names with
  | nil => rfl
  | cons name configs ih => simp [getAll, get_name, ih]

section

variable {ν ν' : Type} {build : ν → Except Panic ν'} {configs : HashMap String ν}

/-- A filter has been built under the name of its configuration. -/
def Named (build : ν → Except Panic ν') (config : HashMap.Entry String ν)
    (filter : HashMap.Entry FilterName ν') : Prop :=
  filter.1 = ⟨config.1⟩ ∧ build config.2 = .ok filter.2

/-- A map holds the filters built from a configuration, in some order. -/
def BuiltFrom (build : ν → Except Panic ν') (configs : HashMap String ν)
    (m : HashMap FilterName ν') : Prop :=
  ∃ filters, m.entries.Perm filters ∧ List.Forall₂ (Named build) configs.entries filters

theorem FilterNames.buildAll_ok {configs : List (HashMap.Entry String ν)}
    (h : ∀ config ∈ configs, ∃ filter, build config.2 = .ok filter) (names : FilterNames) :
    ∃ built, buildAll build names configs = .ok built := by
  induction configs generalizing names with
  | nil => exact ⟨_, rfl⟩
  | cons config configs ih =>
    rw [List.forall_mem_cons] at h
    obtain ⟨filter, hfilter⟩ := h.1
    obtain ⟨rest, hrest⟩ := ih h.2 (names.get config.1).2
    rw [buildAll, hfilter]
    simp only [Except.bind, bind, hrest]
    exact ⟨_, rfl⟩

theorem FilterNames.buildAll_named {configs : List (HashMap.Entry String ν)} {names : FilterNames}
    {built : List (HashMap.Entry FilterName ν') × FilterNames}
    (h : buildAll build names configs = .ok built) :
    List.Forall₂ (Named build) configs built.1 := by
  induction configs generalizing names built with
  | nil =>
    rw [← Except.ok.inj h]
    exact .nil
  | cons config configs ih =>
    obtain ⟨filter, hfilter, h⟩ := bind_eq_ok.mp h
    obtain ⟨rest, hrest, h⟩ := bind_eq_ok.mp h
    rw [← Except.ok.inj h]
    exact .cons ⟨names.get_name config.1, hfilter⟩ (ih hrest)

theorem named_keys {configs : List (HashMap.Entry String ν)}
    {filters : List (HashMap.Entry FilterName ν')}
    (h : List.Forall₂ (Named build) configs filters) :
    filters.keys = configs.keys.map FilterName.mk := by
  induction h with
  | nil => rfl
  | cons hnamed _ ih =>
    rw [List.keys_cons, List.keys_cons, List.map_cons, ih, hnamed.1]

/-- The constructor of a section builds the filters of its configuration. -/
theorem collect_built {names : FilterNames}
    {built : List (HashMap.Entry FilterName ν') × FilterNames}
    (h : FilterNames.buildAll build names configs.entries = .ok built) (state : RandomState)
    (seed : ℕ) : BuiltFrom build configs (HashMap.collect state seed built.1) := by
  have hall := FilterNames.buildAll_named h
  refine ⟨built.1, HashMap.collect_perm state seed ?_, hall⟩
  rw [List.NodupKeys, named_keys hall]
  exact configs.keys_nodup.map fun _ _ he => congrArg FilterName.name he

theorem acceptedNames_ok {accepts : ν' → Except Panic Bool} {q : ν' → Bool}
    {filters : List (HashMap.Entry FilterName ν')}
    (h : ∀ filter ∈ filters, accepts filter.2 = .ok (q filter.2)) :
    acceptedNames accepts filters =
      .ok ((filters.filter fun filter => q filter.2).map fun filter => filter.1.name) := by
  induction filters with
  | nil => rfl
  | cons filter filters ih =>
    rw [List.forall_mem_cons] at h
    rw [acceptedNames, h.1]
    simp only [Except.bind, bind, ih h.2, List.filter_cons]
    split <;> rfl

/-- A built map accepts under the names of the configured filters that match. -/
theorem acceptedNames_built {m : HashMap FilterName ν'} (hbuilt : BuiltFrom build configs m)
    (accepts : ν' → Except Panic Bool) (matched : ν → Prop)
    (h : ∀ config filter, config ∈ configs.values → build config = .ok filter →
      ∃ b, accepts filter = .ok b ∧ (b = true ↔ matched config)) :
    ∃ names, acceptedNames accepts m.entries = .ok names ∧ names.Nodup ∧
      ∀ name, name ∈ names ↔ ∃ config, configs.lookup name = some config ∧ matched config := by
  obtain ⟨filters, hperm, hall⟩ := hbuilt
  let q : ν' → Bool := fun filter => (accepts filter).toOption.getD false
  have hq : ∀ {filter b}, accepts filter = .ok b → q filter = b := by
    intro filter b hb
    simp only [q, hb, Except.toOption, Option.getD_some]
  have hmatch : ∀ config ∈ configs.entries, ∀ filter, Named build config filter →
      accepts filter.2 = .ok (q filter.2) ∧ (q filter.2 = true ↔ matched config.2) := by
    intro config hc filter hnamed
    obtain ⟨b, hb, hiff⟩ := h config.2 filter.2 (HashMap.mem_values.mpr ⟨config.1, hc⟩) hnamed.2
    rw [hq hb]
    exact ⟨hb, hiff⟩
  have hok : ∀ filter ∈ m.entries, accepts filter.2 = .ok (q filter.2) := by
    intro filter hf
    obtain ⟨config, hc, hnamed⟩ := exists_left hall (hperm.mem_iff.mp hf)
    exact (hmatch config hc filter hnamed).1
  refine ⟨_, acceptedNames_ok hok, ?_, fun name => ?_⟩
  · have hkeys : (m.entries.map fun filter => filter.1.name).Nodup := by
      have hmap : (m.entries.map fun filter => filter.1.name) = m.keys.map FilterName.name := by
        simp [AList.keys, List.keys]
      rw [hmap]
      exact m.keys_nodup.map fun a b he => by cases a; cases b; exact congrArg _ he
    exact hkeys.sublist (List.filter_sublist.map _)
  · rw [List.mem_map]
    constructor
    · rintro ⟨filter, hf, rfl⟩
      obtain ⟨hmem, hfilter⟩ := List.mem_filter.mp hf
      obtain ⟨config, hc, hnamed⟩ := exists_left hall (hperm.mem_iff.mp hmem)
      refine ⟨config.2, ?_, (hmatch config hc filter hnamed).2.mp hfilter⟩
      rw [hnamed.1]
      exact AList.mem_lookup_iff.mpr hc
    · rintro ⟨config, hl, hmatched⟩
      have hc : ⟨name, config⟩ ∈ configs.entries := AList.mem_lookup_iff.mp hl
      obtain ⟨filter, hf, hnamed⟩ := exists_right hall hc
      refine ⟨filter, List.mem_filter.mpr ⟨hperm.mem_iff.mpr hf, ?_⟩, by rw [hnamed.1]⟩
      exact (hmatch _ hc filter hnamed).2.mpr hmatched

end

/-- An update with the names of the matching filters is the answer for its kind. -/
theorem updateOf_answer {matching : String → Prop} {names : List String}
    (hnodup : names.Nodup) (hmem : ∀ name, name ∈ names ↔ matching name)
    (filteredUpdate : FilteredUpdateType) :
    Answer matching (updateOf names filteredUpdate).toList := by
  by_cases hnil : names = []
  · subst hnil
    refine ⟨fun _ => rfl, ?_⟩
    rintro ⟨name, hname⟩
    exact absurd ((hmem name).mpr hname) List.not_mem_nil
  · rw [updateOf, if_neg hnil]
    refine ⟨fun hnone => ?_, fun _ => ⟨_, rfl, hnodup, hmem⟩⟩
    obtain ⟨name, hname⟩ := List.exists_mem_of_ne_nil names hnil
    exact absurd ⟨name, (hmem name).mp hname⟩ hnone

-- ════════════════════════════════════════════════════════════════════════
-- Evaluating
-- ════════════════════════════════════════════════════════════════════════

theorem FilterSlotsInner.accepts_iff {filter : ConfigFilterSlots} {message : MessageSlot}
    {commitment : Richat.CommitmentLevel} :
    (FilterSlotsInner.new filter).accepts message commitment = true ↔
      SlotMatches filter message commitment := by
  cases filter with
  | mk flag =>
    cases flag with
    | none => simp [FilterSlotsInner.new, accepts, SlotMatches]
    | some flag =>
      cases flag <;> cases commitment <;>
        simp [FilterSlotsInner.new, accepts, SlotMatches, levelOf]

/-- A set is unrestricted or holds a key. -/
theorem not_restricted {keys : List Pubkey} {key : Pubkey} :
    ¬(keys.toFinset ≠ ∅ ∧ key ∉ keys.toFinset) ↔ keys = [] ∨ key ∈ keys := by
  simp only [not_and_or, not_not, List.toFinset_eq_empty_iff, List.mem_toFinset]

theorem option_agrees {α : Type} {o : Option α} {value : α} :
    ¬(∃ expected ∈ o, expected ≠ value) ↔ o = none ∨ o = some value := by
  cases o with
  | none => simp
  | some expected => simp

/-- An early return refuses. -/
theorem refuse_iff {c : Prop} [Decidable c] {b : Bool} :
    (if c then false else b) = true ↔ ¬c ∧ b = true := by
  split
  · rename_i hc
    exact iff_of_false Bool.false_ne_true fun h => h.1 hc
  · rename_i hc
    exact ⟨fun hb => ⟨hc, hb⟩, And.right⟩

theorem FilterTransactionsInner.accepts_iff {filter : ConfigFilterTransactions}
    {message : MessageTransaction} (hkeyed : Keyed message) :
    (FilterTransactionsInner.new filter).accepts message = true ↔
      TransactionMatches filter message := by
  have hinclude : ¬(filter.accountInclude.toFinset ≠ ∅ ∧
      filter.accountInclude.toFinset ∩ message.accountKeys = ∅) ↔ filter.accountInclude = [] ∨
        ∃ key ∈ filter.accountInclude, key.toList ∈ transactionKeys message.transaction := by
    rw [not_and_or, not_not, List.toFinset_eq_empty_iff, ← ne_eq, ← Finset.nonempty_iff_ne_empty]
    simp only [Finset.Nonempty, Finset.mem_inter, List.mem_toFinset, hkeyed _]
  have hexclude : ¬(filter.accountExclude.toFinset ≠ ∅ ∧
      filter.accountExclude.toFinset ∩ message.accountKeys ≠ ∅) ↔
        ∀ key ∈ filter.accountExclude, key.toList ∉ transactionKeys message.transaction := by
    constructor
    · intro h key hkey hmem
      refine h ⟨?_, ?_⟩
      · exact Finset.ne_empty_of_mem (List.mem_toFinset.mpr hkey)
      · exact Finset.ne_empty_of_mem
          (Finset.mem_inter.mpr ⟨List.mem_toFinset.mpr hkey, (hkeyed key).mpr hmem⟩)
    · rintro h ⟨-, hne⟩
      obtain ⟨key, hkey⟩ := Finset.nonempty_iff_ne_empty.mpr hne
      obtain ⟨hmem, hkeys⟩ := Finset.mem_inter.mp hkey
      exact h key (List.mem_toFinset.mp hmem) ((hkeyed key).mp hkeys)
  have hrequired : ¬(filter.accountRequired.toFinset ≠ ∅ ∧
      ¬filter.accountRequired.toFinset ⊆ message.accountKeys) ↔
        ∀ key ∈ filter.accountRequired, key.toList ∈ transactionKeys message.transaction := by
    constructor
    · intro h key hkey
      have hne : filter.accountRequired.toFinset ≠ ∅ :=
        Finset.ne_empty_of_mem (List.mem_toFinset.mpr hkey)
      have hsub := not_not.mp fun hn => h ⟨hne, hn⟩
      exact (hkeyed key).mp (hsub (List.mem_toFinset.mpr hkey))
    · rintro h ⟨-, hsub⟩
      exact hsub fun key hkey => (hkeyed key).mpr (h key (List.mem_toFinset.mp hkey))
  rw [accepts, refuse_iff, refuse_iff, refuse_iff, refuse_iff, refuse_iff, refuse_iff,
    option_agrees, option_agrees, option_agrees]
  simp only [FilterTransactionsInner.new, hinclude, hexclude, hrequired]
  constructor
  · rintro ⟨hvote, hfailed, hsignature, hinc, hexc, hreq, -⟩
    exact ⟨hvote, hfailed, hsignature, hinc, hexc, hreq⟩
  · intro h
    exact ⟨h.vote, h.failed, h.signature, h.accountInclude, h.accountExclude, h.accountRequired,
      trivial⟩

end Dragonmouth.Filters
