import Dragonmouth.Richat.BlockAssembly

/-!
# The accounts of a block

Of the updates of an account a slot is to keep the one with the greatest write
version. A newer update takes the place of the one kept. An update that is not
newer is stored as well, and nothing takes its place later: the accounts are
listed once, each with its final state, exactly if the updates of each have come
in ascending order.

## Main definitions

- `SlotInfo.survivors`: the account messages a slot yields
- `Final`: each account is listed once, with its final state
- `Ascending`: the updates of each account come in order
- `SlotInfo.Tracked`: what the dedup map knows of the accounts received
-/

namespace Dragonmouth.Richat

open ParsedMessage

def accountsOf (received : List ParsedMessage) : List MessageAccount :=
  received.filterMap getAccount

/-- What has been given up to the message that has made the block due. -/
def UpToBlock (received before : List ParsedMessage) : Prop :=
  before <+: received ∧ Unfinished before ∧ (CompleteOf before ∨ before = received)

/-- The updates of each account come in order of their write versions. -/
def Ascending (accounts : List MessageAccount) : Prop :=
  accounts.Pairwise fun account later =>
    account.pubkey = later.pubkey → account.writeVersion < later.writeVersion

/-- Each of the accounts is listed once, with its greatest write version. -/
structure Final (accounts listed : List MessageAccount) : Prop where
  once : (listed.map MessageAccount.pubkey).Nodup
  received : ∀ account ∈ listed, account ∈ accounts
  greatest : ∀ account ∈ listed, ∀ other ∈ accounts, other.pubkey = account.pubkey →
    other.writeVersion ≤ account.writeVersion
  listed : ∀ account ∈ accounts, ∃ final ∈ listed, final.pubkey = account.pubkey

theorem accountsOf_append (received : List ParsedMessage) (message : ParsedMessage) :
    accountsOf (received ++ [message]) = accountsOf received ++ (getAccount message).toList :=
  filterMap_append_one ..

theorem accountsOf_append_other (received : List ParsedMessage) {message : ParsedMessage}
    (hmessage : getAccount message = none) :
    accountsOf (received ++ [message]) = accountsOf received := by
  rw [accountsOf_append, hmessage]
  exact List.append_nil _

theorem ascending_append {accounts : List MessageAccount} {account : MessageAccount} :
    Ascending (accounts ++ [account]) ↔ Ascending accounts ∧
      ∀ other ∈ accounts, other.pubkey = account.pubkey →
        other.writeVersion < account.writeVersion := by
  simp [Ascending, List.pairwise_append]

namespace SlotInfo

/-- The account messages that have not been blanked. -/
def survivors (info : SlotInfo) : List MessageAccount := info.getMessages.filterMap getAccount

/-- An account message is in a cell. -/
def Holds (info : SlotInfo) (idx : ℕ) (account : MessageAccount) : Prop :=
  info.messages[idx]? = some (some (.account account))

variable {info info' : SlotInfo} {message : ParsedMessage} {account other : MessageAccount}
  {accounts : List MessageAccount} {received before : List ParsedMessage} {idx : ℕ}

-- ════════════════════════════════════════════════════════════════════════
-- Cells and survivors
-- ════════════════════════════════════════════════════════════════════════

theorem Holds.lt (h : info.Holds idx account) : idx < info.messages.length :=
  (List.getElem?_eq_some_iff.mp h).1

theorem Holds.eq (h : info.Holds idx account) (h' : info.Holds idx other) : account = other := by
  have heq : some (some (ParsedMessage.account account)) = some (some (.account other)) :=
    h.symm.trans h'
  cases heq
  rfl

theorem holds_iff : info.Holds idx account ↔
    ∃ h : idx < info.messages.length, info.messages[idx].bind getAccount = some account := by
  rw [Holds, List.getElem?_eq_some_iff]
  refine exists_congr fun h => ?_
  cases info.messages[idx] with
  | none => simp
  | some message => cases message <;> simp [getAccount]

theorem holds_append : (info.append message).Holds idx account ↔
    idx = info.messages.length ∧ message = .account account ∨ info.Holds idx account := by
  simp only [Holds, SlotInfo.append]
  obtain hlt | rfl | hgt := lt_trichotomy idx info.messages.length
  · rw [List.getElem?_append_left hlt]
    exact ⟨.inr, fun h => h.resolve_left fun h' => by omega⟩
  · simp
  · have hnone : info.messages[idx]? = none := List.getElem?_eq_none (by omega)
    have hnone' : (info.messages ++ [some message])[idx]? = none :=
      List.getElem?_eq_none (by simp only [List.length_append, List.length_singleton]; omega)
    rw [hnone, hnone']
    refine ⟨fun h => (by cases h), fun h => h.elim (fun h' => ?_) fun h' => by cases h'⟩
    omega

theorem mem_survivors : account ∈ info.survivors ↔ ∃ idx, info.Holds idx account := by
  simp only [survivors, getMessages, List.mem_filterMap, List.reduceOption_mem_iff]
  constructor
  · rintro ⟨message, hmem, haccount⟩
    obtain ⟨idx, hidx⟩ := List.mem_iff_getElem?.mp hmem
    cases message <;> cases haccount
    exact ⟨idx, hidx⟩
  · rintro ⟨idx, hidx⟩
    exact ⟨.account account, List.mem_iff_getElem?.mpr ⟨idx, hidx⟩, rfl⟩

/-- No account survives twice if no two cells hold one. -/
theorem nodup_survivors : (info.survivors.map MessageAccount.pubkey).Nodup ↔
    ∀ idx idx' account account', info.Holds idx account → info.Holds idx' account' →
      account.pubkey = account'.pubkey → idx = idx' := by
  rw [survivors, getMessages, ← filterMap_bind, List.nodup_iff_pairwise_ne, List.pairwise_map,
    List.pairwise_filterMap, List.pairwise_iff_getElem]
  constructor
  · intro h idx idx' account account' hholds hholds' hkey
    obtain ⟨hlt, hcell⟩ := holds_iff.mp hholds
    obtain ⟨hlt', hcell'⟩ := holds_iff.mp hholds'
    obtain hidx | heq | hidx := lt_trichotomy idx idx'
    · exact absurd hkey (h idx idx' hlt hlt' hidx account hcell account' hcell')
    · exact heq
    · exact absurd hkey.symm (h idx' idx hlt' hlt hidx account' hcell' account hcell)
  · intro h idx idx' hlt hlt' hidx account hcell account' hcell' hkey
    have heq := h idx idx' account account' (holds_iff.mpr ⟨hlt, hcell⟩)
      (holds_iff.mpr ⟨hlt', hcell'⟩) hkey
    omega

-- ════════════════════════════════════════════════════════════════════════
-- What the dedup map knows
-- ════════════════════════════════════════════════════════════════════════

/-- What storing an account does to the cells. -/
inductive AccountStored (info : SlotInfo) (account : MessageAccount) (info' : SlotInfo) : Prop where
  /-- It is newer than the update pointed to, which is blanked. -/
  | newest
      (hnewer : ∀ version idx, info.accountsDedup.lookup account.pubkey = some (version, idx) →
        version < account.writeVersion)
      (hdedup : info'.accountsDedup = info.accountsDedup.insert account.pubkey
        (account.writeVersion, info.messages.length))
      (hholds : ∀ idx other, info'.Holds idx other ↔
        idx = info.messages.length ∧ other = account ∨ info.Holds idx other ∧
          ∀ version, info.accountsDedup.lookup account.pubkey ≠ some (version, idx))
  /-- It is not newer than the update pointed to, and nothing is blanked. -/
  | older {version idx : ℕ}
      (hlookup : info.accountsDedup.lookup account.pubkey = some (version, idx))
      (hle : account.writeVersion ≤ version) (hdedup : info'.accountsDedup = info.accountsDedup)
      (hholds : ∀ idx other, info'.Holds idx other ↔
        idx = info.messages.length ∧ other = account ∨ info.Holds idx other)

theorem holds_append_account : (info.append (.account account)).Holds idx other ↔
    idx = info.messages.length ∧ other = account ∨ info.Holds idx other := by
  rw [holds_append, ParsedMessage.account.injEq, eq_comm (a := account)]

theorem getElem?_set_none {messages : List (Option ParsedMessage)} {idx idx' : ℕ} :
    (messages.set idx none)[idx']? = some (some message) ↔
      messages[idx']? = some (some message) ∧ idx ≠ idx' := by
  rw [List.getElem?_set]
  by_cases heq : idx = idx'
  · subst heq
    rw [if_pos rfl]
    split
    · simp
    · simp
  · rw [if_neg heq]
    exact ⟨fun h => ⟨h, heq⟩, fun h => h.1⟩

theorem storeAccount_stored (hdeduped : info.Deduped)
    (hok : info.storeAccount account = .ok info') : AccountStored info account info' := by
  obtain ⟨hlookup, rfl⟩ | ⟨version, idx, hlookup, ⟨hlt, rfl⟩ | ⟨hle, rfl⟩⟩ := storeAccount_cases hok
  · refine .newest (fun version idx h => by simp [hlookup] at h) rfl fun idx other => ?_
    refine holds_append_account.trans (or_congr_right ?_)
    simp [hlookup]
  · refine .newest (fun version' idx' h => ?_) rfl fun idx' other => ?_
    · rw [hlookup] at h
      cases h
      exact hlt
    · obtain ⟨old, hold, -⟩ := hdeduped _ _ _ hlookup
      have hrange : idx < info.messages.length := Holds.lt hold
      have hpointed : (∀ version', info.accountsDedup.lookup account.pubkey ≠
          some (version', idx')) ↔ idx ≠ idx' := by
        rw [hlookup]
        simp
      rw [hpointed]
      refine getElem?_set_none.trans ((and_congr_left' holds_append_account).trans ?_)
      constructor
      · rintro ⟨hnew | hholds, hne⟩
        · exact .inl hnew
        · exact .inr ⟨hholds, hne⟩
      · rintro (⟨rfl, rfl⟩ | ⟨hholds, hne⟩)
        · exact ⟨.inl ⟨rfl, rfl⟩, hrange.ne⟩
        · exact ⟨.inr hholds, hne⟩
  · exact .older hlookup hle rfl fun idx' other => holds_append_account

/-- The dedup map points at an update of each account, the newest; and an update it does
not point at is left exactly if the updates of its account have not come in order. -/
structure Tracked (accounts : List MessageAccount) (info : SlotInfo) : Prop where
  held : ∀ idx account, info.Holds idx account → account ∈ accounts
  known : ∀ account ∈ accounts, ∃ version idx,
    info.accountsDedup.lookup account.pubkey = some (version, idx) ∧
      account.writeVersion ≤ version
  pointed : ∀ pubkey version idx, info.accountsDedup.lookup pubkey = some (version, idx) →
    ∃ account, info.Holds idx account ∧ account.pubkey = pubkey ∧ account.writeVersion = version
  ordered : Ascending accounts ↔ ∀ idx account, info.Holds idx account →
    ∃ version, info.accountsDedup.lookup account.pubkey = some (version, idx)

theorem Tracked.new (slot : Slot) : Tracked [] (new slot) where
  held := fun idx account h => by simp [Holds, SlotInfo.new] at h
  known := fun account h => by cases h
  pointed := fun pubkey version idx h => by simp [SlotInfo.new] at h
  ordered := ⟨fun _ idx account h => by simp [Holds, SlotInfo.new] at h, fun _ => .nil⟩

theorem Tracked.deduped (h : Tracked accounts info) : info.Deduped := by
  intro pubkey version idx hlookup
  obtain ⟨account, hholds, hkey, -⟩ := h.pointed pubkey version idx hlookup
  exact ⟨account, hholds, hkey⟩

/-- Only the accounts in the cells and the dedup map matter. -/
theorem Tracked.congr (h : Tracked accounts info)
    (hdedup : info'.accountsDedup = info.accountsDedup)
    (hholds : ∀ idx account, info'.Holds idx account ↔ info.Holds idx account) :
    Tracked accounts info' := by
  refine ⟨?_, ?_, ?_, ?_⟩
  · intro idx account hheld
    exact h.held idx account ((hholds idx account).mp hheld)
  · rw [hdedup]
    exact h.known
  · intro pubkey version idx hlookup
    rw [hdedup] at hlookup
    obtain ⟨account, hheld, hkey⟩ := h.pointed pubkey version idx hlookup
    exact ⟨account, (hholds idx account).mpr hheld, hkey⟩
  · simp only [h.ordered, hholds, hdedup]

theorem Tracked.landed (h : Tracked accounts info) (landed : Bool) :
    Tracked accounts { info with landed := landed } :=
  h.congr rfl fun _ _ => Iff.rfl

theorem Tracked.append (h : Tracked accounts info) (message : ParsedMessage)
    (hmessage : getAccount message = none) : Tracked accounts (info.append message) := by
  refine h.congr rfl fun idx account => holds_append.trans (or_iff_right ?_)
  rintro ⟨-, rfl⟩
  cases hmessage

section Newest

variable (h : Tracked accounts info)
  (hnewer : ∀ version idx, info.accountsDedup.lookup account.pubkey = some (version, idx) →
    version < account.writeVersion)
  (hdedup : info'.accountsDedup = info.accountsDedup.insert account.pubkey
    (account.writeVersion, info.messages.length))
  (hholds : ∀ idx other, info'.Holds idx other ↔
    idx = info.messages.length ∧ other = account ∨ info.Holds idx other ∧
      ∀ version, info.accountsDedup.lookup account.pubkey ≠ some (version, idx))

include hdedup

theorem lookup_newest (pubkey : Pubkey) : info'.accountsDedup.lookup pubkey =
    if pubkey = account.pubkey then some (account.writeVersion, info.messages.length)
    else info.accountsDedup.lookup pubkey := by
  rw [hdedup, Finmap.lookup_insert_eq]

include h hnewer

theorem Tracked.known_newest : ∀ other ∈ accounts ++ [account], ∃ version idx,
    info'.accountsDedup.lookup other.pubkey = some (version, idx) ∧
      other.writeVersion ≤ version := by
  intro other hmem
  rw [lookup_newest hdedup]
  by_cases hkey : other.pubkey = account.pubkey
  · refine ⟨account.writeVersion, info.messages.length, if_pos hkey, ?_⟩
    obtain hmem | hmem := List.mem_append.mp hmem
    · obtain ⟨version, idx, hl, hle⟩ := h.known other hmem
      exact hle.trans (hnewer version idx (hkey ▸ hl)).le
    · rw [List.mem_singleton.mp hmem]
  · rw [if_neg hkey]
    obtain hmem | hmem := List.mem_append.mp hmem
    · exact h.known other hmem
    · exact absurd (congrArg MessageAccount.pubkey (List.mem_singleton.mp hmem)) hkey

include hholds

/-- A cell that is not pointed to before is not pointed to after. -/
theorem Tracked.ordered_newest : Ascending (accounts ++ [account]) ↔
    ∀ idx other, info'.Holds idx other →
      ∃ version, info'.accountsDedup.lookup other.pubkey = some (version, idx) := by
  rw [ascending_append, h.ordered]
  constructor
  · rintro ⟨hpointed, -⟩ idx other hheld
    rw [lookup_newest hdedup]
    obtain ⟨rfl, rfl⟩ | ⟨hheld, hne⟩ := (hholds idx other).mp hheld
    · exact ⟨_, if_pos rfl⟩
    · obtain ⟨version, hl⟩ := hpointed idx other hheld
      by_cases hkey : other.pubkey = account.pubkey
      · exact absurd (hkey ▸ hl) (hne version)
      · exact ⟨version, (if_neg hkey).trans hl⟩
  · intro hpointed
    refine ⟨?_, ?_⟩
    · intro idx other hheld
      by_cases hblanked : ∃ version,
          info.accountsDedup.lookup account.pubkey = some (version, idx)
      · obtain ⟨version, hl⟩ := hblanked
        obtain ⟨other', hheld', hother', -⟩ := h.pointed _ _ _ hl
        rw [hheld.eq hheld', hother']
        exact ⟨version, hl⟩
      · obtain ⟨version, hl⟩ := hpointed idx other
          ((hholds idx other).mpr (.inr ⟨hheld, fun version hl => hblanked ⟨version, hl⟩⟩))
        rw [lookup_newest hdedup] at hl
        split at hl
        · cases hl
          exact absurd hheld.lt (lt_irrefl _)
        · exact ⟨version, hl⟩
    · intro other hmem hkey
      obtain ⟨version, idx, hl, hle⟩ := h.known other hmem
      exact hle.trans_lt (hnewer version idx (hkey ▸ hl))

/-- An update that is newer than those before. -/
theorem Tracked.newest : Tracked (accounts ++ [account]) info' := by
  refine ⟨?_, h.known_newest hnewer hdedup, ?_, h.ordered_newest hnewer hdedup hholds⟩
  · intro idx other hheld
    obtain ⟨-, rfl⟩ | ⟨hheld, -⟩ := (hholds idx other).mp hheld
    · simp
    · exact List.mem_append_left _ (h.held idx other hheld)
  · intro pubkey version idx hl
    rw [lookup_newest hdedup] at hl
    split at hl
    · rename_i hkey
      cases hl
      exact ⟨account, (hholds _ _).mpr (.inl ⟨rfl, rfl⟩), hkey.symm, rfl⟩
    · rename_i hkey
      obtain ⟨other, hheld, hother, hversion⟩ := h.pointed pubkey version idx hl
      refine ⟨other, (hholds _ _).mpr (.inr ⟨hheld, fun version' hl' => hkey ?_⟩), hother, hversion⟩
      -- the cells of different accounts differ
      obtain ⟨other', hheld', hother', -⟩ := h.pointed _ _ _ hl'
      rw [← hother, hheld.eq hheld', hother']

end Newest

/-- An update that is not newer stays for good. -/
theorem Tracked.older {version : ℕ} (h : Tracked accounts info)
    (hlookup : info.accountsDedup.lookup account.pubkey = some (version, idx))
    (hle : account.writeVersion ≤ version) (hdedup : info'.accountsDedup = info.accountsDedup)
    (hholds : ∀ idx other, info'.Holds idx other ↔
      idx = info.messages.length ∧ other = account ∨ info.Holds idx other) :
    Tracked (accounts ++ [account]) info' := by
  obtain ⟨newest, hnewest, hkey, hversion⟩ := h.pointed _ _ _ hlookup
  refine ⟨?_, ?_, ?_, ?_⟩
  · intro idx other hheld
    obtain ⟨-, rfl⟩ | hheld := (hholds idx other).mp hheld
    · simp
    · exact List.mem_append_left _ (h.held idx other hheld)
  · intro other hmem
    rw [hdedup]
    obtain hmem | hmem := List.mem_append.mp hmem
    · exact h.known other hmem
    · rw [List.mem_singleton.mp hmem]
      exact ⟨version, idx, hlookup, hle⟩
  · intro pubkey version idx hl
    rw [hdedup] at hl
    obtain ⟨other, hheld, hother⟩ := h.pointed pubkey version idx hl
    exact ⟨other, (hholds _ _).mpr (.inr hheld), hother⟩
  · -- neither side holds: the update comes late, and no entry points at it
    constructor
    · intro hascending
      have hlt := (ascending_append.mp hascending).2 newest (h.held _ _ hnewest) hkey
      omega
    · intro hpointed
      obtain ⟨version', hl⟩ := hpointed _ account ((hholds _ _).mpr (.inl ⟨rfl, rfl⟩))
      rw [hdedup, hlookup] at hl
      cases hl
      exact absurd hnewest.lt (lt_irrefl _)

theorem Tracked.storeAccount (h : Tracked accounts info)
    (hok : info.storeAccount account = .ok info') : Tracked (accounts ++ [account]) info' := by
  cases storeAccount_stored h.deduped hok with
  | newest hnewer hdedup hholds => exact h.newest hnewer hdedup hholds
  | older hlookup hle hdedup hholds => exact h.older hlookup hle hdedup hholds

theorem Tracked.store (h : Tracked (accountsOf received) info)
    (hok : info.store message = .ok info') :
    Tracked (accountsOf (received ++ [message])) info' := by
  cases message with
  | account account =>
    rw [accountsOf_append]
    exact h.storeAccount hok
  | slot slot =>
    cases hok
    rw [accountsOf_append_other _ rfl]
    exact h
  | transaction tx =>
    cases hok
    rw [accountsOf_append_other _ rfl]
    exact (h.append (.transaction tx) rfl).congr rfl fun _ _ => Iff.rfl
  | entry entry =>
    cases hok
    rw [accountsOf_append_other _ rfl]
    exact (h.append (.entry entry) rfl).congr rfl fun _ _ => Iff.rfl
  | blockMeta blockMeta =>
    cases hok
    rw [accountsOf_append_other _ rfl]
    exact (h.append (.blockMeta blockMeta) rfl).congr rfl fun _ _ => Iff.rfl
  | block block => cases hok

/-- What survives is final exactly if the updates of each account have come in order. -/
theorem Tracked.final_iff (h : Tracked accounts info) :
    Final accounts info.survivors ↔ Ascending accounts := by
  rw [h.ordered]
  constructor
  · intro hfinal idx account hheld
    obtain ⟨version, idx', hlookup, -⟩ := h.known account (h.held idx account hheld)
    obtain ⟨other, hother, hkey, -⟩ := h.pointed _ _ _ hlookup
    rw [nodup_survivors.mp hfinal.once idx idx' account other hheld hother hkey.symm]
    exact ⟨version, hlookup⟩
  · intro hpointed
    refine ⟨nodup_survivors.mpr ?_, ?_, ?_, ?_⟩
    · intro idx idx' account account' hheld hheld' hkey
      obtain ⟨version, hlookup⟩ := hpointed idx account hheld
      obtain ⟨version', hlookup'⟩ := hpointed idx' account' hheld'
      rw [hkey, hlookup'] at hlookup
      cases hlookup
      rfl
    · intro account hmem
      obtain ⟨idx, hheld⟩ := mem_survivors.mp hmem
      exact h.held idx account hheld
    · intro account hmem other hother hkey
      obtain ⟨idx, hheld⟩ := mem_survivors.mp hmem
      obtain ⟨version, hlookup⟩ := hpointed idx account hheld
      obtain ⟨version', idx', hlookup', hle⟩ := h.known other hother
      obtain ⟨account', hheld', -, hversion⟩ := h.pointed _ _ _ hlookup
      rw [hkey, hlookup] at hlookup'
      cases hlookup'
      rwa [hheld.eq hheld', hversion]
    · intro account hmem
      obtain ⟨version, idx, hlookup, -⟩ := h.known account hmem
      obtain ⟨final, hheld, hkey, -⟩ := h.pointed _ _ _ hlookup
      exact ⟨final, mem_survivors.mpr ⟨idx, hheld⟩, hkey⟩

end SlotInfo

-- ════════════════════════════════════════════════════════════════════════
-- Every run of a slot
-- ════════════════════════════════════════════════════════════════════════

section

variable {slot : Slot} {received before : List ParsedMessage} {info : SlotInfo}

/-- Before the block is due, all of what has been given counts. -/
theorem UpToBlock.eq {message : ParsedMessage} (h : UpToBlock (received ++ [message]) before)
    (hincomplete : ∀ before, before <+: received → ¬CompleteOf before) :
    before = received ++ [message] := by
  obtain ⟨hbefore, -, hcomplete | heq⟩ := h
  · obtain heq | hbefore := List.prefix_concat_iff.mp hbefore
    · exact heq
    · exact absurd hcomplete (hincomplete before hbefore)
  · exact heq

/-- After the block was due, nothing more counts. -/
theorem UpToBlock.of_due {due : List ParsedMessage} {message : ParsedMessage}
    (h : UpToBlock (received ++ [message]) before) (hdue : due <+: received)
    (hfirst : FirstComplete due) : UpToBlock received before := by
  obtain ⟨hbefore, hunfinished, hcomplete⟩ := h
  have hne : before ≠ received ++ [message] := by
    rintro rfl
    exact unfinished_append.mp hunfinished due hdue hfirst.1
  exact ⟨(List.prefix_concat_iff.mp hbefore).resolve_left hne, hunfinished,
    .inl (hcomplete.resolve_right hne)⟩

theorem UpToBlock.all (hincomplete : ∀ before, before <+: received → ¬CompleteOf before) :
    UpToBlock received received :=
  ⟨List.prefix_rfl, fun before hbefore _ => hincomplete before hbefore, .inr rfl⟩

theorem Given.tracked (given : Given slot received info) (h : UpToBlock received before) :
    info.Tracked (accountsOf before) := by
  induction given generalizing before with
  | new =>
    rw [List.prefix_nil.mp h.1]
    exact .new slot
  | message given _ hok ih =>
    cases SlotInfo.getBlockMessage_outcome hok with
    | extra hcreated =>
      obtain ⟨due, block, hdue, hfirst, -⟩ := given.progress.due hcreated
      exact (ih (h.of_due hdue hfirst)).congr rfl fun _ _ => Iff.rfl
    | stored hopen hstore =>
      obtain ⟨-, hincomplete⟩ := given.progress.open hopen
      rw [h.eq hincomplete]
      exact ((ih (.all hincomplete)).landed _).store hstore
    | created hopen hstore =>
      obtain ⟨-, hincomplete⟩ := given.progress.open hopen
      rw [h.eq hincomplete]
      exact ((((ih (.all hincomplete)).landed _).store hstore).append _ rfl).congr rfl
        fun _ _ => Iff.rfl

theorem Given.noBlock (given : Given slot received info) :
    ∀ message ∈ received, message.NoBlock := by
  induction given with
  | new => simp
  | message _ hblock _ ih =>
    intro message hmem
    obtain hmem | hmem := List.mem_append.mp hmem
    · exact ih message hmem
    · rwa [List.mem_singleton.mp hmem]

/-- The cells of the messages received hold no block. -/
theorem Given.not_mem_cells {cells : List (Option ParsedMessage)} {block : MessageBlock}
    (given : Given slot received info) (hbefore : before <+: received)
    (h : List.Forall₂ Kept (storedOf before) cells) : .block block ∉ cells.reduceOption := by
  intro hmem
  have hstored := (List.mem_filter.mp (kept_mem h hmem)).1
  exact given.noBlock _ (hbefore.subset hstored) block rfl

/-- A block has the accounts that survive. -/
theorem Given.block_accounts {block : MessageBlock} (given : Given slot received info)
    (hmem : .block block ∈ info.getMessages) : block.accounts = info.survivors := by
  cases given.progress with
  | collecting hcollected =>
    exact absurd hmem (given.not_mem_cells List.prefix_rfl hcollected.cells)
  | assembled _ _ hbefore _ hassembled =>
    obtain ⟨cells, hcells, -, haccounts, -, hmessages⟩ := hassembled.messages
    rw [hmessages] at hmem
    obtain hmem | hmem := List.mem_append.mp hmem
    · exact absurd hmem (given.not_mem_cells hbefore hcells)
    · cases List.mem_singleton.mp hmem
      rw [haccounts, SlotInfo.survivors, hmessages, filterMap_append_one]
      exact (List.append_nil _).symm

/-- The accounts that survive, those of the block included, are final exactly if the
updates of each account have come in ascending order. -/
theorem survivors_final_iff (given : Given slot received info) (h : UpToBlock received before) :
    (Final (accountsOf before) info.survivors ∧
      ∀ block, .block block ∈ info.getMessages → Final (accountsOf before) block.accounts) ↔
    Ascending (accountsOf before) := by
  rw [← (given.tracked h).final_iff]
  constructor
  · exact And.left
  · intro hfinal
    refine ⟨hfinal, fun block hmem => ?_⟩
    rwa [given.block_accounts hmem]

/-- The second update takes the place of the first. -/
theorem survivors_final_iff_newer : ∃ info : SlotInfo,
    Final (accountsOf [updateOf 1, updateOf 2]) info.survivors := by
  have given : Given 5 [updateOf 1, updateOf 2] _ :=
    .message (.message .new (fun block hblock => by cases hblock) rfl)
      (fun block hblock => by cases hblock) rfl
  have hall : UpToBlock [updateOf 1, updateOf 2] [updateOf 1, updateOf 2] :=
    .all (given.progress.open rfl).2
  refine ⟨_, ((survivors_final_iff given hall).mpr ?_).1⟩
  simp [Ascending, accountsOf, updateOf, getAccount, MessageAccount.writeVersion]

/-- An update that comes after a newer one survives beside it. -/
theorem stale_update_survives : ¬∀ (slot : Slot) (received before : List ParsedMessage)
    (info : SlotInfo), Given slot received info → UpToBlock received before →
    Final (accountsOf before) info.survivors ∧
      ∀ block, .block block ∈ info.getMessages → Final (accountsOf before) block.accounts := by
  intro hall
  have given : Given 5 [updateOf 2, updateOf 1] _ :=
    .message (.message .new (fun block hblock => by cases hblock) rfl)
      (fun block hblock => by cases hblock) rfl
  have hbefore : UpToBlock [updateOf 2, updateOf 1] [updateOf 2, updateOf 1] :=
    .all (given.progress.open rfl).2
  have honce := (hall 5 _ _ _ given hbefore).1.once
  revert honce
  decide +kernel

end

end Dragonmouth.Richat
