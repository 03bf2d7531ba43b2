import Mathlib.Data.List.Forall2
import Dragonmouth.Richat.SlotInfo

/-!
# Assembling the block of a slot

A slot is given messages in any order. Its block is returned once, at the first
message after which the counts agree with the block meta received last, and it
holds what has been received up to then; afterwards the messages of the slot do
not change.

## Main definitions

- `Given`: a slot after the messages it has been given
- `FirstComplete`: the moment at which the block is due
- `Superseded`: the accounts that are blanked
- `Assembled`: the block and the messages of the slot from then on
-/

namespace Dragonmouth.Richat

-- ════════════════════════════════════════════════════════════════════════
-- What has been received
-- ════════════════════════════════════════════════════════════════════════

namespace ParsedMessage

def getBlockMeta : ParsedMessage → Option MessageBlockMeta
  | .blockMeta msg => some msg
  | _ => none

/-- The source sends no blocks. -/
def NoBlock (message : ParsedMessage) : Prop := ∀ block, message ≠ .block block

end ParsedMessage

open ParsedMessage

/-- Slot updates are not stored. -/
def storedOf (received : List ParsedMessage) : List ParsedMessage :=
  received.filter fun message => !message matches .slot _

def transactionsOf (received : List ParsedMessage) : List MessageTransaction :=
  received.filterMap getTransaction

def entriesOf (received : List ParsedMessage) : List MessageEntry := received.filterMap getEntry

def latestBlockMeta (received : List ParsedMessage) : Option MessageBlockMeta :=
  (received.filterMap getBlockMeta).getLast?

/-- A block meta has been received, and the transactions and entries received are as
many as the latest one says. -/
def CompleteOf (received : List ParsedMessage) : Prop :=
  ∃ blockMeta, latestBlockMeta received = some blockMeta ∧
    blockMeta.executedTransactionCount = (transactionsOf received).length ∧
    blockMeta.entriesCount = (entriesOf received).length

/-- No message before the last one has completed the block. -/
def Unfinished (received : List ParsedMessage) : Prop :=
  ∀ before, before <+: received → before ≠ received → ¬CompleteOf before

/-- The last message is the first after which the block is complete. -/
def FirstComplete (received : List ParsedMessage) : Prop :=
  CompleteOf received ∧ Unfinished received

/-- A cell holds the message stored in it, unless it was an account and has been
blanked. -/
def Kept (message : ParsedMessage) (cell : Option ParsedMessage) : Prop :=
  cell = some message ∨ cell = none ∧ ∃ account, message = .account account

/-- The account in a cell is newer than every update of it before. -/
def NewestYet (stored : List ParsedMessage) (idx : ℕ) (account : MessageAccount) : Prop :=
  stored[idx]? = some (.account account) ∧ ∀ other : MessageAccount,
    .account other ∈ stored.take idx → other.pubkey = account.pubkey →
      other.writeVersion < account.writeVersion

/-- There is a newer update of the account. -/
def HasNewer (stored : List ParsedMessage) (account : MessageAccount) : Prop :=
  ∃ other : MessageAccount, .account other ∈ stored ∧ other.pubkey = account.pubkey ∧
    account.writeVersion < other.writeVersion

/-- The cell holds an account that was the newest when it came, and no longer is. -/
def Superseded (stored : List ParsedMessage) (idx : ℕ) : Prop :=
  ∃ account, NewestYet stored idx account ∧ HasNewer stored account

/-- The block of the messages received, and the messages of the slot that has it: the
stored ones, not blanked, in the order of their arrival, and the block. -/
structure Assembled (received : List ParsedMessage) (block : MessageBlock) (info : SlotInfo) :
    Prop where
  transactions : block.transactions = transactionsOf received
  entries : block.entries = entriesOf received
  blockMeta : latestBlockMeta received = some block.blockMeta
  messages : ∃ cells, List.Forall₂ Kept (storedOf received) cells ∧
    (∀ idx, cells[idx]? = some none ↔ Superseded (storedOf received) idx) ∧
    block.accounts = cells.reduceOption.filterMap getAccount ∧
    info.messages = cells ++ [some (.block block)] ∧
    info.getMessages = cells.reduceOption ++ [.block block]

/-- A slot after the messages it has been given. -/
inductive Given (slot : Slot) : List ParsedMessage → SlotInfo → Prop where
  | new : Given slot [] (.new slot)
  | message {received : List ParsedMessage} {info info' : SlotInfo} {message : ParsedMessage}
      {result : Option ParsedMessage} (given : Given slot received info)
      (hblock : message.NoBlock) (hok : info.getBlockMessage message = .ok (info', result)) :
      Given slot (received ++ [message]) info'

-- ════════════════════════════════════════════════════════════════════════
-- Cells
-- ════════════════════════════════════════════════════════════════════════

section

variable {messages : List ParsedMessage} {cells : List (Option ParsedMessage)}

theorem kept_append {message : ParsedMessage} (h : List.Forall₂ Kept messages cells) :
    List.Forall₂ Kept (messages ++ [message]) (cells ++ [some message]) :=
  List.rel_append h (.cons (.inl rfl) .nil)

/-- An account may be blanked. -/
theorem kept_set {idx : ℕ} {account : MessageAccount} (h : List.Forall₂ Kept messages cells)
    (hcell : cells[idx]? = some (some (.account account))) :
    List.Forall₂ Kept messages (cells.set idx none) := by
  induction h generalizing idx with
  | nil => cases hcell
  | @cons message cell messages cells hkept hrest ih =>
    cases idx with
    | zero =>
      rw [List.getElem?_cons_zero, Option.some.injEq] at hcell
      refine .cons (.inr ⟨rfl, ?_⟩) hrest
      rcases hkept with he | ⟨-, haccount⟩
      · exact ⟨account, Option.some.inj (he.symm.trans hcell)⟩
      · exact haccount
    | succ idx => exact .cons hkept (ih hcell)

/-- A stored message is no blank. -/
theorem blank_append {message : ParsedMessage} {idx : ℕ} :
    (cells ++ [some message])[idx]? = some none ↔ cells[idx]? = some none := by
  rw [List.getElem?_append]
  split
  · exact Iff.rfl
  · rename_i hge
    rw [List.getElem?_eq_none (Nat.le_of_not_lt hge)]
    cases idx - cells.length <;> simp

theorem blank_set {idx idx' : ℕ} (hlt : idx' < cells.length) :
    (cells.set idx' none)[idx]? = some none ↔ cells[idx]? = some none ∨ idx' = idx := by
  rw [List.getElem?_set, if_pos hlt]
  split
  · rename_i heq
    exact ⟨fun _ => .inr heq, fun _ => rfl⟩
  · rename_i hne
    exact (or_iff_left hne).symm

theorem kept_mem {message : ParsedMessage} (h : List.Forall₂ Kept messages cells)
    (hmem : message ∈ cells.reduceOption) : message ∈ messages := by
  induction h with
  | nil => simp at hmem
  | @cons stored cell messages cells hkept _ ih =>
    rcases hkept with rfl | ⟨rfl, -⟩
    · rw [List.reduceOption_cons_of_some] at hmem
      obtain rfl | hmem := List.mem_cons.mp hmem
      · exact List.mem_cons_self
      · exact List.mem_cons_of_mem _ (ih hmem)
    · rw [List.reduceOption_cons_of_none] at hmem
      exact List.mem_cons_of_mem _ (ih hmem)

/-- What accounts are not made of is found in the cells as it has been received. -/
theorem kept_filterMap {α : Type} {get : ParsedMessage → Option α}
    (h : List.Forall₂ Kept messages cells) (hget : ∀ account, get (.account account) = none) :
    (cells.filterMap fun cell => cell.bind get) = messages.filterMap get := by
  induction h with
  | nil => rfl
  | @cons message cell messages cells hkept _ ih =>
    rcases hkept with rfl | ⟨rfl, account, rfl⟩
    · simp only [List.filterMap_cons, Option.bind_some, ih]
    · simp only [List.filterMap_cons, Option.bind_none, ih, hget]

theorem filterMap_bind {α : Type} (get : ParsedMessage → Option α)
    (cells : List (Option ParsedMessage)) :
    (cells.filterMap fun cell => cell.bind get) = cells.reduceOption.filterMap get := by
  rw [List.reduceOption, List.filterMap_filterMap]
  rfl

theorem storedOf_append (received : List ParsedMessage) (message : ParsedMessage) :
    storedOf (received ++ [message]) = storedOf received ++ storedOf [message] :=
  List.filter_append ..

/-- What the last message carries is found last. -/
theorem filterMap_append_one {α : Type} (get : ParsedMessage → Option α)
    (received : List ParsedMessage) (message : ParsedMessage) :
    (received ++ [message]).filterMap get = received.filterMap get ++ (get message).toList := by
  rw [List.filterMap_append]
  cases hg : get message <;> simp [hg]

theorem transactionsOf_append (received : List ParsedMessage) (message : ParsedMessage) :
    transactionsOf (received ++ [message]) =
      transactionsOf received ++ (getTransaction message).toList :=
  filterMap_append_one ..

theorem entriesOf_append (received : List ParsedMessage) (message : ParsedMessage) :
    entriesOf (received ++ [message]) = entriesOf received ++ (getEntry message).toList :=
  filterMap_append_one ..

theorem latestBlockMeta_append (received : List ParsedMessage) (message : ParsedMessage) :
    latestBlockMeta (received ++ [message]) =
      (getBlockMeta message).or (latestBlockMeta received) := by
  rw [latestBlockMeta, filterMap_append_one, List.getLast?_append]
  cases getBlockMeta message <;> rfl

/-- Slot updates carry nothing else. -/
theorem filterMap_storedOf {α : Type} {get : ParsedMessage → Option α}
    (hget : ∀ slot, get (.slot slot) = none) (received : List ParsedMessage) :
    (storedOf received).filterMap get = received.filterMap get := by
  induction received with
  | nil => rfl
  | cons message received ih =>
    rw [storedOf] at ih ⊢
    cases message <;> simp [List.filterMap_cons, hget, ih]

/-- With one more message, nothing was complete before it. -/
theorem unfinished_append {received : List ParsedMessage} {message : ParsedMessage} :
    Unfinished (received ++ [message]) ↔ ∀ before, before <+: received → ¬CompleteOf before := by
  constructor
  · intro h before hbefore
    refine h before (hbefore.trans (List.prefix_append received [message])) ?_
    rintro rfl
    have hlength := hbefore.length_le
    simp only [List.length_append, List.length_singleton] at hlength
    omega
  · intro h before hbefore hne
    exact h before ((List.prefix_concat_iff.mp hbefore).resolve_left hne)

end

-- ════════════════════════════════════════════════════════════════════════
-- Blanked accounts
-- ════════════════════════════════════════════════════════════════════════

section

variable {stored : List ParsedMessage} {idx : ℕ} {account other : MessageAccount}
  {message : ParsedMessage}

theorem NewestYet.mem (h : NewestYet stored idx account) : .account account ∈ stored :=
  List.mem_of_getElem? h.1

/-- What comes later does not matter to what was the newest; the last message is, if it is
newer than all before. -/
theorem newestYet_append : NewestYet (stored ++ [message]) idx account ↔
    NewestYet stored idx account ∨ idx = stored.length ∧ message = .account account ∧
      ∀ other : MessageAccount, .account other ∈ stored → other.pubkey = account.pubkey →
        other.writeVersion < account.writeVersion := by
  rw [NewestYet, NewestYet]
  obtain hlt | rfl | hgt := lt_trichotomy idx stored.length
  · rw [List.getElem?_append_left hlt, List.take_append_of_le_length hlt.le]
    exact ⟨.inl, fun h => h.resolve_right fun h' => hlt.ne h'.1⟩
  · have hnone : stored[stored.length]? = none := List.getElem?_eq_none le_rfl
    rw [List.getElem?_concat_length, List.take_append_of_le_length le_rfl, List.take_length, hnone,
      Option.some.injEq]
    exact ⟨fun h => .inr ⟨rfl, h⟩, fun h => (h.resolve_left fun h' => by cases h'.1).2⟩
  · have hnone : stored[idx]? = none := List.getElem?_eq_none hgt.le
    have hnone' : (stored ++ [message])[idx]? = none :=
      List.getElem?_eq_none (by simpa using Nat.succ_le_of_lt hgt)
    rw [hnone, hnone']
    exact ⟨fun h => (by cases h.1), fun h => h.elim (fun h' => by cases h'.1) fun h' =>
      absurd h'.1 hgt.ne'⟩

theorem hasNewer_append : HasNewer (stored ++ [message]) account ↔
    HasNewer stored account ∨ ∃ other : MessageAccount, message = .account other ∧
      other.pubkey = account.pubkey ∧ account.writeVersion < other.writeVersion := by
  constructor
  · rintro ⟨other, hmem, hnewer⟩
    rcases List.mem_append.mp hmem with hmem | hmem
    · exact .inl ⟨other, hmem, hnewer⟩
    · exact .inr ⟨other, (List.mem_singleton.mp hmem).symm, hnewer⟩
  · rintro (⟨other, hmem, hnewer⟩ | ⟨other, rfl, hnewer⟩)
    · exact ⟨other, List.mem_append_left _ hmem, hnewer⟩
    · exact ⟨other, List.mem_append_right _ List.mem_cons_self, hnewer⟩

/-- The message is no account, or is not newer than an update before. -/
def Stale (stored : List ParsedMessage) (message : ParsedMessage) : Prop :=
  ∀ account, message = .account account → ∃ other : MessageAccount, .account other ∈ stored ∧
    other.pubkey = account.pubkey ∧ account.writeVersion ≤ other.writeVersion

theorem Stale.newestYet_append (h : Stale stored message) :
    NewestYet (stored ++ [message]) idx account ↔ NewestYet stored idx account := by
  rw [Richat.newestYet_append]
  refine or_iff_left ?_
  rintro ⟨-, hmessage, hall⟩
  obtain ⟨other, hmem, hkey, hle⟩ := h account hmessage
  exact Nat.not_lt.mpr hle (hall other hmem hkey)

theorem Stale.hasNewer_append (h : Stale stored message) :
    HasNewer (stored ++ [message]) account ↔ HasNewer stored account := by
  rw [Richat.hasNewer_append]
  refine or_iff_left_of_imp ?_
  rintro ⟨last, hmessage, hkey, hlt⟩
  obtain ⟨other, hmem, hkey', hle⟩ := h last hmessage
  exact ⟨other, hmem, hkey'.trans hkey, hlt.trans_le hle⟩

/-- The account is newer than all updates of it before. -/
def Fresh (stored : List ParsedMessage) (account : MessageAccount) : Prop :=
  ∀ other : MessageAccount, .account other ∈ stored → other.pubkey = account.pubkey →
    other.writeVersion < account.writeVersion

theorem Fresh.not_hasNewer (h : Fresh stored account) :
    ¬HasNewer (stored ++ [.account account]) account := by
  rw [hasNewer_append]
  rintro (⟨other, hmem, hkey, hlt⟩ | ⟨other, ⟨⟩, -, hlt⟩)
  · exact Nat.lt_asymm hlt (h other hmem hkey)
  · exact Nat.lt_irrefl _ hlt

/-- No other update of the account is the newest any more. -/
theorem Fresh.newest_self (h : Fresh stored account) (hkey : other.pubkey = account.pubkey) :
    NewestYet (stored ++ [.account account]) idx other ∧
      ¬HasNewer (stored ++ [.account account]) other ↔ idx = stored.length ∧ other = account := by
  constructor
  · rintro ⟨hnewest, hnone⟩
    rcases newestYet_append.mp hnewest with hold | ⟨rfl, ⟨⟩, -⟩
    · exact absurd (hasNewer_append.mpr
        (.inr ⟨account, rfl, hkey.symm, h other hold.mem hkey⟩)) hnone
    · exact ⟨rfl, rfl⟩
  · rintro ⟨rfl, rfl⟩
    exact ⟨newestYet_append.mpr (.inr ⟨rfl, rfl, h⟩), h.not_hasNewer⟩

/-- The updates of other accounts are as new as they were. -/
theorem newest_other (hkey : other.pubkey ≠ account.pubkey) :
    NewestYet (stored ++ [.account account]) idx other ∧
      ¬HasNewer (stored ++ [.account account]) other ↔
    NewestYet stored idx other ∧ ¬HasNewer stored other := by
  rw [newestYet_append, hasNewer_append]
  constructor
  · rintro ⟨hnewest | ⟨-, ⟨⟩, -⟩, hnone⟩
    · exact ⟨hnewest, fun hnewer => hnone (.inl hnewer)⟩
    · exact absurd rfl hkey
  · rintro ⟨hnewest, hnone⟩
    refine ⟨.inl hnewest, ?_⟩
    rintro (hnewer | ⟨_, ⟨⟩, hsame, -⟩)
    · exact hnone hnewer
    · exact hkey hsame.symm

/-- What is superseded by the account is the newest update of it before. -/
theorem Fresh.superseded (h : Fresh stored account) :
    Superseded (stored ++ [.account account]) idx ↔ Superseded stored idx ∨
      ∃ other : MessageAccount, NewestYet stored idx other ∧ ¬HasNewer stored other ∧
        other.pubkey = account.pubkey := by
  constructor
  · rintro ⟨other, hnewest, hnewer⟩
    rcases newestYet_append.mp hnewest with hold | ⟨-, ⟨⟩, -⟩
    · by_cases hbefore : HasNewer stored other
      · exact .inl ⟨other, hold, hbefore⟩
      · obtain ⟨_, ⟨⟩, hkey, -⟩ := (hasNewer_append.mp hnewer).resolve_left hbefore
        exact .inr ⟨other, hold, hbefore, hkey.symm⟩
    · exact absurd hnewer h.not_hasNewer
  · rintro (⟨other, hnewest, hnewer⟩ | ⟨other, hnewest, -, hkey⟩)
    · exact ⟨other, newestYet_append.mpr (.inl hnewest), hasNewer_append.mpr (.inl hnewer)⟩
    · exact ⟨other, newestYet_append.mpr (.inl hnewest), hasNewer_append.mpr
        (.inr ⟨account, rfl, hkey.symm, h other hnewest.mem hkey⟩)⟩

end

-- ════════════════════════════════════════════════════════════════════════
-- A slot before its block
-- ════════════════════════════════════════════════════════════════════════

namespace SlotInfo

/-- What the dedup map points at is the newest update of each account, and the cells that
were pointed at before are blank. -/
structure Blanks (stored : List ParsedMessage) (info : SlotInfo) : Prop where
  known : ∀ account : MessageAccount, .account account ∈ stored →
    info.accountsDedup.lookup account.pubkey ≠ none
  points : ∀ pubkey version idx, info.accountsDedup.lookup pubkey = some (version, idx) ↔
    ∃ account, NewestYet stored idx account ∧ ¬HasNewer stored account ∧
      account.pubkey = pubkey ∧ account.writeVersion = version
  blanked : ∀ idx, info.messages[idx]? = some none ↔ Superseded stored idx

section

variable {stored : List ParsedMessage} {info info' : SlotInfo} {message : ParsedMessage}
  {account : MessageAccount}

theorem Blanks.new (slot : Slot) : Blanks [] (new slot) where
  known := fun account h => by cases h
  points := fun pubkey version idx => by simp [SlotInfo.new, NewestYet]
  blanked := fun idx => by simp [SlotInfo.new, Superseded, NewestYet]

/-- A message that blanks nothing. -/
theorem Blanks.stale (h : Blanks stored info) (hstale : Stale stored message)
    (hdedup : info'.accountsDedup = info.accountsDedup)
    (hmessages : info'.messages = info.messages ++ [some message]) :
    Blanks (stored ++ [message]) info' := by
  refine ⟨fun account hmem => ?_, fun pubkey version idx => ?_, fun idx => ?_⟩
  · rw [hdedup]
    rcases List.mem_append.mp hmem with hmem | hmem
    · exact h.known account hmem
    · obtain ⟨other, hother, hkey, -⟩ := hstale account (List.mem_singleton.mp hmem).symm
      rw [← hkey]
      exact h.known other hother
  · simp only [hdedup, h.points, hstale.newestYet_append, hstale.hasNewer_append]
  · simp only [Superseded, hstale.newestYet_append, hstale.hasNewer_append]
    rw [hmessages]
    exact blank_append.trans (h.blanked idx)

/-- An account newer than the update pointed at is newer than all. -/
theorem Blanks.fresh (h : Blanks stored info)
    (hnewer : ∀ version idx, info.accountsDedup.lookup account.pubkey = some (version, idx) →
      version < account.writeVersion) : Fresh stored account := by
  intro other hmem hkey
  cases hl : info.accountsDedup.lookup account.pubkey with
  | none => exact absurd (hkey ▸ hl) (h.known other hmem)
  | some entry =>
    obtain ⟨version, idx⟩ := entry
    obtain ⟨pointed, -, hnone, hkey', rfl⟩ := (h.points _ _ _).mp hl
    refine Nat.lt_of_not_le fun hle => hnone ⟨other, hmem, hkey.trans hkey'.symm, ?_⟩
    exact (hnewer _ _ hl).trans_le hle

/-- An account newer than the update pointed at, which is blanked. -/
theorem Blanks.newest (h : Blanks stored info) (hlength : info.messages.length = stored.length)
    (hnewer : ∀ version idx, info.accountsDedup.lookup account.pubkey = some (version, idx) →
      version < account.writeVersion)
    (hdedup : info'.accountsDedup = info.accountsDedup.insert account.pubkey
      (account.writeVersion, info.messages.length))
    (hmessages : ∀ idx, info'.messages[idx]? = some none ↔ info.messages[idx]? = some none ∨
      ∃ version, info.accountsDedup.lookup account.pubkey = some (version, idx)) :
    Blanks (stored ++ [.account account]) info' := by
  have hfresh := h.fresh hnewer
  refine ⟨fun other hmem => ?_, fun pubkey version idx => ?_, fun idx => ?_⟩
  · rw [hdedup, Finmap.lookup_insert_eq]
    split
    · exact Option.some_ne_none _
    · rename_i hne
      rcases List.mem_append.mp hmem with hmem | hmem
      · exact h.known other hmem
      · cases List.mem_singleton.mp hmem
        exact absurd rfl hne
  · rw [hdedup, Finmap.lookup_insert_eq]
    by_cases hkey : pubkey = account.pubkey
    · rw [if_pos hkey, hlength]
      constructor
      · rintro ⟨⟩
        obtain ⟨hnewest, hnone⟩ := (hfresh.newest_self rfl).mpr ⟨rfl, rfl⟩
        exact ⟨account, hnewest, hnone, hkey.symm, rfl⟩
      · rintro ⟨other, hnewest, hnone, hkey', rfl⟩
        obtain ⟨rfl, rfl⟩ := (hfresh.newest_self (hkey'.trans hkey)).mp ⟨hnewest, hnone⟩
        rfl
    · rw [if_neg hkey, h.points]
      refine exists_congr fun other => ?_
      constructor
      · rintro ⟨hnewest, hnone, rfl, hversion⟩
        obtain ⟨hnewest, hnone⟩ := (newest_other hkey).mpr ⟨hnewest, hnone⟩
        exact ⟨hnewest, hnone, rfl, hversion⟩
      · rintro ⟨hnewest, hnone, rfl, hversion⟩
        obtain ⟨hnewest, hnone⟩ := (newest_other hkey).mp ⟨hnewest, hnone⟩
        exact ⟨hnewest, hnone, rfl, hversion⟩
  · rw [hmessages, h.blanked, hfresh.superseded]
    refine or_congr_right ?_
    simp only [h.points]
    constructor
    · rintro ⟨version, other, hnewest, hnone, hkey, -⟩
      exact ⟨other, hnewest, hnone, hkey⟩
    · rintro ⟨other, hnewest, hnone, hkey⟩
      exact ⟨_, other, hnewest, hnone, hkey, rfl⟩

end

/-- The slot holds what it has been given. -/
structure Collected (received : List ParsedMessage) (info : SlotInfo) : Prop where
  created : info.blockCreated = false
  deduped : info.Deduped
  cells : List.Forall₂ Kept (storedOf received) info.messages
  blanks : Blanks (storedOf received) info
  transactionsCount : info.transactionsCount = (transactionsOf received).length
  entriesCount : info.entriesCount = (entriesOf received).length
  blockMeta : info.blockMeta = latestBlockMeta received

variable {received : List ParsedMessage} {info info' : SlotInfo} {message : ParsedMessage}

/-- What storing an account does: it is appended, and it takes the place of an older
one that is pointed to. -/
theorem storeAccount_cases {account : MessageAccount}
    (hok : info.storeAccount account = .ok info') :
    (info.accountsDedup.lookup account.pubkey = none ∧
      info' = { info.append (.account account) with
        accountsDedup := info.accountsDedup.insert account.pubkey
          (account.writeVersion, info.messages.length) }) ∨
    ∃ version idx, info.accountsDedup.lookup account.pubkey = some (version, idx) ∧
      ((version < account.writeVersion ∧
        info' = { info.append (.account account) with
          messages := (info.append (.account account)).messages.set idx none
          accountsDedup := info.accountsDedup.insert account.pubkey
            (account.writeVersion, info.messages.length) }) ∨
      (account.writeVersion ≤ version ∧ info' = info.append (.account account))) := by
  rw [storeAccount] at hok
  cases hl : info.accountsDedup.lookup account.pubkey with
  | none =>
    have hl' : (info.append (.account account)).accountsDedup.lookup account.pubkey = none := hl
    simp only [hl', Except.ok.injEq] at hok
    exact .inl ⟨rfl, hok.symm⟩
  | some entry =>
    obtain ⟨version, idx⟩ := entry
    have hl' : (info.append (.account account)).accountsDedup.lookup account.pubkey =
      some (version, idx) := hl
    simp only [hl'] at hok
    refine .inr ⟨version, idx, rfl, ?_⟩
    by_cases hlt : version < account.writeVersion
    · rw [if_pos hlt] at hok
      split at hok
      · exact .inl ⟨hlt, (Except.ok.inj hok).symm⟩
      · cases hok
    · rw [if_neg hlt] at hok
      exact .inr ⟨Nat.le_of_not_lt hlt, (Except.ok.inj hok).symm⟩

/-- Only a block cannot be stored. -/
theorem store_ok (hdeduped : info.Deduped) (hblock : message.NoBlock) :
    ∃ info', info.store message = .ok info' := by
  cases message with
  | account account =>
    obtain ⟨info', hrun, -⟩ := storeAccount_spec hdeduped account
    exact ⟨info', hrun⟩
  | block block => exact absurd rfl (hblock block)
  | _ => exact ⟨_, rfl⟩

theorem Collected.new (slot : Slot) : Collected [] (new slot) :=
  ⟨rfl, (WellFormed.new slot).deduped, .nil, .new slot, rfl, rfl, rfl⟩

/-- An account blanks the older update that is pointed at. -/
theorem Collected.blanks_storeAccount {account : MessageAccount} (h : Collected received info)
    (hok : info.storeAccount account = .ok info') :
    Blanks (storedOf (received ++ [.account account])) info' := by
  have hlength := h.cells.length_eq.symm
  rw [storedOf_append]
  obtain ⟨hl, rfl⟩ | ⟨version, idx, hl, ⟨hlt, rfl⟩ | ⟨hle, rfl⟩⟩ := storeAccount_cases hok
  · refine h.blanks.newest hlength (fun version idx hl' => ?_) rfl fun idx => ?_
    · rw [hl] at hl'
      cases hl'
    · refine blank_append.trans (or_iff_left ?_).symm
      rintro ⟨version, hl'⟩
      rw [hl] at hl'
      cases hl'
  · refine h.blanks.newest hlength (fun version' idx' hl' => ?_) rfl fun idx' => ?_
    · rw [hl] at hl'
      cases hl'
      exact hlt
    · obtain ⟨old, hold, -⟩ := (h.deduped.append (.account account)) _ _ _ hl
      refine (blank_set (List.getElem?_eq_some_iff.mp hold).1).trans (or_congr blank_append ?_)
      rw [hl]
      exact ⟨fun heq => ⟨version, by rw [heq]⟩, fun ⟨_, heq⟩ => by cases heq; rfl⟩
  · refine h.blanks.stale ?_ rfl rfl
    rintro _ ⟨⟩
    obtain ⟨newest, hnewest, -, hkey, rfl⟩ := (h.blanks.points _ _ _).mp hl
    exact ⟨newest, hnewest.mem, hkey, hle⟩

/-- Storing an account. -/
theorem Collected.storeAccount {account : MessageAccount} (h : Collected received info)
    (hok : info.storeAccount account = .ok info') :
    Collected (received ++ [.account account]) info' := by
  obtain ⟨info₁, hrun, hdeduped, -, hcreated, htxs, hentries, hmeta⟩ :=
    storeAccount_spec h.deduped account
  cases hrun.symm.trans hok
  refine ⟨hcreated.trans h.created, hdeduped, ?_, h.blanks_storeAccount hok, ?_, ?_, ?_⟩
  · rw [storedOf_append]
    obtain ⟨-, rfl⟩ | ⟨version, idx, hl, ⟨-, rfl⟩ | ⟨-, rfl⟩⟩ := storeAccount_cases hok
    · exact kept_append h.cells
    · obtain ⟨old, hold, -⟩ := (h.deduped.append (.account account)) _ _ _ hl
      exact kept_set (kept_append h.cells) hold
    · exact kept_append h.cells
  · rw [htxs, h.transactionsCount]
    simp [transactionsOf_append, getTransaction]
  · rw [hentries, h.entriesCount]
    simp [entriesOf_append, getEntry]
  · rw [hmeta, h.blockMeta]
    simp [latestBlockMeta_append, getBlockMeta]

/-- A message that is appended and counted. -/
theorem Collected.appended (h : Collected received info) (hstored : storedOf [message] = [message])
    (haccount : ∀ account, message ≠ .account account)
    (hcreated : info'.blockCreated = info.blockCreated)
    (hdedup : info'.accountsDedup = info.accountsDedup)
    (hmessages : info'.messages = info.messages ++ [some message])
    (htxs : info'.transactionsCount =
      info.transactionsCount + (getTransaction message).toList.length)
    (hentries : info'.entriesCount = info.entriesCount + (getEntry message).toList.length)
    (hmeta : info'.blockMeta = (getBlockMeta message).or info.blockMeta) :
    Collected (received ++ [message]) info' := by
  refine ⟨hcreated.trans h.created, ?_, ?_, ?_, ?_, ?_, ?_⟩
  · intro pubkey version idx hlookup
    rw [hdedup] at hlookup
    rw [hmessages]
    exact h.deduped.append message pubkey version idx hlookup
  · rw [storedOf_append, hstored, hmessages]
    exact kept_append h.cells
  · rw [storedOf_append, hstored]
    exact h.blanks.stale (fun account hm => absurd hm (haccount account)) hdedup hmessages
  · rw [htxs, h.transactionsCount, transactionsOf_append, List.length_append]
  · rw [hentries, h.entriesCount, entriesOf_append, List.length_append]
  · rw [hmeta, h.blockMeta, latestBlockMeta_append]

/-- Storing a message adds it to what the slot holds. -/
theorem Collected.store (h : Collected received info) (hok : info.store message = .ok info') :
    Collected (received ++ [message]) info' := by
  cases message with
  | account account => exact h.storeAccount hok
  | slot slot =>
    cases hok
    refine ⟨h.created, h.deduped, ?_, ?_, ?_, ?_, ?_⟩
    · simpa [storedOf] using h.cells
    · simpa [storedOf] using h.blanks
    · simpa [transactionsOf_append, getTransaction] using h.transactionsCount
    · simpa [entriesOf_append, getEntry] using h.entriesCount
    · simpa [latestBlockMeta_append, getBlockMeta] using h.blockMeta
  | transaction tx =>
    cases hok
    exact h.appended rfl (fun account h => by cases h) rfl rfl rfl rfl rfl rfl
  | entry entry =>
    cases hok
    exact h.appended rfl (fun account h => by cases h) rfl rfl rfl rfl rfl rfl
  | blockMeta blockMeta =>
    cases hok
    exact h.appended rfl (fun account h => by cases h) rfl rfl rfl rfl rfl rfl
  | block block => cases hok

/-- The counters tell whether the messages received are complete. -/
theorem Collected.complete_iff (h : Collected received info) {blockMeta : MessageBlockMeta}
    (hmeta : info.blockMeta = some blockMeta) :
    info.Complete blockMeta ↔ CompleteOf received := by
  rw [Complete, h.transactionsCount, h.entriesCount, CompleteOf, ← h.blockMeta, hmeta]
  constructor
  · exact fun hc => ⟨blockMeta, rfl, hc⟩
  · rintro ⟨other, hother, hc⟩
    cases hother
    exact hc

/-- Landing is not a matter of the block. -/
theorem Collected.landed (h : Collected received info) (landed : Bool) :
    Collected received { info with landed := landed } :=
  ⟨h.created, h.deduped, h.cells, ⟨h.blanks.known, h.blanks.points, h.blanks.blanked⟩,
    h.transactionsCount, h.entriesCount, h.blockMeta⟩

/-- The block created of what the slot holds. -/
theorem Collected.assembled (h : Collected received info) {blockMeta : MessageBlockMeta}
    (hmeta : info.blockMeta = some blockMeta) :
    Assembled received (info.createBlock blockMeta)
      { info.append (.block (info.createBlock blockMeta)) with blockCreated := true } where
  transactions := (kept_filterMap h.cells fun _ => rfl).trans (filterMap_storedOf (fun _ => rfl) _)
  entries := (kept_filterMap h.cells fun _ => rfl).trans (filterMap_storedOf (fun _ => rfl) _)
  blockMeta := h.blockMeta.symm.trans hmeta
  messages := by
    refine ⟨info.messages, h.cells, h.blanks.blanked, filterMap_bind getAccount info.messages, rfl,
      ?_⟩
    rw [getMessages, SlotInfo.append, List.reduceOption_append]
    rfl

/-- Where a slot is: it collects until its block is due, and has the block from then on. -/
inductive Progress (received : List ParsedMessage) (info : SlotInfo) : Prop where
  | collecting (collected : Collected received info)
      (incomplete : ∀ before, before <+: received → ¬CompleteOf before)
  | assembled {before : List ParsedMessage} {block : MessageBlock}
      (created : info.blockCreated = true) (deduped : info.Deduped)
      (hbefore : before <+: received) (first : FirstComplete before)
      (assembled : Assembled before block info)

theorem Progress.deduped (h : Progress received info) : info.Deduped := by
  cases h with
  | collecting hcollected => exact hcollected.deduped
  | assembled _ hdeduped => exact hdeduped

theorem Progress.new (slot : Slot) : Progress [] (new slot) := by
  refine .collecting (.new slot) ?_
  rintro before hbefore ⟨blockMeta, hmeta, -⟩
  rw [List.prefix_nil.mp hbefore] at hmeta
  cases hmeta

/-- What a message does to a slot. -/
structure Step (received : List ParsedMessage) (info : SlotInfo) (message : ParsedMessage)
    (info' : SlotInfo) (result : Option ParsedMessage) : Prop where
  progress : Progress (received ++ [message]) info'
  returned : result.isSome ↔ FirstComplete (received ++ [message])
  block : ∀ returned, result = some returned →
    ∃ block, returned = .block block ∧ Assembled (received ++ [message]) block info'
  closed : info.blockCreated = true → result = none ∧ info'.getMessages = info.getMessages

/-- A slot takes every message but a block. -/
theorem getBlockMessage_ok (hdeduped : info.Deduped) (hblock : message.NoBlock) :
    ∃ info' result, info.getBlockMessage message = .ok (info', result) := by
  obtain ⟨landed, hlanded⟩ := markLanded_eq info message
  rw [getBlockMessage, hlanded]
  by_cases hcreated : info.blockCreated = true
  · exact ⟨_, _, if_pos hcreated⟩
  · have hlanded' : { info with landed := landed }.Deduped := hdeduped
    obtain ⟨info', hstore⟩ := store_ok hlanded' hblock
    refine ⟨info'.tryCreateBlock.1, info'.tryCreateBlock.2, (if_neg hcreated).trans ?_⟩
    rw [hstore]
    rfl

/-- A slot without a block has not been due. -/
theorem Progress.open (h : Progress received info) (hopen : info.blockCreated = false) :
    Collected received info ∧ ∀ before, before <+: received → ¬CompleteOf before := by
  cases h with
  | collecting hcollected hincomplete => exact ⟨hcollected, hincomplete⟩
  | assembled hcreated => exact absurd (hopen.symm.trans hcreated) (by simp)

/-- A slot that has its block was due before. -/
theorem Progress.due (h : Progress received info) (hcreated : info.blockCreated = true) :
    ∃ before block, before <+: received ∧ FirstComplete before ∧ Assembled before block info := by
  cases h with
  | collecting hcollected => exact absurd (hcollected.created.symm.trans hcreated) (by simp)
  | assembled _ _ hbefore hfirst hassembled => exact ⟨_, _, hbefore, hfirst, hassembled⟩

/-- After its block, a slot keeps its messages. -/
theorem Progress.extra (h : Progress received info) (hcreated : info.blockCreated = true)
    (message : ParsedMessage) (landed failed : Bool)
    (reported : List (List BlockMessageFailedReason)) :
    Progress (received ++ [message])
      { info with landed := landed, failed := failed, reported := reported } := by
  cases h with
  | collecting hcollected => exact absurd (hcollected.created.symm.trans hcreated) (by simp)
  | assembled _ hdeduped hbefore hfirst hassembled =>
    exact .assembled hcreated hdeduped (hbefore.trans (List.prefix_append received [message]))
      hfirst ⟨hassembled.transactions, hassembled.entries, hassembled.blockMeta,
        hassembled.messages⟩

theorem Progress.step {result : Option ParsedMessage} (h : Progress received info)
    (hok : info.getBlockMessage message = .ok (info', result)) :
    Step received info message info' result := by
  cases getBlockMessage_outcome hok with
  | extra hcreated landed failed reported =>
    obtain ⟨before, block, hbefore, hfirst, -⟩ := h.due hcreated
    have hnot : ¬FirstComplete (received ++ [message]) := fun hnow =>
      unfinished_append.mp hnow.2 before hbefore hfirst.1
    refine ⟨h.extra hcreated message landed failed reported, ?_, ?_, ?_⟩
    · exact ⟨fun hsome => absurd hsome (by simp), fun hnow => absurd hnow hnot⟩
    · intro returned hreturned
      cases hreturned
    · exact fun _ => ⟨rfl, rfl⟩
  | stored hopen hstore hno =>
    obtain ⟨hbefore, hincomplete⟩ := h.open hopen
    have hcollected := (hbefore.landed _).store hstore
    have hnot : ¬CompleteOf (received ++ [message]) := by
      intro hc
      obtain ⟨blockMeta, hmeta, -⟩ := id hc
      have hmeta' := hcollected.blockMeta.trans hmeta
      exact hno blockMeta hmeta' ((hcollected.complete_iff hmeta').mpr hc)
    refine ⟨.collecting hcollected fun before hbefore => ?_, ?_, ?_, ?_⟩
    · obtain rfl | hbefore := List.prefix_concat_iff.mp hbefore
      · exact hnot
      · exact hincomplete before hbefore
    · exact ⟨fun hsome => absurd hsome (by simp), fun hnow => absurd hnow.1 hnot⟩
    · intro returned hreturned
      cases hreturned
    · exact fun hcreated => absurd (hopen.symm.trans hcreated) (by simp)
  | created hopen hstore hmeta hcomplete =>
    obtain ⟨hbefore, hincomplete⟩ := h.open hopen
    have hcollected := (hbefore.landed _).store hstore
    have hfirst : FirstComplete (received ++ [message]) :=
      ⟨(hcollected.complete_iff hmeta).mp hcomplete, unfinished_append.mpr hincomplete⟩
    have hassembled := hcollected.assembled hmeta
    refine ⟨?_, ⟨fun _ => hfirst, fun _ => rfl⟩, ?_, ?_⟩
    · exact .assembled rfl (hcollected.deduped.append _) List.prefix_rfl hfirst hassembled
    · intro returned hreturned
      cases hreturned
      exact ⟨_, rfl, hassembled⟩
    · exact fun hcreated => absurd (hopen.symm.trans hcreated) (by simp)

end SlotInfo

-- ════════════════════════════════════════════════════════════════════════
-- Every run of a slot
-- ════════════════════════════════════════════════════════════════════════

section

variable {slot : Slot} {received : List ParsedMessage} {info : SlotInfo}

theorem Given.progress (given : Given slot received info) : info.Progress received := by
  induction given with
  | new => exact .new slot
  | message _ _ hok ih => exact (ih.step hok).progress

/-- The block is due once. -/
theorem FirstComplete.unique {before before' : List ParsedMessage} (h : FirstComplete before)
    (h' : FirstComplete before') (hbefore : before <+: received) (hbefore' : before' <+: received) :
    before = before' := by
  by_contra hne
  obtain hle | hle := List.prefix_or_prefix_of_prefix hbefore hbefore'
  · exact h'.2 before hle hne h.1
  · exact h.2 before' hle (Ne.symm hne) h'.1

/-- A slot whose block was due has it, and its messages are those of that moment. -/
theorem Given.due {before : List ParsedMessage} (given : Given slot received info)
    (hbefore : before <+: received) (hfirst : FirstComplete before) :
    info.blockCreated = true ∧ ∃ block, Assembled before block info := by
  cases given.progress with
  | collecting _ hincomplete => exact absurd hfirst.1 (hincomplete before hbefore)
  | assembled hcreated _ hbefore' hfirst' hassembled =>
    cases hfirst.unique hfirst' hbefore hbefore'
    exact ⟨hcreated, _, hassembled⟩

/-- Every run of a slot: the dedup map points at messages; once the block has been due,
the messages are those it was made of and the block; and the next message returns the
block exactly if it makes it due, and changes nothing if it was due before. -/
theorem given_assembles (given : Given slot received info) :
    (∀ pubkey version idx, info.accountsDedup.lookup pubkey = some (version, idx) →
      idx < info.messages.length) ∧
    (∀ before, before <+: received → FirstComplete before → ∃ block, Assembled before block info) ∧
    ∀ message : ParsedMessage, message.NoBlock →
      ∃ info' result, info.getBlockMessage message = .ok (info', result) ∧
        (result.isSome ↔ FirstComplete (received ++ [message])) ∧
        (∀ returned, result = some returned →
          ∃ block, returned = .block block ∧ Assembled (received ++ [message]) block info') ∧
        ((∃ before, before <+: received ∧ FirstComplete before) →
          result = none ∧ info'.getMessages = info.getMessages) := by
  refine ⟨?_, ?_, ?_⟩
  · intro pubkey version idx hlookup
    obtain ⟨account, hcell, -⟩ := given.progress.deduped pubkey version idx hlookup
    exact (List.getElem?_eq_some_iff.mp hcell).1
  · intro before hbefore hfirst
    exact (given.due hbefore hfirst).2
  · intro message hblock
    obtain ⟨info', result, hrun⟩ := SlotInfo.getBlockMessage_ok given.progress.deduped hblock
    have hstep := given.progress.step hrun
    refine ⟨info', result, hrun, hstep.returned, hstep.block, ?_⟩
    rintro ⟨before, hbefore, hfirst⟩
    exact hstep.closed (given.due hbefore hfirst).1

/-- The block meta of a block of one entry. -/
def oneEntryMeta : ParsedMessage :=
  .blockMeta ⟨⟨5, "", none, none, none, 4, "", 0, 1⟩, ⟨0, 0⟩, 3⟩

/-- Its entry. -/
def onlyEntry : ParsedMessage := .entry ⟨⟨5, 0, 1, [], 0, 0⟩, ⟨0, 0⟩, 3⟩

/-- An update of one account. -/
def updateOf (writeVersion : ℕ) : ParsedMessage :=
  .account ⟨.replicate 32 0, .replicate 32 0, false, ⟨[], 0, [], false, 0, [], writeVersion, none⟩,
    5, false, ⟨0, 0⟩, 3⟩

/-- Two updates of an account, the block meta, and last the entry, which completes the
block; the first update has been blanked. -/
theorem given_assembles_entry : ∃ info info' : SlotInfo, ∃ block,
    Given 5 [updateOf 1, updateOf 2, oneEntryMeta] info ∧
    info.getBlockMessage onlyEntry = .ok (info', some (.block block)) ∧
    FirstComplete ([updateOf 1, updateOf 2, oneEntryMeta] ++ [onlyEntry]) ∧
    Assembled ([updateOf 1, updateOf 2, oneEntryMeta] ++ [onlyEntry]) block info' ∧
    info'.getMessages = [updateOf 2, oneEntryMeta, onlyEntry, .block block] := by
  have given : Given 5 [updateOf 1, updateOf 2, oneEntryMeta] _ :=
    .message (.message (.message .new (fun block hblock => by cases hblock) rfl)
      (fun block hblock => by cases hblock) rfl) (fun block hblock => by cases hblock) rfl
  obtain ⟨info', result, hrun, hreturned, hblock, -⟩ :=
    (given_assembles given).2.2 onlyEntry (fun block hblock => by cases hblock)
  have hread : (Except.toOption (.ok (info', result) : Except Panic _)).map
      (fun r => (r.2.isSome, r.1.getMessages.dropLast)) =
      some (true, [updateOf 2, oneEntryMeta, onlyEntry]) := by
    rw [← hrun]
    decide +kernel
  obtain ⟨hsome, hmessages⟩ := Prod.mk.inj (Option.some.inj hread)
  obtain ⟨returned, rfl⟩ := Option.isSome_iff_exists.mp hsome
  obtain ⟨block, rfl, hassembled⟩ := hblock _ rfl
  refine ⟨_, info', block, given, hrun, hreturned.mp rfl, hassembled, ?_⟩
  obtain ⟨cells, -, -, -, -, hget⟩ := hassembled.messages
  have hcells : cells.reduceOption = [updateOf 2, oneEntryMeta, onlyEntry] := by
    rw [hget, List.dropLast_concat] at hmessages
    exact hmessages
  rw [hget, hcells]
  rfl

end

end Dragonmouth.Richat
