import Mathlib.Data.List.ReduceOption
import Dragonmouth.Richat.Ring

/-!
# The messages of one slot

`SlotInfo` collects the messages of a slot until its block is complete. It keeps
the newest update of each account, counts transactions and entries, and builds
the block once the counts agree with those of the block meta.

`SlotInfo.reported` is a history variable: the reasons reported to the metrics.

## Main definitions

- `SlotInfo.getBlockMessage`: store a message, and build the block if complete
- `SlotInfo.getMessages`: the messages stored
- `SlotInfo.WellFormed`: the invariant of a slot
-/

namespace Dragonmouth.Richat

inductive BlockMessageFailedReason where
  | missedBlockMeta
  | mismatchTransactions
  | mismatchEntries
  | extraAccount
  | extraTransaction
  | extraEntry
  | extraBlockMeta
  deriving DecidableEq

structure SlotInfo where
  slot : Slot
  blockCreated : Bool
  failed : Bool
  landed : Bool
  messages : List (Option ParsedMessage)
  accountsDedup : OrderedMap Pubkey (ℕ × ℕ)
  transactionsCount : ℕ
  entriesCount : ℕ
  blockMeta : Option MessageBlockMeta
  reported : List (List BlockMessageFailedReason)

namespace SlotInfo

def new (slot : Slot) : SlotInfo :=
  { slot := slot
    blockCreated := false
    failed := false
    landed := false
    messages := []
    accountsDedup := ∅
    transactionsCount := 0
    entriesCount := 0
    blockMeta := none
    reported := [] }

/-- Mark as landed. -/
def markLanded (info : SlotInfo) : ParsedMessage → SlotInfo
  | .slot msg =>
    match msg.commitment with
    | .confirmed | .finalized => { info with landed := true }
    | _ => info
  | _ => info

/-- The reasons a message after the block is reported with. -/
def extraReasons : ParsedMessage → List BlockMessageFailedReason
  | .slot _ => []
  | .account _ => [.extraAccount]
  | .transaction _ => [.extraTransaction]
  | .entry _ => [.extraEntry]
  | .blockMeta _ => [.extraBlockMeta]
  | .block _ => []

/-- Report error if block already created. -/
def reportExtra (info : SlotInfo) (message : ParsedMessage) : SlotInfo :=
  if info.failed then info
  else { info with failed := true, reported := info.reported ++ [extraReasons message] }

/-- `messages.push(Some(item))`. -/
def append (info : SlotInfo) (item : ParsedMessage) : SlotInfo :=
  { info with messages := info.messages ++ [some item] }

/-- Store an account, in place of an older update of it. -/
def storeAccount (info : SlotInfo) (message : MessageAccount) : Except Panic SlotInfo :=
  let idxNew := info.messages.length
  let info := info.append (.account message)
  match info.accountsDedup.lookup message.pubkey with
  | some (writeVersion, idx) =>
    if writeVersion < message.writeVersion then
      if idx < info.messages.length then
        .ok { info with
          messages := info.messages.set idx none
          accountsDedup :=
            info.accountsDedup.insert message.pubkey (message.writeVersion, idxNew) }
      else .error .indexOutOfBounds
    else .ok info
  | none =>
    .ok { info with
      accountsDedup := info.accountsDedup.insert message.pubkey (message.writeVersion, idxNew) }

/-- Store message. -/
def store (info : SlotInfo) : ParsedMessage → Except Panic SlotInfo
  | .account message => info.storeAccount message
  | .slot _ => .ok info
  | .transaction message =>
    .ok { info.append (.transaction message) with
      transactionsCount := info.transactionsCount + 1 }
  | .entry message =>
    .ok { info.append (.entry message) with entriesCount := info.entriesCount + 1 }
  | .blockMeta message =>
    .ok { info.append (.blockMeta message) with blockMeta := some message }
  | .block _ => .error .unreachable

/-- The counts agree with the block meta. -/
def Complete (info : SlotInfo) (blockMeta : MessageBlockMeta) : Prop :=
  blockMeta.executedTransactionCount = info.transactionsCount ∧
    blockMeta.entriesCount = info.entriesCount

instance (info : SlotInfo) (blockMeta : MessageBlockMeta) : Decidable (info.Complete blockMeta) :=
  inferInstanceAs (Decidable (_ ∧ _))

/-- The block of the messages stored. -/
def createBlock (info : SlotInfo) (blockMeta : MessageBlockMeta) : MessageBlock :=
  { accounts := info.messages.filterMap fun item => item.bind ParsedMessage.getAccount
    transactions := info.messages.filterMap fun item => item.bind ParsedMessage.getTransaction
    entries := info.messages.filterMap fun item => item.bind ParsedMessage.getEntry
    blockMeta := blockMeta
    createdAt := blockMeta.createdAt }

/-- Attempt to create Block. -/
def tryCreateBlock (info : SlotInfo) : SlotInfo × Option ParsedMessage :=
  match info.blockMeta with
  | some blockMeta =>
    if info.Complete blockMeta then
      let message := .block (info.createBlock blockMeta)
      ({ info.append message with blockCreated := true }, some message)
    else (info, none)
  | none => (info, none)

/-- `SlotInfo::get_block_message`. -/
def getBlockMessage (info : SlotInfo) (message : ParsedMessage) :
    Except Panic (SlotInfo × Option ParsedMessage) :=
  let info := info.markLanded message
  if info.blockCreated then .ok (info.reportExtra message, none)
  else do
    let info ← info.store message
    .ok info.tryCreateBlock

/-- `SlotInfo::get_messages`. -/
def getMessages (info : SlotInfo) : List ParsedMessage := info.messages.reduceOption

end SlotInfo

/-- What a block is made of besides accounts, and the block itself. -/
def ParsedMessage.isContent : ParsedMessage → Bool
  | .slot _ => false
  | .account _ => false
  | .transaction _ => true
  | .entry _ => true
  | .blockMeta _ => true
  | .block _ => true

namespace SlotInfo

variable {info info' : SlotInfo} {message : ParsedMessage}

/-- The stored messages but for the accounts. -/
def contents (info : SlotInfo) : List ParsedMessage :=
  info.getMessages.filter ParsedMessage.isContent

-- ════════════════════════════════════════════════════════════════════════
-- The invariant of a slot
-- ════════════════════════════════════════════════════════════════════════

/-- The newest update of every account is where the map says. -/
def Deduped (info : SlotInfo) : Prop :=
  ∀ pubkey version idx, info.accountsDedup.lookup pubkey = some (version, idx) →
    ∃ account, info.messages[idx]? = some (some (.account account)) ∧ account.pubkey = pubkey

/-- The invariant of a slot: a complete block has been created. -/
structure WellFormed (info : SlotInfo) : Prop where
  deduped : info.Deduped
  incomplete : info.blockCreated = false → ∀ blockMeta, info.blockMeta = some blockMeta →
    ¬info.Complete blockMeta

theorem WellFormed.new (slot : Slot) : (new slot).WellFormed :=
  ⟨fun pubkey version idx h => by simp [SlotInfo.new] at h, fun _ _ h => by cases h⟩

theorem Deduped.append (h : info.Deduped) (item : ParsedMessage) : (info.append item).Deduped := by
  intro pubkey version idx hl
  obtain ⟨account, hm, hp⟩ := h pubkey version idx hl
  refine ⟨account, ?_, hp⟩
  obtain ⟨hlt, -⟩ := List.getElem?_eq_some_iff.mp hm
  simp only [SlotInfo.append]
  rw [List.getElem?_append_left hlt, hm]

theorem contents_append (item : ParsedMessage) :
    (info.append item).contents = info.contents ++ [item].filter ParsedMessage.isContent := by
  simp [contents, getMessages, SlotInfo.append, List.reduceOption_append]

/-- Removing a stored account leaves the rest. -/
theorem filter_reduceOption_set {messages : List (Option ParsedMessage)} {idx : ℕ}
    {account : MessageAccount} (h : messages[idx]? = some (some (.account account))) :
    (messages.set idx none).reduceOption.filter ParsedMessage.isContent =
      messages.reduceOption.filter ParsedMessage.isContent := by
  induction messages generalizing idx with
  | nil => cases h
  | cons item messages ih =>
    cases idx with
    | zero =>
      rw [List.getElem?_cons_zero, Option.some.injEq] at h
      subst h
      simp [ParsedMessage.isContent]
    | succ idx =>
      rw [List.getElem?_cons_succ] at h
      cases item with
      | none => simpa using ih h
      | some m => simp [List.filter_cons, ih h]

/-- An entry that points at its account, where those of all other accounts do. -/
theorem Deduped.insert {message : MessageAccount} {version idx : ℕ}
    (hnew : info.messages[idx]? = some (some (.account message)))
    (hrest : ∀ pubkey version idx, info.accountsDedup.lookup pubkey = some (version, idx) →
      pubkey ≠ message.pubkey →
      ∃ account, info.messages[idx]? = some (some (.account account)) ∧ account.pubkey = pubkey) :
    Deduped { info with
      accountsDedup := info.accountsDedup.insert message.pubkey (version, idx) } := by
  intro pubkey version' idx' hk
  rw [Finmap.lookup_insert_eq] at hk
  split at hk
  · rename_i hp
    cases hk
    exact ⟨message, hnew, hp.symm⟩
  · rename_i hp
    exact hrest pubkey version' idx' hk hp

/-- Storing an account never fails and changes no other message. -/
theorem storeAccount_spec (h : info.Deduped) (message : MessageAccount) :
    ∃ info', info.storeAccount message = .ok info' ∧ info'.Deduped ∧
      info'.contents = info.contents ∧ info'.blockCreated = info.blockCreated ∧
      info'.transactionsCount = info.transactionsCount ∧
      info'.entriesCount = info.entriesCount ∧ info'.blockMeta = info.blockMeta := by
  have happ := h.append (.account message)
  have hcont : (info.append (.account message)).contents = info.contents := by
    simp [contents_append, ParsedMessage.isContent]
  have hnew : (info.append (.account message)).messages[info.messages.length]? =
      some (some (.account message)) := by
    simp [SlotInfo.append]
  rw [storeAccount]
  cases hl : info.accountsDedup.lookup message.pubkey with
  | none =>
    have hl' : (info.append (.account message)).accountsDedup.lookup message.pubkey = none := hl
    simp only [hl']
    exact ⟨_, rfl, .insert hnew fun pubkey version idx hk _ => happ pubkey version idx hk, hcont,
      rfl, rfl, rfl, rfl⟩
  | some entry =>
    obtain ⟨version, idx⟩ := entry
    have hl' : (info.append (.account message)).accountsDedup.lookup message.pubkey =
      some (version, idx) := hl
    simp only [hl']
    obtain ⟨old, hold, holdkey⟩ := happ _ _ _ hl'
    obtain ⟨hlt, -⟩ := List.getElem?_eq_some_iff.mp hold
    simp only [if_pos hlt]
    split
    · -- the positions of different accounts differ
      have hset : ∀ i account, (info.append (.account message)).messages[i]? =
          some (some (.account account)) → i ≠ idx →
          ((info.append (.account message)).messages.set idx none)[i]? =
            some (some (.account account)) := fun i account hi hne => by
        rw [List.getElem?_set_ne hne.symm, hi]
      have hne : info.messages.length ≠ idx := fun he => by
        obtain ⟨_, hb, -⟩ := h _ _ _ hl
        rw [← he, List.getElem?_eq_none le_rfl] at hb
        cases hb
      let replaced : SlotInfo := { info.append (.account message) with
        messages := (info.append (.account message)).messages.set idx none }
      refine ⟨_, rfl, @Deduped.insert replaced _ _ _ (hset _ _ hnew hne)
        fun pubkey version' idx' hk hp => ?_,
        (filter_reduceOption_set hold).trans hcont, rfl, rfl, rfl, rfl⟩
      obtain ⟨account, ha, hkey⟩ := happ pubkey version' idx' hk
      refine ⟨account, hset _ _ ha fun he => hp ?_, hkey⟩
      rw [he, hold] at ha
      cases ha
      rw [← hkey, holdkey]
    · exact ⟨_, rfl, happ, hcont, rfl, rfl, rfl, rfl⟩

-- ════════════════════════════════════════════════════════════════════════
-- Storing a message and building the block
-- ════════════════════════════════════════════════════════════════════════

/-- Storing keeps the message unless it is a slot update or a replaced account. -/
theorem store_spec (h : info.WellFormed) (hok : info.store message = .ok info') :
    info'.Deduped ∧ info'.contents = info.contents ++ [message].filter ParsedMessage.isContent ∧
      info'.blockCreated = info.blockCreated ∧
      (message.isContent = false → info.blockCreated = false →
        ∀ blockMeta, info'.blockMeta = some blockMeta → ¬info'.Complete blockMeta) := by
  have hd := h.deduped
  cases message with
  | slot msg =>
    cases hok
    exact ⟨hd, by simp [ParsedMessage.isContent], rfl, fun _ => h.incomplete⟩
  | account msg =>
    obtain ⟨info₁, hrun, hded, hcont, hcreated, htxs, hentries, hmeta⟩ := storeAccount_spec hd msg
    have he : info₁ = info' := Except.ok.inj (hrun.symm.trans hok)
    subst he
    refine ⟨hded, by simp [hcont, ParsedMessage.isContent], hcreated, fun _ hc blockMeta hb => ?_⟩
    rw [Complete, htxs, hentries]
    exact h.incomplete hc blockMeta (hmeta ▸ hb)
  | transaction msg =>
    cases hok
    exact ⟨hd.append _, contents_append _, rfl, fun hc => by cases hc⟩
  | entry msg =>
    cases hok
    exact ⟨hd.append _, contents_append _, rfl, fun hc => by cases hc⟩
  | blockMeta msg =>
    cases hok
    exact ⟨hd.append _, contents_append _, rfl, fun hc => by cases hc⟩
  | block msg => cases hok

/-- A block is built exactly of a complete slot. -/
theorem tryCreateBlock_cases (info : SlotInfo) :
    (info.tryCreateBlock = (info, none) ∧
      ∀ blockMeta, info.blockMeta = some blockMeta → ¬info.Complete blockMeta) ∨
    ∃ blockMeta, info.blockMeta = some blockMeta ∧ info.Complete blockMeta ∧
      info.tryCreateBlock =
        ({ info.append (.block (info.createBlock blockMeta)) with blockCreated := true },
          some (.block (info.createBlock blockMeta))) := by
  rw [tryCreateBlock]
  cases hb : info.blockMeta with
  | none => exact .inl ⟨rfl, fun _ h => by cases h⟩
  | some blockMeta =>
    by_cases hc : info.Complete blockMeta
    · exact .inr ⟨blockMeta, rfl, hc, by simp only [if_pos hc]⟩
    · refine .inl ⟨by simp only [if_neg hc], fun blockMeta' h => ?_⟩
      rwa [← Option.some.inj h]

theorem markLanded_eq (info : SlotInfo) (message : ParsedMessage) :
    ∃ landed, info.markLanded message = { info with landed := landed } := by
  cases message with
  | slot msg =>
    simp only [markLanded]
    split
    · exact ⟨true, rfl⟩
    · exact ⟨true, rfl⟩
    · exact ⟨info.landed, rfl⟩
  | _ => exact ⟨info.landed, rfl⟩

theorem reportExtra_eq (info : SlotInfo) (message : ParsedMessage) :
    ∃ failed reported, info.reportExtra message =
      { info with failed := failed, reported := reported } := by
  rw [reportExtra]
  split
  · exact ⟨info.failed, info.reported, rfl⟩
  · exact ⟨true, _, rfl⟩

/-- What giving a slot a message can do. -/
inductive Outcome (info : SlotInfo) (message : ParsedMessage) :
    SlotInfo → Option ParsedMessage → Prop where
  /-- The block has been created before. -/
  | extra (hcreated : info.blockCreated = true) (landed failed : Bool)
      (reported : List (List BlockMessageFailedReason)) :
      Outcome info message
        { info with landed := landed, failed := failed, reported := reported } none
  /-- The message is stored and the counts do not agree. -/
  | stored (hopen : info.blockCreated = false) {landed : Bool} {info' : SlotInfo}
      (hstore : { info with landed := landed }.store message = .ok info')
      (hno : ∀ blockMeta, info'.blockMeta = some blockMeta → ¬info'.Complete blockMeta) :
      Outcome info message info' none
  /-- The message is stored and the block created. -/
  | created (hopen : info.blockCreated = false) {landed : Bool} {info' : SlotInfo}
      {blockMeta : MessageBlockMeta}
      (hstore : { info with landed := landed }.store message = .ok info')
      (hmeta : info'.blockMeta = some blockMeta) (hcomplete : info'.Complete blockMeta) :
      Outcome info message
        { info'.append (.block (info'.createBlock blockMeta)) with blockCreated := true }
        (some (.block (info'.createBlock blockMeta)))

theorem getBlockMessage_outcome {result : Option ParsedMessage}
    (hok : info.getBlockMessage message = .ok (info', result)) :
    Outcome info message info' result := by
  obtain ⟨landed, hlanded⟩ := markLanded_eq info message
  rw [getBlockMessage, hlanded] at hok
  cases hc : info.blockCreated with
  | true =>
    obtain ⟨failed, reported, hextra⟩ := reportExtra_eq { info with landed := landed } message
    replace hok := (if_pos hc).symm.trans hok
    rw [hextra, Except.ok.injEq, Prod.mk.injEq] at hok
    obtain ⟨rfl, rfl⟩ := hok
    exact .extra hc landed failed reported
  | false =>
    replace hok := (if_neg (by simp [hc])).symm.trans hok
    cases hs : { info with landed := landed }.store message with
    | error e =>
      rw [hs] at hok
      cases hok
    | ok info₁ =>
      rw [hs] at hok
      have htry : info₁.tryCreateBlock = (info', result) := Except.ok.inj hok
      obtain ⟨hrun, hno⟩ | ⟨blockMeta, hmeta, hcomplete, hrun⟩ := tryCreateBlock_cases info₁
      · rw [hrun, Prod.mk.injEq] at htry
        obtain ⟨rfl, rfl⟩ := htry
        exact .stored hc hs hno
      · rw [hrun, Prod.mk.injEq] at htry
        obtain ⟨rfl, rfl⟩ := htry
        exact .created hc hs hmeta hcomplete

/-- What a message changes: after the block nothing is stored; before, the message
is, and the block it completes. Only contents complete a block. -/
structure Received (info : SlotInfo) (message : ParsedMessage) (info' : SlotInfo)
    (block : Option ParsedMessage) : Prop where
  wellFormed : info'.WellFormed
  extra : info.blockCreated = true → info'.contents = info.contents ∧ block = none
  stored : info.blockCreated = false →
    info'.contents = info.contents ++ (message :: block.toList).filter ParsedMessage.isContent
  trigger : message.isContent = false → block = none

/-- What a slot hands out is a block. -/
theorem getBlockMessage_block {b : ParsedMessage}
    (hok : info.getBlockMessage message = .ok (info', some b)) : ∃ msg, b = .block msg := by
  cases getBlockMessage_outcome hok with
  | created => exact ⟨_, rfl⟩

theorem getBlockMessage_spec (h : info.WellFormed) {block : Option ParsedMessage}
    (hok : info.getBlockMessage message = .ok (info', block)) :
    info.Received message info' block := by
  cases getBlockMessage_outcome hok with
  | extra hc =>
    exact ⟨⟨h.deduped, h.incomplete⟩, fun _ => ⟨rfl, rfl⟩, fun hn => by simp [hc] at hn,
      fun _ => rfl⟩
  | @stored hopen landed _ hs hno =>
    have hwf : { info with landed := landed }.WellFormed := ⟨h.deduped, h.incomplete⟩
    obtain ⟨hdeduped, hcontents, -⟩ := store_spec hwf hs
    exact ⟨⟨hdeduped, fun _ => hno⟩, fun hc => by simp [hopen] at hc, fun _ => hcontents,
      fun _ => rfl⟩
  | @created hopen landed info₁ blockMeta hs hmeta hcomplete =>
    have hwf : { info with landed := landed }.WellFormed := ⟨h.deduped, h.incomplete⟩
    obtain ⟨hdeduped, hcontents, -, hincomplete⟩ := store_spec hwf hs
    refine ⟨⟨hdeduped.append _, fun hn => by cases hn⟩, fun hc => by simp [hopen] at hc,
      fun _ => ?_, fun hn => absurd hcomplete (hincomplete hn hopen blockMeta hmeta)⟩
    refine (contents_append _).trans ?_
    rw [hcontents, List.append_assoc, ← List.filter_append]
    rfl

end SlotInfo

end Dragonmouth.Richat
