import Dragonmouth.Filters.Update
import Dragonmouth.Foundations.Checks
import Dragonmouth.Richat.Sender

/-!
# The parser of updates

`MessageParserProst::parse` takes an update apart: it checks what must be there,
keeps keys and signatures in a form that can be compared, and splits a block into
accounts, transactions, entries and a block meta. Sizes are those the parser
computes; the capacity of a set of keys is a parameter.

## Main definitions

- `genAccountKeysProst`: the keys of a transaction
- `MessageParserProst.parse`: the message of an update
- `MessageParserProst.Parses`: what each kind of update becomes
- `Keyed`: the keys of a message are those of its transaction
-/

namespace Dragonmouth.Proto

/-- `CommitmentLevel::try_from`. -/
def CommitmentLevel.ofInt32 (value : ℤ) : Option CommitmentLevel :=
  [processed, confirmed, finalized, firstShredReceived, completed, createdBank, dead].find?
    fun level => level.toInt32 = value

theorem CommitmentLevel.toInt32_of_ofInt32 {value : ℤ} {level : CommitmentLevel}
    (h : ofInt32 value = some level) : level.toInt32 = value := by
  simpa using List.find?_some h

end Dragonmouth.Proto

namespace Dragonmouth.Filters

open Checks Encoding
open Proto (CommitmentLevel TransactionStatusMeta SubscribeUpdateAccount
  SubscribeUpdateAccountInfo SubscribeUpdateSlot SubscribeUpdateTransaction
  SubscribeUpdateTransactionInfo SubscribeUpdateEntry SubscribeUpdateBlockMeta Timestamp)
open Richat (MessageParseError MessageSlot MessageAccount MessageTransaction MessageEntry
  MessageBlockMeta MessageBlock)

/-- `Message` and `MessageRef`; that messages are shared is not part of the model. -/
abbrev Message := Richat.ParsedMessage

/-- `ok_or(FieldNotDefined(field))`. -/
def required {α : Type} (field : String) : Option α → Except MessageParseError α
  | some value => .ok value
  | none => .error (.fieldNotDefined field)

/-- The bytes of a slice as an array of a fixed length. -/
def toArray {n : ℕ} (error : MessageParseError) (bytes : Bytes) :
    Except MessageParseError (Vector UInt8 n) :=
  if h : bytes.length = n then .ok ⟨bytes.toArray, by simpa using h⟩ else .error error

theorem required_ok {α : Type} {field : String} {o : Option α} {value : α} :
    required field o = .ok value ↔ o = some value := by
  cases o with
  | none => exact iff_of_false (fun h => by cases h) fun h => by cases h
  | some v => exact ⟨fun h => congrArg some (Except.ok.inj h), fun h => by cases h; rfl⟩

theorem toArray_ok {n : ℕ} {error : MessageParseError} {bytes : Bytes} {v : Vector UInt8 n} :
    toArray error bytes = .ok v ↔ v.toList = bytes := by
  rw [toArray]
  split
  · rename_i h
    rw [Except.ok.injEq]
    constructor
    · rintro rfl
      simp
    · rintro rfl
      exact Vector.toArray_inj.mp (Array.toArray_toList ..)
  · rename_i h
    refine iff_of_false (fun he => by cases he) ?_
    rintro rfl
    exact h (by simp)

/-- The keys of byte strings. -/
def pubkeysOf (pubkeys : List Bytes) : Except MessageParseError (List Pubkey) :=
  pubkeys.mapM (toArray .invalidPubkey)

/-- `MessageTransaction::gen_account_keys_prost`: static account keys, then dynamic
ones. -/
def genAccountKeysProst (transaction : SubscribeUpdateTransactionInfo)
    (txMeta : TransactionStatusMeta) : Except MessageParseError (Finset Pubkey) := do
  let tx ← required "transaction" transaction.transaction
  let static ← pubkeysOf (tx.message.elim [] Proto.Message.accountKeys)
  let writable ← pubkeysOf txMeta.loadedWritableAddresses
  let readonly ← pubkeysOf txMeta.loadedReadonlyAddresses
  .ok (static ++ writable ++ readonly).toFinset

namespace MessageParserProst

variable (G : Geyser) (capacity : Finset Pubkey → ℕ)

/-- The length a message of the generated code announces. -/
def lengthOf (message : Encoding.Message) : ℕ := (message.encodedLen []).1

/-- An account of an update; `size` is that of the message. -/
def parseAccount (account : SubscribeUpdateAccountInfo) (slot : Slot) (isStartup : Bool)
    (createdAt : Timestamp) (size : ℕ) : Except MessageParseError MessageAccount := do
  let pubkey ← toArray .invalidPubkey account.pubkey
  let owner ← toArray .invalidPubkey account.owner
  .ok
    { pubkey := pubkey
      owner := owner
      nonemptyTxnSignature := account.txnSignature.isSome
      account := account
      slot := slot
      isStartup := isStartup
      createdAt := createdAt
      size := size }

/-- A transaction of an update of the given length. -/
def parseTransaction (transaction : SubscribeUpdateTransactionInfo) (slot : Slot)
    (createdAt : Timestamp) (encodedLen : ℕ) : Except MessageParseError MessageTransaction := do
  let txMeta ← required "meta" transaction.txMeta
  let accountKeys ← genAccountKeysProst transaction txMeta
  let signature ← toArray .invalidSignature transaction.signature
  .ok
    { signature := signature
      error := txMeta.err
      accountKeys := accountKeys
      transaction := transaction
      slot := slot
      createdAt := createdAt
      size := encodedLen + signatureBytes + capacity accountKeys * pubkeyBytes }

/-- A block is split into its parts. -/
def parseBlock (message : SubscribeUpdateBlock) (createdAt : Timestamp) (encodedLen : ℕ) :
    Except MessageParseError MessageBlock := do
  let accounts ← message.accounts.mapM fun account =>
    parseAccount account message.slot false createdAt
      (pubkeyBytes + pubkeyBytes + signatureBytes + lengthOf (G.account account) + 8)
  let transactions ← message.transactions.mapM fun transaction =>
    parseTransaction capacity transaction message.slot createdAt encodedLen
  let entries := message.entries.map fun entry =>
    { entry := entry, createdAt := createdAt, size := lengthOf (G.entry entry) : MessageEntry }
  let blockMeta : SubscribeUpdateBlockMeta :=
    { slot := message.slot
      blockhash := message.blockhash
      rewards := message.rewards
      blockTime := message.blockTime
      blockHeight := message.blockHeight
      parentSlot := message.parentSlot
      parentBlockhash := message.parentBlockhash
      executedTransactionCount := message.executedTransactionCount
      entriesCount := message.entriesCount }
  .ok
    { accounts := accounts
      transactions := transactions
      entries := entries
      blockMeta :=
        { blockMeta := blockMeta
          createdAt := createdAt
          size := lengthOf (G.blockMeta blockMeta) }
      createdAt := createdAt }

/-- The message of the `oneof` of an update. -/
def parseOneof (createdAt : Timestamp) (encodedLen : ℕ) :
    UpdateOneof → Except MessageParseError Message
  | .slot message =>
    match CommitmentLevel.ofInt32 message.status with
    | some commitment =>
      .ok (.slot
        { slot := message.slot
          parent := message.parent
          commitment := commitment
          deadError := message.deadError
          createdAt := createdAt
          size := encodedLen })
    | none => .error (.invalidEnumValue message.status)
  | .account message => do
    let account ← required "account" message.account
    let account ← parseAccount account message.slot message.isStartup createdAt
      (encodedLen + pubkeyBytes + pubkeyBytes + signatureBytes)
    .ok (.account account)
  | .transaction message => do
    let transaction ← required "transaction" message.transaction
    let transaction ← parseTransaction capacity transaction message.slot createdAt encodedLen
    .ok (.transaction transaction)
  | .transactionStatus _ => .error (.invalidUpdateMessage "TransactionStatus")
  | .entry entry => .ok (.entry { entry := entry, createdAt := createdAt, size := encodedLen })
  | .blockMeta blockMeta =>
    .ok (.blockMeta { blockMeta := blockMeta, createdAt := createdAt, size := encodedLen })
  | .block message => do
    let block ← parseBlock G capacity message createdAt encodedLen
    .ok (.block block)
  | .ping => .error (.invalidUpdateMessage "Ping")
  | .pong _ => .error (.invalidUpdateMessage "Pong")

/-- `MessageParserProst::parse`. -/
def parse (update : SubscribeUpdate) (encodedLen : Option ℕ) :
    Except MessageParseError Message := do
  let encodedLen := encodedLen.getD (lengthOf (G.update update))
  let createdAt ← required "created_at" update.createdAt
  let updateOneof ← required "update_oneof" update.updateOneof
  parseOneof G capacity createdAt encodedLen updateOneof

/-- What each kind of update becomes; the other kinds are refused. -/
inductive Parses (createdAt : Timestamp) (encodedLen : ℕ) : UpdateOneof → Message → Prop where
  | slot {message : SubscribeUpdateSlot} {commitment : CommitmentLevel}
      (hcommitment : CommitmentLevel.ofInt32 message.status = some commitment) :
      Parses createdAt encodedLen (.slot message) (.slot
        { slot := message.slot
          parent := message.parent
          commitment := commitment
          deadError := message.deadError
          createdAt := createdAt
          size := encodedLen })
  | account {message : SubscribeUpdateAccount} {info : SubscribeUpdateAccountInfo}
      {account : MessageAccount} (hinfo : message.account = some info)
      (haccount : parseAccount info message.slot message.isStartup createdAt
        (encodedLen + pubkeyBytes + pubkeyBytes + signatureBytes) = .ok account) :
      Parses createdAt encodedLen (.account message) (.account account)
  | transaction {message : SubscribeUpdateTransaction} {info : SubscribeUpdateTransactionInfo}
      {transaction : MessageTransaction} (hinfo : message.transaction = some info)
      (htransaction : parseTransaction capacity info message.slot createdAt encodedLen =
        .ok transaction) :
      Parses createdAt encodedLen (.transaction message) (.transaction transaction)
  | entry {entry : SubscribeUpdateEntry} : Parses createdAt encodedLen (.entry entry)
      (.entry { entry := entry, createdAt := createdAt, size := encodedLen })
  | blockMeta {blockMeta : SubscribeUpdateBlockMeta} :
      Parses createdAt encodedLen (.blockMeta blockMeta)
        (.blockMeta { blockMeta := blockMeta, createdAt := createdAt, size := encodedLen })
  | block {message : SubscribeUpdateBlock} {block : MessageBlock}
      (hblock : parseBlock G capacity message createdAt encodedLen = .ok block) :
      Parses createdAt encodedLen (.block message) (.block block)

variable {G : Geyser} {capacity : Finset Pubkey → ℕ}

theorem parseOneof_eq_ok {createdAt : Timestamp} {encodedLen : ℕ} {updateOneof : UpdateOneof}
    {message : Message} : parseOneof G capacity createdAt encodedLen updateOneof = .ok message ↔
      Parses G capacity createdAt encodedLen updateOneof message := by
  constructor
  · intro h
    cases updateOneof with
    | slot message =>
      rw [parseOneof] at h
      split at h
      · rename_i commitment hcommitment
        cases h
        exact .slot hcommitment
      · cases h
    | account message =>
      obtain ⟨info, hinfo, h⟩ := bind_eq_ok.mp h
      obtain ⟨account, haccount, h⟩ := bind_eq_ok.mp h
      cases h
      exact .account (required_ok.mp hinfo) haccount
    | transaction message =>
      obtain ⟨info, hinfo, h⟩ := bind_eq_ok.mp h
      obtain ⟨transaction, htransaction, h⟩ := bind_eq_ok.mp h
      cases h
      exact .transaction (required_ok.mp hinfo) htransaction
    | entry entry =>
      cases h
      exact .entry
    | blockMeta blockMeta =>
      cases h
      exact .blockMeta
    | block message =>
      obtain ⟨block, hblock, h⟩ := bind_eq_ok.mp h
      cases h
      exact .block hblock
    | transactionStatus | ping | pong => cases h
  · intro h
    cases h with
    | slot hcommitment => rw [parseOneof, hcommitment]
    | account hinfo haccount =>
      exact bind_eq_ok.mpr ⟨_, required_ok.mpr hinfo, bind_eq_ok.mpr ⟨_, haccount, rfl⟩⟩
    | transaction hinfo htransaction =>
      exact bind_eq_ok.mpr ⟨_, required_ok.mpr hinfo, bind_eq_ok.mpr ⟨_, htransaction, rfl⟩⟩
    | entry => rfl
    | blockMeta => rfl
    | block hblock => exact bind_eq_ok.mpr ⟨_, hblock, rfl⟩

/-- The updates that are accepted, and what they become. -/
theorem parse_eq_ok {update : SubscribeUpdate} {encodedLen : Option ℕ} {message : Message} :
    parse G capacity update encodedLen = .ok message ↔ ∃ createdAt updateOneof,
      update.createdAt = some createdAt ∧ update.updateOneof = some updateOneof ∧
        Parses G capacity createdAt (encodedLen.getD (lengthOf (G.update update))) updateOneof
          message := by
  constructor
  · intro h
    obtain ⟨createdAt, hcreatedAt, h⟩ := bind_eq_ok.mp h
    obtain ⟨updateOneof, hupdateOneof, h⟩ := bind_eq_ok.mp h
    exact ⟨createdAt, updateOneof, required_ok.mp hcreatedAt, required_ok.mp hupdateOneof,
      parseOneof_eq_ok.mp h⟩
  · rintro ⟨createdAt, updateOneof, hcreatedAt, hupdateOneof, h⟩
    exact bind_eq_ok.mpr ⟨createdAt, required_ok.mpr hcreatedAt, bind_eq_ok.mpr
      ⟨updateOneof, required_ok.mpr hupdateOneof, parseOneof_eq_ok.mpr h⟩⟩

end MessageParserProst

/-- The static keys of a transaction and the addresses loaded for it. -/
def transactionKeys (transaction : SubscribeUpdateTransactionInfo) : List Bytes :=
  (transaction.transaction.bind Proto.Transaction.message).elim [] Proto.Message.accountKeys ++
    (transaction.txMeta.elim [] TransactionStatusMeta.loadedWritableAddresses ++
      transaction.txMeta.elim [] TransactionStatusMeta.loadedReadonlyAddresses)

/-- The keys of a message are those of its transaction. -/
def Keyed (message : MessageTransaction) : Prop :=
  ∀ key : Pubkey, key ∈ message.accountKeys ↔ key.toList ∈ transactionKeys message.transaction

theorem mem_pubkeysOf {pubkeys : List Bytes} {keys : List Pubkey}
    (h : pubkeysOf pubkeys = .ok keys) {key : Pubkey} : key ∈ keys ↔ key.toList ∈ pubkeys := by
  have hmap : keys.map (·.toList) = pubkeys := map_of_mapM_ok h fun _ _ hk => toArray_ok.mp hk
  rw [← hmap, List.mem_map]
  constructor
  · exact fun hk => ⟨key, hk, rfl⟩
  · rintro ⟨key', hk, he⟩
    rwa [← Vector.toList_inj.mp he]

theorem mem_genAccountKeysProst {transaction : SubscribeUpdateTransactionInfo}
    {txMeta : TransactionStatusMeta} {keys : Finset Pubkey}
    (hmeta : transaction.txMeta = some txMeta)
    (h : genAccountKeysProst transaction txMeta = .ok keys) (key : Pubkey) :
    key ∈ keys ↔ key.toList ∈ transactionKeys transaction := by
  obtain ⟨tx, htx, h⟩ := bind_eq_ok.mp h
  obtain ⟨static, hstatic, h⟩ := bind_eq_ok.mp h
  obtain ⟨writable, hwritable, h⟩ := bind_eq_ok.mp h
  obtain ⟨readonly, hreadonly, h⟩ := bind_eq_ok.mp h
  rw [← Except.ok.inj h, transactionKeys, required_ok.mp htx, hmeta]
  simp only [List.mem_toFinset, List.mem_append, mem_pubkeysOf hstatic, mem_pubkeysOf hwritable,
    mem_pubkeysOf hreadonly, Option.bind_some, Option.elim_some, or_assoc]

theorem parseTransaction_keyed {capacity : Finset Pubkey → ℕ}
    {transaction : SubscribeUpdateTransactionInfo} {slot : Slot} {createdAt : Timestamp}
    {encodedLen : ℕ} {message : MessageTransaction}
    (h : MessageParserProst.parseTransaction capacity transaction slot createdAt encodedLen =
      .ok message) : Keyed message := by
  obtain ⟨txMeta, hmeta, h⟩ := bind_eq_ok.mp h
  obtain ⟨keys, hkeys, h⟩ := bind_eq_ok.mp h
  obtain ⟨signature, -, h⟩ := bind_eq_ok.mp h
  rw [← Except.ok.inj h]
  exact mem_genAccountKeysProst (required_ok.mp hmeta) hkeys

/-- A transaction that has been parsed carries its own keys. -/
theorem parse_keyed {G : Geyser} {capacity : Finset Pubkey → ℕ} {update : SubscribeUpdate}
    {encodedLen : Option ℕ} {message : MessageTransaction}
    (h : MessageParserProst.parse G capacity update encodedLen = .ok (.transaction message)) :
    Keyed message := by
  obtain ⟨createdAt, updateOneof, -, -, hparses⟩ := MessageParserProst.parse_eq_ok.mp h
  cases hparses with
  | transaction hinfo htransaction => exact parseTransaction_keyed htransaction

end Dragonmouth.Filters
