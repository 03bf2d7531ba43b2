import Dragonmouth.Encoding.Records

/-!
# Decoding the messages of the schema

Every message of the schema is decoded as the generated code is documented to do it,
field by field, and decoding takes back what was encoded.

## Main definitions

- `Timestamp.ofRecords` and so on: the decoders
- `TransactionStatusMeta.InRange` and so on: messages with nested ones that can be read
  back
-/

namespace Dragonmouth.Proto

open Encoding Encoding.Decode Records

section

variable (records : List Record)

def Timestamp.ofRecords : Option Timestamp := do
  let seconds ← int64 1 records
  let nanos ← int32 2 records
  some { seconds := seconds, nanos := nanos }

def UnixTimestamp.ofRecords : Option UnixTimestamp := do
  let timestamp ← int64 1 records
  some { timestamp := timestamp }

def BlockHeight.ofRecords : Option BlockHeight := do
  let blockHeight ← uint64 1 records
  some { blockHeight := blockHeight }

def NumPartitions.ofRecords : Option NumPartitions := do
  let numPartitions ← uint64 1 records
  some { numPartitions := numPartitions }

def MessageHeader.ofRecords : Option MessageHeader := do
  let numRequiredSignatures ← uint32 1 records
  let numReadonlySignedAccounts ← uint32 2 records
  let numReadonlyUnsignedAccounts ← uint32 3 records
  some
    { numRequiredSignatures := numRequiredSignatures
      numReadonlySignedAccounts := numReadonlySignedAccounts
      numReadonlyUnsignedAccounts := numReadonlyUnsignedAccounts }

def CompiledInstruction.ofRecords : Option CompiledInstruction := do
  let programIdIndex ← uint32 1 records
  let accounts ← bytes 2 records
  let data ← bytes 3 records
  some { programIdIndex := programIdIndex, accounts := accounts, data := data }

def MessageAddressTableLookup.ofRecords : Option MessageAddressTableLookup := do
  let accountKey ← bytes 1 records
  let writableIndexes ← bytes 2 records
  let readonlyIndexes ← bytes 3 records
  some
    { accountKey := accountKey
      writableIndexes := writableIndexes
      readonlyIndexes := readonlyIndexes }

def Message.ofRecords : Option Message := do
  let header ← nested MessageHeader.ofRecords 1 records
  let accountKeys ← repeated bytes? 2 records
  let recentBlockhash ← bytes 3 records
  let instructions ← nestedAll CompiledInstruction.ofRecords 4 records
  let versioned ← bool 5 records
  let addressTableLookups ← nestedAll MessageAddressTableLookup.ofRecords 6 records
  some
    { header := header
      accountKeys := accountKeys
      recentBlockhash := recentBlockhash
      instructions := instructions
      versioned := versioned
      addressTableLookups := addressTableLookups }

def Transaction.ofRecords : Option Transaction := do
  let signatures ← repeated bytes? 1 records
  let message ← nested Message.ofRecords 2 records
  some { signatures := signatures, message := message }

def TransactionError.ofRecords : Option TransactionError := do
  let err ← bytes 1 records
  some { err := err }

def InnerInstruction.ofRecords : Option InnerInstruction := do
  let programIdIndex ← uint32 1 records
  let accounts ← bytes 2 records
  let data ← bytes 3 records
  let stackHeight ← optional uint32? 4 records
  some
    { programIdIndex := programIdIndex
      accounts := accounts
      data := data
      stackHeight := stackHeight }

def InnerInstructions.ofRecords : Option InnerInstructions := do
  let index ← uint32 1 records
  let instructions ← nestedAll InnerInstruction.ofRecords 2 records
  some { index := index, instructions := instructions }

def UiTokenAmount.ofRecords : Option UiTokenAmount := do
  let uiAmount ← double 1 records
  let decimals ← uint32 2 records
  let amount ← string 3 records
  let uiAmountString ← string 4 records
  some
    { uiAmount := uiAmount
      decimals := decimals
      amount := amount
      uiAmountString := uiAmountString }

def TokenBalance.ofRecords : Option TokenBalance := do
  let accountIndex ← uint32 1 records
  let mint ← string 2 records
  let uiTokenAmount ← nested UiTokenAmount.ofRecords 3 records
  let owner ← string 4 records
  let programId ← string 5 records
  some
    { accountIndex := accountIndex
      mint := mint
      uiTokenAmount := uiTokenAmount
      owner := owner
      programId := programId }

def Reward.ofRecords : Option Reward := do
  let pubkey ← string 1 records
  let lamports ← int64 2 records
  let postBalance ← uint64 3 records
  let rewardType ← int32 4 records
  let commission ← string 5 records
  some
    { pubkey := pubkey
      lamports := lamports
      postBalance := postBalance
      rewardType := rewardType
      commission := commission }

def Rewards.ofRecords : Option Rewards := do
  let rewards ← nestedAll Reward.ofRecords 1 records
  let numPartitions ← nested NumPartitions.ofRecords 2 records
  some { rewards := rewards, numPartitions := numPartitions }

def ReturnData.ofRecords : Option ReturnData := do
  let programId ← bytes 1 records
  let data ← bytes 2 records
  some { programId := programId, data := data }

def TransactionStatusMeta.ofRecords : Option TransactionStatusMeta := do
  let err ← nested TransactionError.ofRecords 1 records
  let fee ← uint64 2 records
  let preBalances ← packed 3 records
  let postBalances ← packed 4 records
  let innerInstructions ← nestedAll InnerInstructions.ofRecords 5 records
  let logMessages ← repeated string? 6 records
  let preTokenBalances ← nestedAll TokenBalance.ofRecords 7 records
  let postTokenBalances ← nestedAll TokenBalance.ofRecords 8 records
  let rewards ← nestedAll Reward.ofRecords 9 records
  let innerInstructionsNone ← bool 10 records
  let logMessagesNone ← bool 11 records
  let loadedWritableAddresses ← repeated bytes? 12 records
  let loadedReadonlyAddresses ← repeated bytes? 13 records
  let returnData ← nested ReturnData.ofRecords 14 records
  let returnDataNone ← bool 15 records
  let computeUnitsConsumed ← optional uint64? 16 records
  some
    { err := err
      fee := fee
      preBalances := preBalances
      postBalances := postBalances
      innerInstructions := innerInstructions
      innerInstructionsNone := innerInstructionsNone
      logMessages := logMessages
      logMessagesNone := logMessagesNone
      preTokenBalances := preTokenBalances
      postTokenBalances := postTokenBalances
      rewards := rewards
      loadedWritableAddresses := loadedWritableAddresses
      loadedReadonlyAddresses := loadedReadonlyAddresses
      returnData := returnData
      returnDataNone := returnDataNone
      computeUnitsConsumed := computeUnitsConsumed }

def SubscribeUpdateAccountInfo.ofRecords : Option SubscribeUpdateAccountInfo := do
  let pubkey ← bytes 1 records
  let lamports ← uint64 2 records
  let owner ← bytes 3 records
  let executable ← bool 4 records
  let rentEpoch ← uint64 5 records
  let data ← bytes 6 records
  let writeVersion ← uint64 7 records
  let txnSignature ← optional bytes? 8 records
  some
    { pubkey := pubkey
      lamports := lamports
      owner := owner
      executable := executable
      rentEpoch := rentEpoch
      data := data
      writeVersion := writeVersion
      txnSignature := txnSignature }

def SubscribeUpdateAccount.ofRecords : Option SubscribeUpdateAccount := do
  let account ← nested SubscribeUpdateAccountInfo.ofRecords 1 records
  let slot ← uint64 2 records
  let isStartup ← bool 3 records
  some { account := account, slot := slot, isStartup := isStartup }

def SubscribeUpdateSlot.ofRecords : Option SubscribeUpdateSlot := do
  let slot ← uint64 1 records
  let parent ← optional uint64? 2 records
  let status ← int32 3 records
  let deadError ← optional string? 4 records
  some { slot := slot, parent := parent, status := status, deadError := deadError }

def SubscribeUpdateTransactionInfo.ofRecords : Option SubscribeUpdateTransactionInfo := do
  let signature ← bytes 1 records
  let isVote ← bool 2 records
  let transaction ← nested Transaction.ofRecords 3 records
  let txMeta ← nested TransactionStatusMeta.ofRecords 4 records
  let index ← uint64 5 records
  some
    { signature := signature
      isVote := isVote
      transaction := transaction
      txMeta := txMeta
      index := index }

def SubscribeUpdateTransaction.ofRecords : Option SubscribeUpdateTransaction := do
  let transaction ← nested SubscribeUpdateTransactionInfo.ofRecords 1 records
  let slot ← uint64 2 records
  some { transaction := transaction, slot := slot }

def SubscribeUpdateEntry.ofRecords : Option SubscribeUpdateEntry := do
  let slot ← uint64 1 records
  let index ← uint64 2 records
  let numHashes ← uint64 3 records
  let hash ← bytes 4 records
  let executedTransactionCount ← uint64 5 records
  let startingTransactionIndex ← uint64 6 records
  some
    { slot := slot
      index := index
      numHashes := numHashes
      hash := hash
      executedTransactionCount := executedTransactionCount
      startingTransactionIndex := startingTransactionIndex }

def SubscribeUpdateBlockMeta.ofRecords : Option SubscribeUpdateBlockMeta := do
  let slot ← uint64 1 records
  let blockhash ← string 2 records
  let rewards ← nested Rewards.ofRecords 3 records
  let blockTime ← nested UnixTimestamp.ofRecords 4 records
  let blockHeight ← nested BlockHeight.ofRecords 5 records
  let parentSlot ← uint64 6 records
  let parentBlockhash ← string 7 records
  let executedTransactionCount ← uint64 8 records
  let entriesCount ← uint64 9 records
  some
    { slot := slot
      blockhash := blockhash
      rewards := rewards
      blockTime := blockTime
      blockHeight := blockHeight
      parentSlot := parentSlot
      parentBlockhash := parentBlockhash
      executedTransactionCount := executedTransactionCount
      entriesCount := entriesCount }

end

-- ════════════════════════════════════════════════════════════════════════
-- Decoding what was encoded
-- ════════════════════════════════════════════════════════════════════════

/-- A timestamp is read back, field by field, as every message below. -/
theorem Timestamp.decode {self : Timestamp} (h : InRange self.fields) :
    message ofRecords (fieldsWrite wire self.fields) = some self :=
  (message_fieldsWrite h _).trans <| and_then (int64_at h rfl) <| and_then (int32_at h rfl) rfl

theorem UnixTimestamp.decode {self : UnixTimestamp} (h : InRange self.fields) :
    message ofRecords (fieldsWrite wire self.fields) = some self :=
  (message_fieldsWrite h _).trans <| and_then (int64_at h rfl) rfl

theorem BlockHeight.decode {self : BlockHeight} (h : InRange self.fields) :
    message ofRecords (fieldsWrite wire self.fields) = some self :=
  (message_fieldsWrite h _).trans <| and_then (uint64_at h rfl) rfl

theorem NumPartitions.decode {self : NumPartitions} (h : InRange self.fields) :
    message ofRecords (fieldsWrite wire self.fields) = some self :=
  (message_fieldsWrite h _).trans <| and_then (uint64_at h rfl) rfl

theorem MessageHeader.decode {self : MessageHeader} (h : InRange self.fields) :
    message ofRecords (fieldsWrite wire self.fields) = some self :=
  (message_fieldsWrite h _).trans <| and_then (uint32_at h rfl) <|
    and_then (uint32_at h rfl) <| and_then (uint32_at h rfl) rfl

theorem CompiledInstruction.decode {self : CompiledInstruction} (h : InRange self.fields) :
    message ofRecords (fieldsWrite wire self.fields) = some self :=
  (message_fieldsWrite h _).trans <| and_then (uint32_at h rfl) <|
    and_then (byte_string_at h rfl) <| and_then (byte_string_at h rfl) rfl

theorem MessageAddressTableLookup.decode {self : MessageAddressTableLookup}
    (h : InRange self.fields) : message ofRecords (fieldsWrite wire self.fields) = some self :=
  (message_fieldsWrite h _).trans <| and_then (byte_string_at h rfl) <|
    and_then (byte_string_at h rfl) <| and_then (byte_string_at h rfl) rfl

structure Message.InRange (P : Prost) (msg : Message) : Prop where
  fields : Encoding.InRange (msg.fields P)
  header : ∀ header ∈ msg.header, Encoding.InRange header.fields
  instructions : ∀ instruction ∈ msg.instructions, Encoding.InRange instruction.fields
  addressTableLookups : ∀ lookup ∈ msg.addressTableLookups, Encoding.InRange lookup.fields

/-- Of a message, the nested parts are read back by their own decoders. -/
theorem Message.decode {self : Message} (h : self.InRange wire) :
    message ofRecords (fieldsWrite wire (self.fields wire)) = some self :=
  (message_fieldsWrite h.fields _).trans <|
    and_then (message_at rfl fun x hx => MessageHeader.decode (h.header x hx)) <|
    and_then (bytes_at rfl) <| and_then (byte_string_at h.fields rfl) <|
    and_then (messages_at rfl fun x hx => CompiledInstruction.decode (h.instructions x hx)) <|
    and_then (bool_at h.fields rfl) <|
    and_then (messages_at rfl fun x hx =>
      MessageAddressTableLookup.decode (h.addressTableLookups x hx)) rfl

structure Transaction.InRange (P : Prost) (tx : Transaction) : Prop where
  fields : Encoding.InRange (tx.fields P)
  message : ∀ message ∈ tx.message, message.InRange P

theorem Transaction.decode {self : Transaction} (h : self.InRange wire) :
    Records.message ofRecords (fieldsWrite wire (self.fields wire)) = some self :=
  (message_fieldsWrite h.fields _).trans <| and_then (bytes_at rfl) <|
    and_then (message_at rfl fun x hx => Message.decode (h.message x hx)) rfl

theorem TransactionError.decode {self : TransactionError} (h : InRange self.fields) :
    message ofRecords (fieldsWrite wire self.fields) = some self :=
  (message_fieldsWrite h _).trans <| and_then (byte_string_at h rfl) rfl

/-- An inner instruction is read back; its stack height may be absent. -/
theorem InnerInstruction.decode {self : InnerInstruction} (h : InRange self.fields) :
    message ofRecords (fieldsWrite wire self.fields) = some self :=
  (message_fieldsWrite h _).trans <| and_then (uint32_at h rfl) <|
    and_then (byte_string_at h rfl) <| and_then (byte_string_at h rfl) <|
    and_then (optional_at rfl h fun _ hvalue => congrArg some (Nat.mod_eq_of_lt hvalue)) rfl

structure InnerInstructions.InRange (P : Prost) (inner : InnerInstructions) : Prop where
  fields : Encoding.InRange (inner.fields P)
  instructions : ∀ instruction ∈ inner.instructions, Encoding.InRange instruction.fields

/-- The instructions of an index are read back in their order. -/
theorem InnerInstructions.decode {self : InnerInstructions} (h : self.InRange wire) :
    message ofRecords (fieldsWrite wire (self.fields wire)) = some self :=
  (message_fieldsWrite h.fields _).trans <| and_then (uint32_at h.fields rfl) <|
    and_then (messages_at rfl fun x hx => InnerInstruction.decode (h.instructions x hx)) rfl

/-- An amount is read back with the bits of its double. -/
theorem UiTokenAmount.decode {self : UiTokenAmount} (h : InRange self.fields) :
    message ofRecords (fieldsWrite wire self.fields) = some self :=
  (message_fieldsWrite h _).trans <| and_then (double_at h rfl) <|
    and_then (uint32_at h rfl) <| and_then (string_at h rfl) <| and_then (string_at h rfl) rfl

structure TokenBalance.InRange (P : Prost) (balance : TokenBalance) : Prop where
  fields : Encoding.InRange (balance.fields P)
  uiTokenAmount : ∀ amount ∈ balance.uiTokenAmount, Encoding.InRange amount.fields

theorem TokenBalance.decode {self : TokenBalance} (h : self.InRange wire) :
    message ofRecords (fieldsWrite wire (self.fields wire)) = some self :=
  (message_fieldsWrite h.fields _).trans <| and_then (uint32_at h.fields rfl) <|
    and_then (string_at h.fields rfl) <|
    and_then (message_at rfl fun x hx => UiTokenAmount.decode (h.uiTokenAmount x hx)) <|
    and_then (string_at h.fields rfl) <| and_then (string_at h.fields rfl) rfl

theorem Reward.decode {self : Reward} (h : InRange self.fields) :
    message ofRecords (fieldsWrite wire self.fields) = some self :=
  (message_fieldsWrite h _).trans <| and_then (string_at h rfl) <| and_then (int64_at h rfl) <|
    and_then (uint64_at h rfl) <| and_then (int32_at h rfl) <| and_then (string_at h rfl) rfl

structure Rewards.InRange (P : Prost) (obj : Rewards) : Prop where
  fields : Encoding.InRange (obj.fields P)
  rewards : ∀ reward ∈ obj.rewards, Encoding.InRange reward.fields
  numPartitions : ∀ numPartitions ∈ obj.numPartitions, Encoding.InRange numPartitions.fields

theorem Rewards.decode {self : Rewards} (h : self.InRange wire) :
    message ofRecords (fieldsWrite wire (self.fields wire)) = some self :=
  (message_fieldsWrite h.fields _).trans <|
    and_then (messages_at rfl fun x hx => Reward.decode (h.rewards x hx)) <|
    and_then (message_at rfl fun x hx => NumPartitions.decode (h.numPartitions x hx)) rfl

theorem ReturnData.decode {self : ReturnData} (h : InRange self.fields) :
    message ofRecords (fieldsWrite wire self.fields) = some self :=
  (message_fieldsWrite h _).trans <| and_then (byte_string_at h rfl) <|
    and_then (byte_string_at h rfl) rfl

structure TransactionStatusMeta.InRange (P : Prost) (txMeta : TransactionStatusMeta) : Prop where
  fields : Encoding.InRange (txMeta.fields P)
  err : ∀ err ∈ txMeta.err, Encoding.InRange err.fields
  innerInstructions : ∀ instructions ∈ txMeta.innerInstructions, instructions.InRange P
  preTokenBalances : ∀ balance ∈ txMeta.preTokenBalances, balance.InRange P
  postTokenBalances : ∀ balance ∈ txMeta.postTokenBalances, balance.InRange P
  rewards : ∀ reward ∈ txMeta.rewards, Encoding.InRange reward.fields
  returnData : ∀ returnData ∈ txMeta.returnData, Encoding.InRange returnData.fields

/-- The meta of a transaction is read back: the packed balances, the lists of messages,
and what may be absent. -/
theorem TransactionStatusMeta.decode {self : TransactionStatusMeta} (h : self.InRange wire) :
    message ofRecords (fieldsWrite wire (self.fields wire)) = some self :=
  (message_fieldsWrite h.fields _).trans <|
    and_then (message_at rfl fun x hx => TransactionError.decode (h.err x hx)) <|
    and_then (uint64_at h.fields rfl) <| and_then (packed_at rfl h.fields) <|
    and_then (packed_at rfl h.fields) <|
    and_then (messages_at rfl fun x hx => InnerInstructions.decode (h.innerInstructions x hx)) <|
    and_then (strings_at rfl) <|
    and_then (messages_at rfl fun x hx => TokenBalance.decode (h.preTokenBalances x hx)) <|
    and_then (messages_at rfl fun x hx => TokenBalance.decode (h.postTokenBalances x hx)) <|
    and_then (messages_at rfl fun x hx => Reward.decode (h.rewards x hx)) <|
    and_then (bool_at h.fields rfl) <| and_then (bool_at h.fields rfl) <|
    and_then (bytes_at rfl) <| and_then (bytes_at rfl) <|
    and_then (message_at rfl fun x hx => ReturnData.decode (h.returnData x hx)) <|
    and_then (bool_at h.fields rfl) <| and_then (optional_at rfl h.fields fun _ _ => rfl) rfl

theorem SubscribeUpdateAccountInfo.decode {self : SubscribeUpdateAccountInfo}
    (h : InRange self.fields) : message ofRecords (fieldsWrite wire self.fields) = some self :=
  (message_fieldsWrite h _).trans <| and_then (byte_string_at h rfl) <|
    and_then (uint64_at h rfl) <| and_then (byte_string_at h rfl) <|
    and_then (bool_at h rfl) <| and_then (uint64_at h rfl) <| and_then (byte_string_at h rfl) <|
    and_then (uint64_at h rfl) <| and_then (optional_at rfl h fun _ _ => rfl) rfl

structure SubscribeUpdateAccount.InRange (P : Prost) (update : SubscribeUpdateAccount) : Prop where
  fields : Encoding.InRange (update.fields P)
  account : ∀ account ∈ update.account, Encoding.InRange account.fields

theorem SubscribeUpdateAccount.decode {self : SubscribeUpdateAccount} (h : self.InRange wire) :
    message ofRecords (fieldsWrite wire (self.fields wire)) = some self :=
  (message_fieldsWrite h.fields _).trans <|
    and_then (message_at rfl fun x hx => SubscribeUpdateAccountInfo.decode (h.account x hx)) <|
    and_then (uint64_at h.fields rfl) <| and_then (bool_at h.fields rfl) rfl

/-- A slot update is read back; parent and error may be absent. -/
theorem SubscribeUpdateSlot.decode {self : SubscribeUpdateSlot} (h : InRange self.fields) :
    message ofRecords (fieldsWrite wire self.fields) = some self :=
  (message_fieldsWrite h _).trans <| and_then (uint64_at h rfl) <|
    and_then (optional_at rfl h fun _ _ => rfl) <| and_then (int32_at h rfl) <|
    and_then (optional_at rfl h fun value _ => ofStrBytes_strBytes value) rfl

structure SubscribeUpdateTransactionInfo.InRange (P : Prost)
    (info : SubscribeUpdateTransactionInfo) : Prop where
  fields : Encoding.InRange (info.fields P)
  transaction : ∀ transaction ∈ info.transaction, transaction.InRange P
  txMeta : ∀ txMeta ∈ info.txMeta, txMeta.InRange P

theorem SubscribeUpdateTransactionInfo.decode {self : SubscribeUpdateTransactionInfo}
    (h : self.InRange wire) : message ofRecords (fieldsWrite wire (self.fields wire)) = some self :=
  (message_fieldsWrite h.fields _).trans <| and_then (byte_string_at h.fields rfl) <|
    and_then (bool_at h.fields rfl) <|
    and_then (message_at rfl fun x hx => Transaction.decode (h.transaction x hx)) <|
    and_then (message_at rfl fun x hx => TransactionStatusMeta.decode (h.txMeta x hx)) <|
    and_then (uint64_at h.fields rfl) rfl

structure SubscribeUpdateTransaction.InRange (P : Prost) (update : SubscribeUpdateTransaction) :
    Prop where
  fields : Encoding.InRange (update.fields P)
  transaction : ∀ transaction ∈ update.transaction, transaction.InRange P

theorem SubscribeUpdateTransaction.decode {self : SubscribeUpdateTransaction}
    (h : self.InRange wire) : message ofRecords (fieldsWrite wire (self.fields wire)) = some self :=
  (message_fieldsWrite h.fields _).trans <|
    and_then (message_at rfl fun x hx =>
      SubscribeUpdateTransactionInfo.decode (h.transaction x hx)) <|
    and_then (uint64_at h.fields rfl) rfl

theorem SubscribeUpdateEntry.decode {self : SubscribeUpdateEntry} (h : InRange self.fields) :
    message ofRecords (fieldsWrite wire self.fields) = some self :=
  (message_fieldsWrite h _).trans <| and_then (uint64_at h rfl) <| and_then (uint64_at h rfl) <|
    and_then (uint64_at h rfl) <| and_then (byte_string_at h rfl) <|
    and_then (uint64_at h rfl) <| and_then (uint64_at h rfl) rfl

structure SubscribeUpdateBlockMeta.InRange (P : Prost) (update : SubscribeUpdateBlockMeta) :
    Prop where
  fields : Encoding.InRange (update.fields P)
  rewards : ∀ rewards ∈ update.rewards, rewards.InRange P
  blockTime : ∀ blockTime ∈ update.blockTime, Encoding.InRange blockTime.fields
  blockHeight : ∀ blockHeight ∈ update.blockHeight, Encoding.InRange blockHeight.fields

theorem SubscribeUpdateBlockMeta.decode {self : SubscribeUpdateBlockMeta} (h : self.InRange wire) :
    message ofRecords (fieldsWrite wire (self.fields wire)) = some self :=
  (message_fieldsWrite h.fields _).trans <| and_then (uint64_at h.fields rfl) <|
    and_then (string_at h.fields rfl) <|
    and_then (message_at rfl fun x hx => Rewards.decode (h.rewards x hx)) <|
    and_then (message_at rfl fun x hx => UnixTimestamp.decode (h.blockTime x hx)) <|
    and_then (message_at rfl fun x hx => BlockHeight.decode (h.blockHeight x hx)) <|
    and_then (uint64_at h.fields rfl) <| and_then (string_at h.fields rfl) <|
    and_then (uint64_at h.fields rfl) <| and_then (uint64_at h.fields rfl) rfl

end Dragonmouth.Proto
