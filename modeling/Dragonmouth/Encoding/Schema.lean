import Dragonmouth.Encoding.Field

/-!
# Messages of the schema

The generated messages list their fields in the order of the tags. The conversions
copy the validator's data into them one to one; what is absent becomes an empty
list, with its flag where the schema has one.

## Main definitions

- `SubscribeUpdate.fields`: the fields of an update
- `ConvertTo`: what the conversions are documented to do
- `Prost.WireFormat`, `Generated.Documented`: the encodings of byte strings, and the
  generated code
-/

namespace Dragonmouth.Proto

open Encoding

def Timestamp.fields (self : Timestamp) : List Field := [
  .implicit 1 (.int64 self.seconds),
  .implicit 2 (.int32 self.nanos)]

def UnixTimestamp.fields (self : UnixTimestamp) : List Field :=
  [.implicit 1 (.int64 self.timestamp)]

def BlockHeight.fields (self : BlockHeight) : List Field :=
  [.implicit 1 (.uint64 self.blockHeight)]

def NumPartitions.fields (self : NumPartitions) : List Field :=
  [.implicit 1 (.uint64 self.numPartitions)]

def MessageHeader.fields (self : MessageHeader) : List Field := [
  .implicit 1 (.uint32 self.numRequiredSignatures),
  .implicit 2 (.uint32 self.numReadonlySignedAccounts),
  .implicit 3 (.uint32 self.numReadonlyUnsignedAccounts)]

def CompiledInstruction.fields (self : CompiledInstruction) : List Field := [
  .implicit 1 (.uint32 self.programIdIndex),
  .implicit 2 (.bytes self.accounts),
  .implicit 3 (.bytes self.data)]

def MessageAddressTableLookup.fields (self : MessageAddressTableLookup) : List Field := [
  .implicit 1 (.bytes self.accountKey),
  .implicit 2 (.bytes self.writableIndexes),
  .implicit 3 (.bytes self.readonlyIndexes)]

def TransactionError.fields (self : TransactionError) : List Field :=
  [.implicit 1 (.bytes self.err)]

def InnerInstruction.fields (self : InnerInstruction) : List Field := [
  .implicit 1 (.uint32 self.programIdIndex),
  .implicit 2 (.bytes self.accounts),
  .implicit 3 (.bytes self.data),
  .optional 4 (self.stackHeight.map .uint32)]

def UiTokenAmount.fields (self : UiTokenAmount) : List Field := [
  .implicit 1 (.double self.uiAmount),
  .implicit 2 (.uint32 self.decimals),
  .implicit 3 (.string self.amount),
  .implicit 4 (.string self.uiAmountString)]

def Reward.fields (self : Reward) : List Field := [
  .implicit 1 (.string self.pubkey),
  .implicit 2 (.int64 self.lamports),
  .implicit 3 (.uint64 self.postBalance),
  .implicit 4 (.int32 self.rewardType),
  .implicit 5 (.string self.commission)]

def ReturnData.fields (self : ReturnData) : List Field := [
  .implicit 1 (.bytes self.programId),
  .implicit 2 (.bytes self.data)]

def SubscribeUpdateAccountInfo.fields (self : SubscribeUpdateAccountInfo) : List Field := [
  .implicit 1 (.bytes self.pubkey),
  .implicit 2 (.uint64 self.lamports),
  .implicit 3 (.bytes self.owner),
  .implicit 4 (.bool self.executable),
  .implicit 5 (.uint64 self.rentEpoch),
  .implicit 6 (.bytes self.data),
  .implicit 7 (.uint64 self.writeVersion),
  .optional 8 (self.txnSignature.map .bytes)]

def SubscribeUpdateSlot.fields (self : SubscribeUpdateSlot) : List Field := [
  .implicit 1 (.uint64 self.slot),
  .optional 2 (self.parent.map .uint64),
  .implicit 3 (.int32 self.status),
  .optional 4 (self.deadError.map .string)]

def SubscribeUpdateEntry.fields (self : SubscribeUpdateEntry) : List Field := [
  .implicit 1 (.uint64 self.slot),
  .implicit 2 (.uint64 self.index),
  .implicit 3 (.uint64 self.numHashes),
  .implicit 4 (.bytes self.hash),
  .implicit 5 (.uint64 self.executedTransactionCount),
  .implicit 6 (.uint64 self.startingTransactionIndex)]

section

variable (P : Prost)

def Message.fields (self : Message) : List Field := [
  .message 1 (self.header.map fun header => fieldsWrite P header.fields),
  .repeated 2 (self.accountKeys.map .bytes),
  .implicit 3 (.bytes self.recentBlockhash),
  .messages 4 (self.instructions.map fun instruction => fieldsWrite P instruction.fields),
  .implicit 5 (.bool self.versioned),
  .messages 6 (self.addressTableLookups.map fun lookup => fieldsWrite P lookup.fields)]

def Transaction.fields (self : Transaction) : List Field := [
  .repeated 1 (self.signatures.map .bytes),
  .message 2 (self.message.map fun message => fieldsWrite P (message.fields P))]

def InnerInstructions.fields (self : InnerInstructions) : List Field := [
  .implicit 1 (.uint32 self.index),
  .messages 2 (self.instructions.map fun instruction => fieldsWrite P instruction.fields)]

def TokenBalance.fields (self : TokenBalance) : List Field := [
  .implicit 1 (.uint32 self.accountIndex),
  .implicit 2 (.string self.mint),
  .message 3 (self.uiTokenAmount.map fun amount => fieldsWrite P amount.fields),
  .implicit 4 (.string self.owner),
  .implicit 5 (.string self.programId)]

def Rewards.fields (self : Rewards) : List Field := [
  .messages 1 (self.rewards.map fun reward => fieldsWrite P reward.fields),
  .message 2 (self.numPartitions.map fun numPartitions => fieldsWrite P numPartitions.fields)]

def TransactionStatusMeta.fields (self : TransactionStatusMeta) : List Field := [
  .message 1 (self.err.map fun err => fieldsWrite P err.fields),
  .implicit 2 (.uint64 self.fee),
  .packed 3 self.preBalances,
  .packed 4 self.postBalances,
  .messages 5 (self.innerInstructions.map fun instructions =>
    fieldsWrite P (instructions.fields P)),
  .strings 6 (some self.logMessages),
  .messages 7 (self.preTokenBalances.map fun balance => fieldsWrite P (balance.fields P)),
  .messages 8 (self.postTokenBalances.map fun balance => fieldsWrite P (balance.fields P)),
  .messages 9 (self.rewards.map fun reward => fieldsWrite P reward.fields),
  .implicit 10 (.bool self.innerInstructionsNone),
  .implicit 11 (.bool self.logMessagesNone),
  .repeated 12 (self.loadedWritableAddresses.map .bytes),
  .repeated 13 (self.loadedReadonlyAddresses.map .bytes),
  .message 14 (self.returnData.map fun returnData => fieldsWrite P returnData.fields),
  .implicit 15 (.bool self.returnDataNone),
  .optional 16 (self.computeUnitsConsumed.map .uint64)]

def SubscribeUpdateAccount.fields (self : SubscribeUpdateAccount) : List Field := [
  .message 1 (self.account.map fun account => fieldsWrite P account.fields),
  .implicit 2 (.uint64 self.slot),
  .implicit 3 (.bool self.isStartup)]

def SubscribeUpdateTransactionInfo.fields (self : SubscribeUpdateTransactionInfo) :
    List Field := [
  .implicit 1 (.bytes self.signature),
  .implicit 2 (.bool self.isVote),
  .message 3 (self.transaction.map fun transaction => fieldsWrite P (transaction.fields P)),
  .message 4 (self.txMeta.map fun txMeta => fieldsWrite P (txMeta.fields P)),
  .implicit 5 (.uint64 self.index)]

def SubscribeUpdateTransaction.fields (self : SubscribeUpdateTransaction) : List Field := [
  .message 1 (self.transaction.map fun transaction => fieldsWrite P (transaction.fields P)),
  .implicit 2 (.uint64 self.slot)]

def SubscribeUpdateBlockMeta.fields (self : SubscribeUpdateBlockMeta) : List Field := [
  .implicit 1 (.uint64 self.slot),
  .implicit 2 (.string self.blockhash),
  .message 3 (self.rewards.map fun rewards => fieldsWrite P (rewards.fields P)),
  .message 4 (self.blockTime.map fun blockTime => fieldsWrite P blockTime.fields),
  .message 5 (self.blockHeight.map fun blockHeight => fieldsWrite P blockHeight.fields),
  .implicit 6 (.uint64 self.parentSlot),
  .implicit 7 (.string self.parentBlockhash),
  .implicit 8 (.uint64 self.executedTransactionCount),
  .implicit 9 (.uint64 self.entriesCount)]

/-- The member of the `oneof` that is set. -/
def UpdateOneof.field : UpdateOneof → Field
  | .account message => .message 2 (some (fieldsWrite P (message.fields P)))
  | .slot message => .message 3 (some (fieldsWrite P message.fields))
  | .transaction message => .message 4 (some (fieldsWrite P (message.fields P)))
  | .blockMeta message => .message 7 (some (fieldsWrite P (message.fields P)))
  | .entry message => .message 8 (some (fieldsWrite P message.fields))

def SubscribeUpdate.fields (self : SubscribeUpdate) : List Field :=
  [.strings 1 (some self.filters)] ++ (self.updateOneof.map (UpdateOneof.field P)).toList ++
    [.message 11 (self.createdAt.map fun createdAt => fieldsWrite P createdAt.fields)]

end

end Dragonmouth.Proto

namespace Dragonmouth.Encoding

open Writer

-- ════════════════════════════════════════════════════════════════════════
-- Conversions
-- ════════════════════════════════════════════════════════════════════════

namespace ConvertTo

def createHeader (header : Plugin.MessageHeader) : Proto.MessageHeader where
  numRequiredSignatures := header.numRequiredSignatures.toNat
  numReadonlySignedAccounts := header.numReadonlySignedAccounts.toNat
  numReadonlyUnsignedAccounts := header.numReadonlyUnsignedAccounts.toNat

def createInstruction (ix : Plugin.CompiledInstruction) : Proto.CompiledInstruction where
  programIdIndex := ix.programIdIndex.toNat
  accounts := ix.accounts
  data := ix.data

def createLookup (lookup : Plugin.MessageAddressTableLookup) :
    Proto.MessageAddressTableLookup where
  accountKey := lookup.accountKey.toList
  writableIndexes := lookup.writableIndexes
  readonlyIndexes := lookup.readonlyIndexes

def createMessage : Plugin.SanitizedMessage → Proto.Message
  | .legacy header accountKeys recentBlockhash instructions =>
    { header := some (createHeader header)
      accountKeys := accountKeys.map (·.toList)
      recentBlockhash := recentBlockhash.toList
      instructions := instructions.map createInstruction
      versioned := false
      addressTableLookups := [] }
  | .v0 header accountKeys recentBlockhash instructions addressTableLookups =>
    { header := some (createHeader header)
      accountKeys := accountKeys.map (·.toList)
      recentBlockhash := recentBlockhash.toList
      instructions := instructions.map createInstruction
      versioned := true
      addressTableLookups := addressTableLookups.map createLookup }

def createTransaction (tx : Plugin.SanitizedTransaction) : Proto.Transaction where
  signatures := tx.signatures.map (·.toList)
  message := some (createMessage tx.message)

def createTransactionError : Except Plugin.TransactionError Unit → Option Proto.TransactionError
  | .ok _ => none
  | .error err => some ⟨err.bincode⟩

def createInnerInstruction (instruction : Plugin.InnerInstruction) : Proto.InnerInstruction where
  programIdIndex := instruction.instruction.programIdIndex.toNat
  accounts := instruction.instruction.accounts
  data := instruction.instruction.data
  stackHeight := instruction.stackHeight

def createInnerInstructions (instructions : Plugin.InnerInstructions) :
    Proto.InnerInstructions where
  index := instructions.index.toNat
  instructions := instructions.instructions.map createInnerInstruction

def createTokenBalance (balance : Plugin.TransactionTokenBalance) : Proto.TokenBalance where
  accountIndex := balance.accountIndex.toNat
  mint := balance.mint
  uiTokenAmount := some
    { uiAmount := balance.uiTokenAmount.uiAmount.getD F64.zero
      decimals := balance.uiTokenAmount.decimals.toNat
      amount := balance.uiTokenAmount.amount
      uiAmountString := balance.uiTokenAmount.uiAmountString }
  owner := balance.owner
  programId := balance.programId

def createRewardType : Option Plugin.RewardType → ℤ
  | none => 0
  | some .fee => 1
  | some .rent => 2
  | some .staking => 3
  | some .voting => 4

/-- The commission is its decimal string, or empty. -/
def createReward (reward : Plugin.Reward) : Proto.Reward where
  pubkey := reward.pubkey
  lamports := reward.lamports
  postBalance := reward.postBalance
  rewardType := createRewardType reward.rewardType
  commission := reward.commission.elim "" fun commission => toString commission.toNat

def createReturnData (returnData : Plugin.TransactionReturnData) : Proto.ReturnData where
  programId := returnData.programId.toList
  data := returnData.data

def createTransactionMeta (txMeta : Plugin.TransactionStatusMeta) :
    Proto.TransactionStatusMeta where
  err := createTransactionError txMeta.status
  fee := txMeta.fee
  preBalances := txMeta.preBalances
  postBalances := txMeta.postBalances
  innerInstructions := (txMeta.innerInstructions.getD []).map createInnerInstructions
  innerInstructionsNone := txMeta.innerInstructions.isNone
  logMessages := txMeta.logMessages.getD []
  logMessagesNone := txMeta.logMessages.isNone
  preTokenBalances := (txMeta.preTokenBalances.getD []).map createTokenBalance
  postTokenBalances := (txMeta.postTokenBalances.getD []).map createTokenBalance
  rewards := (txMeta.rewards.getD []).map createReward
  loadedWritableAddresses := txMeta.loadedAddresses.writable.map (·.toList)
  loadedReadonlyAddresses := txMeta.loadedAddresses.readonly.map (·.toList)
  returnData := txMeta.returnData.map createReturnData
  returnDataNone := txMeta.returnData.isNone
  computeUnitsConsumed := txMeta.computeUnitsConsumed

def createRewardsObj (rewards : List Plugin.Reward) (numPartitions : Option ℕ) :
    Proto.Rewards where
  rewards := rewards.map createReward
  numPartitions := numPartitions.map fun numPartitions => ⟨numPartitions⟩

end ConvertTo

/-- Strings and byte strings follow their key and their length; repeated strings are
written one by one. -/
structure Prost.WireFormat (P : Prost) : Prop where
  bytes : ∀ tag value, P.bytes.write tag value =
    delimited (P.encodeKey tag .lengthDelimited) P.encodeVarint value
  string : ∀ tag value, P.string.write tag value =
    delimited (P.encodeKey tag .lengthDelimited) P.encodeVarint (strBytes value)
  stringRepeated : ∀ tag values, P.stringRepeated.write tag values =
    values.flatMap (P.string.write tag)

/-- Generated messages write the fields of the schema, and the conversions copy. -/
structure Generated.Documented (G : Generated) (P : Prost) : Prop where
  timestamp : ∀ self : Proto.Timestamp, (G.timestamp self).Denotes (fieldsWrite P self.fields)
  unixTimestamp : ∀ self : Proto.UnixTimestamp,
    (G.unixTimestamp self).Denotes (fieldsWrite P self.fields)
  blockHeight : ∀ self : Proto.BlockHeight,
    (G.blockHeight self).Denotes (fieldsWrite P self.fields)
  numPartitions : ∀ self : Proto.NumPartitions,
    (G.numPartitions self).Denotes (fieldsWrite P self.fields)
  encodeToVec : ∀ self, G.encodeToVec self = fieldsWrite P (self.fields P)
  createTransaction : ∀ tx, G.createTransaction tx = ConvertTo.createTransaction tx
  createTransactionMeta : ∀ txMeta,
    G.createTransactionMeta txMeta = ConvertTo.createTransactionMeta txMeta
  createRewardsObj : ∀ rewards numPartitions,
    G.createRewardsObj rewards numPartitions = ConvertTo.createRewardsObj rewards numPartitions
  createNumPartitions : ∀ numPartitions, G.createNumPartitions numPartitions = ⟨numPartitions⟩

/-- Generated messages with the documented fields announce what they write. -/
theorem Generated.Documented.exact {G : Generated} {P : Prost} (h : G.Documented P) :
    G.Exact where
  timestamp self := ⟨_, h.timestamp self⟩
  unixTimestamp self := ⟨_, h.unixTimestamp self⟩
  blockHeight self := ⟨_, h.blockHeight self⟩
  numPartitions self := ⟨_, h.numPartitions self⟩

end Dragonmouth.Encoding
