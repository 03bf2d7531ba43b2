import Dragonmouth.Encoding.Prost

/-!
# The raw encoder

The messages the plugin writes without going through the generated types, each
with its two traversals: `encodeRaw`, the bytes, and `encodedLen`, their number.
The terms of a traversal stand in the order of the source.

## Main definitions

- `bytesEncode`, `bytesEncodedLen`: a byte string as a field
- `account`, `slot`, `transaction`, `entry`, `blockMeta`: the five updates
- `ProtobufMessage.encodeRaw`: an update with its timestamp
-/

namespace Dragonmouth.Encoding

open Writer
open Plugin (ReplicaAccountInfoV3 ReplicaTransactionInfoV2 ReplicaEntryInfoV2 ReplicaBlockInfoV4
  SlotStatus Reward RewardType RewardsAndNumPartitions SanitizedTransaction SanitizedMessage
  MessageHeader CompiledInstruction MessageAddressTableLookup TransactionStatusMeta
  TransactionError InnerInstructions InnerInstruction TransactionTokenBalance UiTokenAmount
  TransactionReturnData ProtobufMessage)

def pubkeyBytes : ℕ := 32

def signatureBytes : ℕ := 64

def numStrings : Array String := #[
    "0", "1", "2", "3", "4", "5", "6", "7", "8", "9", "10", "11", "12", "13", "14", "15", "16",
    "17", "18", "19", "20", "21", "22", "23", "24", "25", "26", "27", "28", "29", "30", "31",
    "32", "33", "34", "35", "36", "37", "38", "39", "40", "41", "42", "43", "44", "45", "46",
    "47", "48", "49", "50", "51", "52", "53", "54", "55", "56", "57", "58", "59", "60", "61",
    "62", "63", "64", "65", "66", "67", "68", "69", "70", "71", "72", "73", "74", "75", "76",
    "77", "78", "79", "80", "81", "82", "83", "84", "85", "86", "87", "88", "89", "90", "91",
    "92", "93", "94", "95", "96", "97", "98", "99", "100", "101", "102", "103", "104", "105",
    "106", "107", "108", "109", "110", "111", "112", "113", "114", "115", "116", "117", "118",
    "119", "120", "121", "122", "123", "124", "125", "126", "127", "128", "129", "130", "131",
    "132", "133", "134", "135", "136", "137", "138", "139", "140", "141", "142", "143", "144",
    "145", "146", "147", "148", "149", "150", "151", "152", "153", "154", "155", "156", "157",
    "158", "159", "160", "161", "162", "163", "164", "165", "166", "167", "168", "169", "170",
    "171", "172", "173", "174", "175", "176", "177", "178", "179", "180", "181", "182", "183",
    "184", "185", "186", "187", "188", "189", "190", "191", "192", "193", "194", "195", "196",
    "197", "198", "199", "200", "201", "202", "203", "204", "205", "206", "207", "208", "209",
    "210", "211", "212", "213", "214", "215", "216", "217", "218", "219", "220", "221", "222",
    "223", "224", "225", "226", "227", "228", "229", "230", "231", "232", "233", "234", "235",
    "236", "237", "238", "239", "240", "241", "242", "243", "244", "245", "246", "247", "248",
    "249", "250", "251", "252", "253", "254", "255"]

/-- `u8_to_static_str`. -/
def u8ToStaticStr (num : UInt8) : String := numStrings.getD num.toNat ""

def rewardTypeAsI32 : Option RewardType → ℤ
  | none => 0
  | some .fee => 1
  | some .rent => 2
  | some .staking => 3
  | some .voting => 4

def slotStatusAsI32 : SlotStatus → ℤ
  | .processed => 0
  | .rooted => 2
  | .confirmed => 1
  | .firstShredReceived => 3
  | .completed => 4
  | .createdBank => 5
  | .dead _ => 6

def slotStatusAsDeadError : SlotStatus → Option String
  | .dead dead => some dead
  | _ => none

section

variable (P : Prost) (G : Generated)

def bytesEncode (tag : ℕ) (value : Bytes) : Encode :=
  emit (P.encodeKey tag .lengthDelimited ++ P.encodeVarint value.length ++ value)

def bytesEncodedLen (tag : ℕ) (value : Bytes) : Measure :=
  size (P.keyLen tag + P.encodedLenVarint value.length + value.length)

def signaturesEncode (tag : ℕ) (signatures : List Signature) : Encode :=
  seq (signatures.map fun signature => bytesEncode P tag signature.toList)

def signaturesEncodedLen (tag : ℕ) (signatures : List Signature) : Measure :=
  size ((P.keyLen tag + P.encodedLenVarint signatureBytes + signatureBytes) * signatures.length)

def pubkeysEncode (tag : ℕ) (pubkeys : List Pubkey) : Encode :=
  seq (pubkeys.map fun pubkey => bytesEncode P tag pubkey.toList)

def pubkeysEncodedLen (tag : ℕ) (pubkeys : List Pubkey) : Measure :=
  size ((P.keyLen tag + P.encodedLenVarint pubkeyBytes + pubkeyBytes) * pubkeys.length)

def versionedEncode (tag : ℕ) (versioned : Bool) : Encode :=
  emitWhen (versioned = true) (P.bool.encode tag versioned)

def versionedEncodedLen (tag : ℕ) (versioned : Bool) : Measure :=
  sizeWhen (versioned = true) (P.bool.encodedLen tag versioned)

/-- `account::ReplicaWrapper`. -/
def accountReplicaWrapper (self : ReplicaAccountInfoV3) : Message where
  encodeRaw := seq [
    bytesEncode P 1 self.pubkey,
    emitWhen (self.lamports ≠ 0) (P.uint64.encode 2 self.lamports),
    bytesEncode P 3 self.owner,
    emitWhen (self.executable = true) (P.bool.encode 4 self.executable),
    emitWhen (self.rentEpoch ≠ 0) (P.uint64.encode 5 self.rentEpoch),
    emitWhen (self.data ≠ []) (bytesEncode P 6 self.data),
    emitWhen (self.writeVersion ≠ 0) (P.uint64.encode 7 self.writeVersion),
    emitSome self.txn fun txn => bytesEncode P 8 txn.signature.toList]
  encodedLen := total [
    bytesEncodedLen P 1 self.pubkey,
    sizeWhen (self.lamports ≠ 0) (P.uint64.encodedLen 2 self.lamports),
    bytesEncodedLen P 3 self.owner,
    sizeWhen (self.executable = true) (P.bool.encodedLen 4 self.executable),
    sizeWhen (self.rentEpoch ≠ 0) (P.uint64.encodedLen 5 self.rentEpoch),
    sizeWhen (self.data ≠ []) (bytesEncodedLen P 6 self.data),
    sizeWhen (self.writeVersion ≠ 0) (P.uint64.encodedLen 7 self.writeVersion),
    sizeSome self.txn fun txn => bytesEncodedLen P 8 txn.signature.toList]

def account (slot : Slot) (account : ReplicaAccountInfoV3) : Message where
  encodeRaw := seq [
    P.messageEncode 1 (accountReplicaWrapper P account),
    emitWhen (slot ≠ 0) (P.uint64.encode 2 slot)]
  encodedLen := total [
    P.messageEncodedLen 1 (accountReplicaWrapper P account),
    sizeWhen (slot ≠ 0) (P.uint64.encodedLen 2 slot)]

/-- `CommitmentLevel::default() as i32` is the number of `Processed`. -/
def slot (slot : Slot) (parent : Option Slot) (status : SlotStatus) : Message where
  encodeRaw := seq [
    emitWhen (slot ≠ 0) (P.uint64.encode 1 slot),
    emitSome parent fun value => P.uint64.encode 2 value,
    emitWhen (slotStatusAsI32 status ≠ Proto.CommitmentLevel.processed.toInt32)
      (P.int32.encode 3 (slotStatusAsI32 status)),
    emitSome (slotStatusAsDeadError status) fun value => P.string.encode 4 value]
  encodedLen := total [
    sizeWhen (slot ≠ 0) (P.uint64.encodedLen 1 slot),
    sizeSome parent fun value => P.uint64.encodedLen 2 value,
    sizeWhen (slotStatusAsI32 status ≠ Proto.CommitmentLevel.processed.toInt32)
      (P.int32.encodedLen 3 (slotStatusAsI32 status)),
    sizeSome (slotStatusAsDeadError status) fun value => P.string.encodedLen 4 value]

def entry (entry : ReplicaEntryInfoV2) : Message where
  encodeRaw := seq [
    emitWhen (entry.slot ≠ 0) (P.uint64.encode 1 entry.slot),
    emitWhen (entry.index ≠ 0) (P.uint64.encode 2 entry.index),
    emitWhen (entry.numHashes ≠ 0) (P.uint64.encode 3 entry.numHashes),
    bytesEncode P 4 entry.hash,
    emitWhen (entry.executedTransactionCount ≠ 0)
      (P.uint64.encode 5 entry.executedTransactionCount),
    emitWhen (entry.startingTransactionIndex ≠ 0)
      (P.uint64.encode 6 entry.startingTransactionIndex)]
  encodedLen := total [
    sizeWhen (entry.slot ≠ 0) (P.uint64.encodedLen 1 entry.slot),
    sizeWhen (entry.index ≠ 0) (P.uint64.encodedLen 2 entry.index),
    sizeWhen (entry.numHashes ≠ 0) (P.uint64.encodedLen 3 entry.numHashes),
    bytesEncodedLen P 4 entry.hash,
    sizeWhen (entry.executedTransactionCount ≠ 0)
      (P.uint64.encodedLen 5 entry.executedTransactionCount),
    sizeWhen (entry.startingTransactionIndex ≠ 0)
      (P.uint64.encodedLen 6 entry.startingTransactionIndex)]

def rewardWrapper (self : Reward) : Message where
  encodeRaw := seq [
    emitWhen (self.pubkey ≠ "") (P.string.encode 1 self.pubkey),
    emitWhen (self.lamports ≠ 0) (P.int64.encode 2 self.lamports),
    emitWhen (self.postBalance ≠ 0) (P.uint64.encode 3 self.postBalance),
    emitWhen (self.rewardType.isSome = true)
      (P.int32.encode 4 (rewardTypeAsI32 self.rewardType)),
    emitSome self.commission fun commission =>
      bytesEncode P 5 (strBytes (u8ToStaticStr commission))]
  encodedLen := total [
    sizeWhen (self.pubkey ≠ "") (P.string.encodedLen 1 self.pubkey),
    sizeWhen (self.lamports ≠ 0) (P.int64.encodedLen 2 self.lamports),
    sizeWhen (self.postBalance ≠ 0) (P.uint64.encodedLen 3 self.postBalance),
    sizeWhen (self.rewardType.isSome = true)
      (P.int32.encodedLen 4 (rewardTypeAsI32 self.rewardType)),
    sizeSome self.commission fun commission =>
      bytesEncodedLen P 5 (strBytes (u8ToStaticStr commission))]

def rewardsAndNumPartitionsWrapper (self : RewardsAndNumPartitions) : Message where
  encodeRaw := seq [
    P.messageEncodeRepeated 1 (self.rewards.map (rewardWrapper P)),
    emitSome self.numPartitions fun numPartitions =>
      P.messageEncode 2 (G.numPartitions (G.createNumPartitions numPartitions))]
  encodedLen := total [
    P.messageEncodedLenRepeated 1 (self.rewards.map (rewardWrapper P)),
    sizeSome self.numPartitions fun numPartitions =>
      P.messageEncodedLen 2 (G.numPartitions (G.createNumPartitions numPartitions))]

def blockMeta (blockinfo : ReplicaBlockInfoV4) : Message where
  encodeRaw := seq [
    emitWhen (blockinfo.slot ≠ 0) (P.uint64.encode 1 blockinfo.slot),
    emitWhen (blockinfo.blockhash ≠ "") (bytesEncode P 2 (strBytes blockinfo.blockhash)),
    P.messageEncode 3 (rewardsAndNumPartitionsWrapper P G blockinfo.rewards),
    emitSome blockinfo.blockTime fun blockTime =>
      P.messageEncode 4 (G.unixTimestamp (G.createTimestamp blockTime)),
    emitSome blockinfo.blockHeight fun blockHeight =>
      P.messageEncode 5 (G.blockHeight (G.createBlockHeight blockHeight)),
    emitWhen (blockinfo.parentSlot ≠ 0) (P.uint64.encode 6 blockinfo.parentSlot),
    emitWhen (blockinfo.parentBlockhash ≠ "")
      (bytesEncode P 7 (strBytes blockinfo.parentBlockhash)),
    emitWhen (blockinfo.executedTransactionCount ≠ 0)
      (P.uint64.encode 8 blockinfo.executedTransactionCount),
    emitWhen (blockinfo.entryCount ≠ 0) (P.uint64.encode 9 blockinfo.entryCount)]
  encodedLen := total [
    sizeWhen (blockinfo.slot ≠ 0) (P.uint64.encodedLen 1 blockinfo.slot),
    sizeWhen (blockinfo.blockhash ≠ "") (bytesEncodedLen P 2 (strBytes blockinfo.blockhash)),
    P.messageEncodedLen 3 (rewardsAndNumPartitionsWrapper P G blockinfo.rewards),
    sizeSome blockinfo.blockTime fun blockTime =>
      P.messageEncodedLen 4 (G.unixTimestamp (G.createTimestamp blockTime)),
    sizeSome blockinfo.blockHeight fun blockHeight =>
      P.messageEncodedLen 5 (G.blockHeight (G.createBlockHeight blockHeight)),
    sizeWhen (blockinfo.parentSlot ≠ 0) (P.uint64.encodedLen 6 blockinfo.parentSlot),
    sizeWhen (blockinfo.parentBlockhash ≠ "")
      (bytesEncodedLen P 7 (strBytes blockinfo.parentBlockhash)),
    sizeWhen (blockinfo.executedTransactionCount ≠ 0)
      (P.uint64.encodedLen 8 blockinfo.executedTransactionCount),
    sizeWhen (blockinfo.entryCount ≠ 0) (P.uint64.encodedLen 9 blockinfo.entryCount)]

-- ════════════════════════════════════════════════════════════════════════
-- Transactions
-- ════════════════════════════════════════════════════════════════════════

def messageHeaderWrapper (self : MessageHeader) : Message where
  encodeRaw := seq [
    emitWhen (self.numRequiredSignatures.toNat ≠ 0)
      (P.uint32.encode 1 self.numRequiredSignatures.toNat),
    emitWhen (self.numReadonlySignedAccounts.toNat ≠ 0)
      (P.uint32.encode 2 self.numReadonlySignedAccounts.toNat),
    emitWhen (self.numReadonlyUnsignedAccounts.toNat ≠ 0)
      (P.uint32.encode 3 self.numReadonlyUnsignedAccounts.toNat)]
  encodedLen := total [
    sizeWhen (self.numRequiredSignatures.toNat ≠ 0)
      (P.uint32.encodedLen 1 self.numRequiredSignatures.toNat),
    sizeWhen (self.numReadonlySignedAccounts.toNat ≠ 0)
      (P.uint32.encodedLen 2 self.numReadonlySignedAccounts.toNat),
    sizeWhen (self.numReadonlyUnsignedAccounts.toNat ≠ 0)
      (P.uint32.encodedLen 3 self.numReadonlyUnsignedAccounts.toNat)]

def compiledInstructionWrapper (self : CompiledInstruction) : Message where
  encodeRaw := seq [
    emitWhen (self.programIdIndex.toNat ≠ 0) (P.uint32.encode 1 self.programIdIndex.toNat),
    emitWhen (self.accounts ≠ []) (bytesEncode P 2 self.accounts),
    emitWhen (self.data ≠ []) (bytesEncode P 3 self.data)]
  encodedLen := total [
    sizeWhen (self.programIdIndex.toNat ≠ 0) (P.uint32.encodedLen 1 self.programIdIndex.toNat),
    sizeWhen (self.accounts ≠ []) (bytesEncodedLen P 2 self.accounts),
    sizeWhen (self.data ≠ []) (bytesEncodedLen P 3 self.data)]

def messageAddressTableLookupWrapper (self : MessageAddressTableLookup) : Message where
  encodeRaw := seq [
    bytesEncode P 1 self.accountKey.toList,
    emitWhen (self.writableIndexes ≠ []) (bytesEncode P 2 self.writableIndexes),
    emitWhen (self.readonlyIndexes ≠ []) (bytesEncode P 3 self.readonlyIndexes)]
  encodedLen := total [
    bytesEncodedLen P 1 self.accountKey.toList,
    sizeWhen (self.writableIndexes ≠ []) (bytesEncodedLen P 2 self.writableIndexes),
    sizeWhen (self.readonlyIndexes ≠ []) (bytesEncodedLen P 3 self.readonlyIndexes)]

def sanitizedMessageWrapper : SanitizedMessage → Message
  | .legacy header accountKeys recentBlockhash instructions =>
    { encodeRaw := seq [
        P.messageEncode 1 (messageHeaderWrapper P header),
        pubkeysEncode P 2 accountKeys,
        bytesEncode P 3 recentBlockhash.toList,
        P.messageEncodeRepeated 4 (instructions.map (compiledInstructionWrapper P)),
        versionedEncode P 5 false,
        P.messageEncodeRepeated 6 ([].map (messageAddressTableLookupWrapper P))]
      encodedLen := total [
        P.messageEncodedLen 1 (messageHeaderWrapper P header),
        pubkeysEncodedLen P 2 accountKeys,
        bytesEncodedLen P 3 recentBlockhash.toList,
        P.messageEncodedLenRepeated 4 (instructions.map (compiledInstructionWrapper P)),
        versionedEncodedLen P 5 false,
        P.messageEncodedLenRepeated 6 ([].map (messageAddressTableLookupWrapper P))] }
  | .v0 header accountKeys recentBlockhash instructions addressTableLookups =>
    { encodeRaw := seq [
        P.messageEncode 1 (messageHeaderWrapper P header),
        pubkeysEncode P 2 accountKeys,
        bytesEncode P 3 recentBlockhash.toList,
        P.messageEncodeRepeated 4 (instructions.map (compiledInstructionWrapper P)),
        versionedEncode P 5 true,
        P.messageEncodeRepeated 6
          (addressTableLookups.map (messageAddressTableLookupWrapper P))]
      encodedLen := total [
        P.messageEncodedLen 1 (messageHeaderWrapper P header),
        pubkeysEncodedLen P 2 accountKeys,
        bytesEncodedLen P 3 recentBlockhash.toList,
        P.messageEncodedLenRepeated 4 (instructions.map (compiledInstructionWrapper P)),
        versionedEncodedLen P 5 true,
        P.messageEncodedLenRepeated 6
          (addressTableLookups.map (messageAddressTableLookupWrapper P))] }

def sanitizedTransactionWrapper (self : SanitizedTransaction) : Message where
  encodeRaw := seq [
    signaturesEncode P 1 self.signatures,
    P.messageEncode 2 (sanitizedMessageWrapper P self.message)]
  encodedLen := total [
    signaturesEncodedLen P 1 self.signatures,
    P.messageEncodedLen 2 (sanitizedMessageWrapper P self.message)]

/-- The length is that of the serialized error, which it leaves in the buffer; the
bytes are those found in the buffer. -/
def transactionErrorWrapper (self : TransactionError) : Message where
  encodeRaw := fun buffer =>
    emitWhen (buffer ≠ []) (P.bytes.encode 1 buffer) buffer
  encodedLen := fun _ =>
    let buffer := self.bincode
    sizeWhen (buffer ≠ []) (P.bytes.encodedLen 1 buffer) buffer

def innerInstructionWrapper (self : InnerInstruction) : Message where
  encodeRaw := seq [
    emitWhen (self.instruction.programIdIndex.toNat ≠ 0)
      (P.uint32.encode 1 self.instruction.programIdIndex.toNat),
    emitWhen (self.instruction.accounts ≠ []) (bytesEncode P 2 self.instruction.accounts),
    emitWhen (self.instruction.data ≠ []) (bytesEncode P 3 self.instruction.data),
    emitSome self.stackHeight fun stackHeight => P.uint32.encode 4 stackHeight]
  encodedLen := total [
    sizeWhen (self.instruction.programIdIndex.toNat ≠ 0)
      (P.uint32.encodedLen 1 self.instruction.programIdIndex.toNat),
    sizeWhen (self.instruction.accounts ≠ []) (bytesEncodedLen P 2 self.instruction.accounts),
    sizeWhen (self.instruction.data ≠ []) (bytesEncodedLen P 3 self.instruction.data),
    sizeSome self.stackHeight fun stackHeight => P.uint32.encodedLen 4 stackHeight]

def innerInstructionsWrapper (self : InnerInstructions) : Message where
  encodeRaw := seq [
    emitWhen (self.index.toNat ≠ 0) (P.uint32.encode 1 self.index.toNat),
    P.messageEncodeRepeated 2 (self.instructions.map (innerInstructionWrapper P))]
  encodedLen := total [
    sizeWhen (self.index.toNat ≠ 0) (P.uint32.encodedLen 1 self.index.toNat),
    P.messageEncodedLenRepeated 2 (self.instructions.map (innerInstructionWrapper P))]

def uiTokenAmountWrapper (self : UiTokenAmount) : Message where
  encodeRaw := seq [
    emitWhen ((self.uiAmount.getD F64.zero).neZero = true)
      (P.double.encode 1 (self.uiAmount.getD F64.zero)),
    emitWhen (self.decimals.toNat ≠ 0) (P.uint32.encode 2 self.decimals.toNat),
    emitWhen (self.amount ≠ "") (P.string.encode 3 self.amount),
    emitWhen (self.uiAmountString ≠ "") (P.string.encode 4 self.uiAmountString)]
  encodedLen := total [
    sizeWhen ((self.uiAmount.getD F64.zero).neZero = true)
      (P.double.encodedLen 1 (self.uiAmount.getD F64.zero)),
    sizeWhen (self.decimals.toNat ≠ 0) (P.uint32.encodedLen 2 self.decimals.toNat),
    sizeWhen (self.amount ≠ "") (P.string.encodedLen 3 self.amount),
    sizeWhen (self.uiAmountString ≠ "") (P.string.encodedLen 4 self.uiAmountString)]

def transactionTokenBalanceWrapper (self : TransactionTokenBalance) : Message where
  encodeRaw := seq [
    emitWhen (self.accountIndex.toNat ≠ 0) (P.uint32.encode 1 self.accountIndex.toNat),
    emitWhen (self.mint ≠ "") (P.string.encode 2 self.mint),
    P.messageEncode 3 (uiTokenAmountWrapper P self.uiTokenAmount),
    emitWhen (self.owner ≠ "") (P.string.encode 4 self.owner),
    emitWhen (self.programId ≠ "") (P.string.encode 5 self.programId)]
  encodedLen := total [
    sizeWhen (self.accountIndex.toNat ≠ 0) (P.uint32.encodedLen 1 self.accountIndex.toNat),
    sizeWhen (self.mint ≠ "") (P.string.encodedLen 2 self.mint),
    P.messageEncodedLen 3 (uiTokenAmountWrapper P self.uiTokenAmount),
    sizeWhen (self.owner ≠ "") (P.string.encodedLen 4 self.owner),
    sizeWhen (self.programId ≠ "") (P.string.encodedLen 5 self.programId)]

def transactionReturnDataWrapper (self : TransactionReturnData) : Message where
  encodeRaw := seq [
    bytesEncode P 1 self.programId.toList,
    emitWhen (self.data ≠ []) (bytesEncode P 2 self.data)]
  encodedLen := total [
    bytesEncodedLen P 1 self.programId.toList,
    sizeWhen (self.data ≠ []) (bytesEncodedLen P 2 self.data)]

/-- `self.status.as_ref().err()`. -/
def statusErr (self : TransactionStatusMeta) : Option TransactionError :=
  match self.status with
  | .error err => some err
  | .ok _ => none

def transactionStatusMetaWrapper (self : TransactionStatusMeta) : Message where
  encodeRaw := seq [
    emitSome (statusErr self) fun err => P.messageEncode 1 (transactionErrorWrapper P err),
    emitWhen (self.fee ≠ 0) (P.uint64.encode 2 self.fee),
    P.uint64Packed.encode 3 self.preBalances,
    P.uint64Packed.encode 4 self.postBalances,
    emitSome self.innerInstructions fun innerInstructions =>
      P.messageEncodeRepeated 5 (innerInstructions.map (innerInstructionsWrapper P)),
    emitSome self.logMessages fun logMessages => P.stringRepeated.encode 6 logMessages,
    emitSome self.preTokenBalances fun preTokenBalances =>
      P.messageEncodeRepeated 7 (preTokenBalances.map (transactionTokenBalanceWrapper P)),
    emitSome self.postTokenBalances fun postTokenBalances =>
      P.messageEncodeRepeated 8 (postTokenBalances.map (transactionTokenBalanceWrapper P)),
    emitSome self.rewards fun rewards =>
      P.messageEncodeRepeated 9 (rewards.map (rewardWrapper P)),
    emitWhen (self.innerInstructions.isNone = true)
      (P.bool.encode 10 self.innerInstructions.isNone),
    emitWhen (self.logMessages.isNone = true) (P.bool.encode 11 self.logMessages.isNone),
    pubkeysEncode P 12 self.loadedAddresses.writable,
    pubkeysEncode P 13 self.loadedAddresses.readonly,
    emitSome self.returnData fun returnData =>
      P.messageEncode 14 (transactionReturnDataWrapper P returnData),
    emitWhen (self.returnData.isNone = true) (P.bool.encode 15 self.returnData.isNone),
    emitSome self.computeUnitsConsumed fun computeUnitsConsumed =>
      P.uint64.encode 16 computeUnitsConsumed]
  encodedLen := total [
    sizeSome (statusErr self) fun err => P.messageEncodedLen 1 (transactionErrorWrapper P err),
    sizeWhen (self.fee ≠ 0) (P.uint64.encodedLen 2 self.fee),
    P.uint64Packed.encodedLen 3 self.preBalances,
    P.uint64Packed.encodedLen 4 self.postBalances,
    sizeSome self.innerInstructions fun innerInstructions =>
      P.messageEncodedLenRepeated 5 (innerInstructions.map (innerInstructionsWrapper P)),
    sizeSome self.logMessages fun logMessages => P.stringRepeated.encodedLen 6 logMessages,
    sizeSome self.preTokenBalances fun preTokenBalances =>
      P.messageEncodedLenRepeated 7 (preTokenBalances.map (transactionTokenBalanceWrapper P)),
    sizeSome self.postTokenBalances fun postTokenBalances =>
      P.messageEncodedLenRepeated 8 (postTokenBalances.map (transactionTokenBalanceWrapper P)),
    sizeSome self.rewards fun rewards =>
      P.messageEncodedLenRepeated 9 (rewards.map (rewardWrapper P)),
    sizeWhen (self.innerInstructions.isNone = true)
      (P.bool.encodedLen 10 self.innerInstructions.isNone),
    sizeWhen (self.logMessages.isNone = true) (P.bool.encodedLen 11 self.logMessages.isNone),
    pubkeysEncodedLen P 12 self.loadedAddresses.writable,
    pubkeysEncodedLen P 13 self.loadedAddresses.readonly,
    sizeSome self.returnData fun returnData =>
      P.messageEncodedLen 14 (transactionReturnDataWrapper P returnData),
    sizeWhen (self.returnData.isNone = true) (P.bool.encodedLen 15 self.returnData.isNone),
    sizeSome self.computeUnitsConsumed fun computeUnitsConsumed =>
      P.uint64.encodedLen 16 computeUnitsConsumed]

/-- `transaction::ReplicaWrapper`. -/
def transactionReplicaWrapper (self : ReplicaTransactionInfoV2) : Message where
  encodeRaw := seq [
    bytesEncode P 1 self.signature.toList,
    emitWhen (self.isVote = true) (P.bool.encode 2 self.isVote),
    P.messageEncode 3 (sanitizedTransactionWrapper P self.transaction),
    P.messageEncode 4 (transactionStatusMetaWrapper P self.transactionStatusMeta),
    emitWhen (self.index ≠ 0) (P.uint64.encode 5 self.index)]
  encodedLen := total [
    bytesEncodedLen P 1 self.signature.toList,
    sizeWhen (self.isVote = true) (P.bool.encodedLen 2 self.isVote),
    P.messageEncodedLen 3 (sanitizedTransactionWrapper P self.transaction),
    P.messageEncodedLen 4 (transactionStatusMetaWrapper P self.transactionStatusMeta),
    sizeWhen (self.index ≠ 0) (P.uint64.encodedLen 5 self.index)]

def transaction (slot : Slot) (transaction : ReplicaTransactionInfoV2) : Message where
  encodeRaw := seq [
    P.messageEncode 1 (transactionReplicaWrapper P transaction),
    emitWhen (slot ≠ 0) (P.uint64.encode 2 slot)]
  encodedLen := total [
    P.messageEncodedLen 1 (transactionReplicaWrapper P transaction),
    sizeWhen (slot ≠ 0) (P.uint64.encodedLen 2 slot)]

/-- The capacity `ProtobufMessage::encode_raw` reserves. -/
def rawSize (self : ProtobufMessage) (createdAt : Proto.Timestamp) : Measure := total [
  match self with
  | .account s replica => P.messageEncodedLen 2 (account P s replica)
  | .slot s parent status => P.messageEncodedLen 3 (slot P s parent status)
  | .transaction s replica => P.messageEncodedLen 4 (transaction P s replica)
  | .blockMeta blockinfo => P.messageEncodedLen 7 (blockMeta P G blockinfo)
  | .entry replica => P.messageEncodedLen 8 (entry P replica),
  P.messageEncodedLen 11 (G.timestamp createdAt)]

/-- What `ProtobufMessage::encode_raw` writes to the vector. -/
def rawBytes (self : ProtobufMessage) (createdAt : Proto.Timestamp) : Encode := seq [
  match self with
  | .account s replica => P.messageEncode 2 (account P s replica)
  | .slot s parent status => P.messageEncode 3 (slot P s parent status)
  | .transaction s replica => P.messageEncode 4 (transaction P s replica)
  | .blockMeta blockinfo => P.messageEncode 7 (blockMeta P G blockinfo)
  | .entry replica => P.messageEncode 8 (entry P replica),
  P.messageEncode 11 (G.timestamp createdAt)]

/-- `ProtobufMessage::encode_raw`, with the capacity it reserves. -/
def encodeRaw (self : ProtobufMessage) (createdAt : Proto.Timestamp) (buffer : Buffer) :
    (ℕ × Bytes) × Buffer :=
  let (capacity, buffer) := rawSize P G self createdAt buffer
  let (vec, buffer) := rawBytes P G self createdAt buffer
  ((capacity, vec), buffer)

end

end Dragonmouth.Encoding
