import Dragonmouth.Proto.Geyser

/-!
# Messages of the validator plugin

The data the validator hands to the plugin and the message the plugin builds
from it. The replica types list the fields the encoders and the channel read.
-/

namespace Dragonmouth.Plugin

structure MessageHeader where
  numRequiredSignatures : UInt8
  numReadonlySignedAccounts : UInt8
  numReadonlyUnsignedAccounts : UInt8

structure CompiledInstruction where
  programIdIndex : UInt8
  accounts : Bytes
  data : Bytes

structure MessageAddressTableLookup where
  accountKey : Pubkey
  writableIndexes : Bytes
  readonlyIndexes : Bytes

/-- A legacy message or the message inside a loaded v0 message. -/
inductive SanitizedMessage where
  | legacy (header : MessageHeader) (accountKeys : List Pubkey) (recentBlockhash : Hash)
      (instructions : List CompiledInstruction)
  | v0 (header : MessageHeader) (accountKeys : List Pubkey) (recentBlockhash : Hash)
      (instructions : List CompiledInstruction)
      (addressTableLookups : List MessageAddressTableLookup)

/-- A sanitized transaction has at least one signature. -/
structure SanitizedTransaction where
  signatures : List Signature
  signed : signatures ≠ []
  message : SanitizedMessage

/-- The first signature, which identifies the transaction. -/
def SanitizedTransaction.signature (tx : SanitizedTransaction) : Signature :=
  tx.signatures.head tx.signed

/-- A transaction error, known by the bytes `bincode` writes for it. -/
structure TransactionError where
  bincode : Bytes

structure InnerInstruction where
  instruction : CompiledInstruction
  stackHeight : Option ℕ

structure InnerInstructions where
  index : UInt8
  instructions : List InnerInstruction

structure UiTokenAmount where
  uiAmount : Option F64
  decimals : UInt8
  amount : String
  uiAmountString : String

structure TransactionTokenBalance where
  accountIndex : UInt8
  mint : String
  uiTokenAmount : UiTokenAmount
  owner : String
  programId : String

inductive RewardType where
  | fee
  | rent
  | staking
  | voting
  deriving DecidableEq

structure Reward where
  pubkey : String
  lamports : ℤ
  postBalance : ℕ
  rewardType : Option RewardType
  commission : Option UInt8

structure RewardsAndNumPartitions where
  rewards : List Reward
  numPartitions : Option ℕ

structure LoadedAddresses where
  writable : List Pubkey
  readonly : List Pubkey

structure TransactionReturnData where
  programId : Pubkey
  data : Bytes

structure TransactionStatusMeta where
  status : Except TransactionError Unit
  fee : ℕ
  preBalances : List ℕ
  postBalances : List ℕ
  innerInstructions : Option (List InnerInstructions)
  logMessages : Option (List String)
  preTokenBalances : Option (List TransactionTokenBalance)
  postTokenBalances : Option (List TransactionTokenBalance)
  rewards : Option (List Reward)
  loadedAddresses : LoadedAddresses
  returnData : Option TransactionReturnData
  computeUnitsConsumed : Option ℕ

structure ReplicaAccountInfoV3 where
  pubkey : Bytes
  lamports : ℕ
  owner : Bytes
  executable : Bool
  rentEpoch : ℕ
  data : Bytes
  writeVersion : ℕ
  txn : Option SanitizedTransaction

structure ReplicaTransactionInfoV2 where
  signature : Signature
  isVote : Bool
  transaction : SanitizedTransaction
  transactionStatusMeta : TransactionStatusMeta
  index : ℕ

structure ReplicaEntryInfoV2 where
  slot : Slot
  index : ℕ
  numHashes : ℕ
  hash : Bytes
  executedTransactionCount : ℕ
  startingTransactionIndex : ℕ

structure ReplicaBlockInfoV4 where
  parentSlot : Slot
  parentBlockhash : String
  slot : Slot
  blockhash : String
  rewards : RewardsAndNumPartitions
  blockTime : Option ℤ
  blockHeight : Option ℕ
  executedTransactionCount : ℕ
  entryCount : ℕ

inductive SlotStatus where
  | processed
  | rooted
  | confirmed
  | firstShredReceived
  | completed
  | createdBank
  | dead (error : String)
  deriving DecidableEq

/-- The kind of a message, which a subscriber may have disabled. -/
inductive PluginNotification where
  | slot
  | account
  | transaction
  | entry
  | blockMeta
  deriving DecidableEq

inductive ProtobufMessage where
  | account (slot : Slot) (account : ReplicaAccountInfoV3)
  | slot (slot : Slot) (parent : Option Slot) (status : SlotStatus)
  | transaction (slot : Slot) (transaction : ReplicaTransactionInfoV2)
  | entry (entry : ReplicaEntryInfoV2)
  | blockMeta (blockinfo : ReplicaBlockInfoV4)

namespace ProtobufMessage

def getPluginNotification : ProtobufMessage → PluginNotification
  | .account .. => .account
  | .slot .. => .slot
  | .transaction .. => .transaction
  | .entry .. => .entry
  | .blockMeta .. => .blockMeta

def getSlot : ProtobufMessage → Slot
  | .account s _ => s
  | .slot s _ _ => s
  | .transaction s _ => s
  | .entry e => e.slot
  | .blockMeta b => b.slot

end ProtobufMessage

end Dragonmouth.Plugin
