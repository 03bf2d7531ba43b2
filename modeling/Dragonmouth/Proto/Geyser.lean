import Mathlib.Data.Int.Notation
import Mathlib.Data.Nat.Notation

/-!
# Data types of the wire schema

The messages of the geyser and confirmed-block schemas that the program fills
in or takes apart, field by field. Unsigned integers are natural numbers and
signed integers are integers; a double is kept as its bit pattern.
-/

namespace Dragonmouth

/-- A slot number. -/
abbrev Slot := ℕ

/-- A byte string. -/
abbrev Bytes := List UInt8

/-- A public key, `PUBKEY_BYTES` bytes. -/
abbrev Pubkey := Vector UInt8 32

/-- A signature, `SIGNATURE_BYTES` bytes. -/
abbrev Signature := Vector UInt8 64

/-- A hash, `HASH_BYTES` bytes. -/
abbrev Hash := Vector UInt8 32

/-- The bytes of a string. -/
def strBytes (s : String) : Bytes := s.toUTF8.data.toList

/-- A double, as its IEEE bit pattern. -/
structure F64 where
  bits : UInt64
  deriving DecidableEq

/-- The double `+0.0`. -/
def F64.zero : F64 := ⟨0⟩

/-- The comparison `x != 0f64`: it fails for both zeros and only for them. -/
def F64.neZero (x : F64) : Bool := x.bits <<< 1 != 0

namespace Proto

structure Timestamp where
  seconds : ℤ
  nanos : ℤ
  deriving DecidableEq

structure UnixTimestamp where
  timestamp : ℤ
  deriving DecidableEq

structure BlockHeight where
  blockHeight : ℕ
  deriving DecidableEq

structure NumPartitions where
  numPartitions : ℕ
  deriving DecidableEq

structure MessageHeader where
  numRequiredSignatures : ℕ
  numReadonlySignedAccounts : ℕ
  numReadonlyUnsignedAccounts : ℕ
  deriving DecidableEq

structure CompiledInstruction where
  programIdIndex : ℕ
  accounts : Bytes
  data : Bytes
  deriving DecidableEq

structure MessageAddressTableLookup where
  accountKey : Bytes
  writableIndexes : Bytes
  readonlyIndexes : Bytes
  deriving DecidableEq

structure Message where
  header : Option MessageHeader
  accountKeys : List Bytes
  recentBlockhash : Bytes
  instructions : List CompiledInstruction
  versioned : Bool
  addressTableLookups : List MessageAddressTableLookup
  deriving DecidableEq

structure Transaction where
  signatures : List Bytes
  message : Option Message
  deriving DecidableEq

structure TransactionError where
  err : Bytes
  deriving DecidableEq

structure InnerInstruction where
  programIdIndex : ℕ
  accounts : Bytes
  data : Bytes
  stackHeight : Option ℕ
  deriving DecidableEq

structure InnerInstructions where
  index : ℕ
  instructions : List InnerInstruction
  deriving DecidableEq

structure UiTokenAmount where
  uiAmount : F64
  decimals : ℕ
  amount : String
  uiAmountString : String
  deriving DecidableEq

structure TokenBalance where
  accountIndex : ℕ
  mint : String
  uiTokenAmount : Option UiTokenAmount
  owner : String
  programId : String
  deriving DecidableEq

structure Reward where
  pubkey : String
  lamports : ℤ
  postBalance : ℕ
  rewardType : ℤ
  commission : String
  deriving DecidableEq

structure Rewards where
  rewards : List Reward
  numPartitions : Option NumPartitions
  deriving DecidableEq

structure ReturnData where
  programId : Bytes
  data : Bytes
  deriving DecidableEq

structure TransactionStatusMeta where
  err : Option TransactionError
  fee : ℕ
  preBalances : List ℕ
  postBalances : List ℕ
  innerInstructions : List InnerInstructions
  innerInstructionsNone : Bool
  logMessages : List String
  logMessagesNone : Bool
  preTokenBalances : List TokenBalance
  postTokenBalances : List TokenBalance
  rewards : List Reward
  loadedWritableAddresses : List Bytes
  loadedReadonlyAddresses : List Bytes
  returnData : Option ReturnData
  returnDataNone : Bool
  computeUnitsConsumed : Option ℕ
  deriving DecidableEq

/-- `geyser::CommitmentLevel`, in the order of its numbers. -/
inductive CommitmentLevel where
  | processed
  | confirmed
  | finalized
  | firstShredReceived
  | completed
  | createdBank
  | dead
  deriving DecidableEq

/-- The number of a commitment level in the schema. -/
def CommitmentLevel.toInt32 : CommitmentLevel → ℤ
  | .processed => 0
  | .confirmed => 1
  | .finalized => 2
  | .firstShredReceived => 3
  | .completed => 4
  | .createdBank => 5
  | .dead => 6

structure SubscribeUpdateAccountInfo where
  pubkey : Bytes
  lamports : ℕ
  owner : Bytes
  executable : Bool
  rentEpoch : ℕ
  data : Bytes
  writeVersion : ℕ
  txnSignature : Option Bytes
  deriving DecidableEq

structure SubscribeUpdateAccount where
  account : Option SubscribeUpdateAccountInfo
  slot : Slot
  isStartup : Bool
  deriving DecidableEq

structure SubscribeUpdateSlot where
  slot : Slot
  parent : Option Slot
  status : ℤ
  deadError : Option String
  deriving DecidableEq

structure SubscribeUpdateTransactionInfo where
  signature : Bytes
  isVote : Bool
  transaction : Option Transaction
  txMeta : Option TransactionStatusMeta
  index : ℕ
  deriving DecidableEq

structure SubscribeUpdateTransaction where
  transaction : Option SubscribeUpdateTransactionInfo
  slot : Slot
  deriving DecidableEq

structure SubscribeUpdateEntry where
  slot : Slot
  index : ℕ
  numHashes : ℕ
  hash : Bytes
  executedTransactionCount : ℕ
  startingTransactionIndex : ℕ
  deriving DecidableEq

structure SubscribeUpdateBlockMeta where
  slot : Slot
  blockhash : String
  rewards : Option Rewards
  blockTime : Option UnixTimestamp
  blockHeight : Option BlockHeight
  parentSlot : Slot
  parentBlockhash : String
  executedTransactionCount : ℕ
  entriesCount : ℕ
  deriving DecidableEq

/-- The kinds of `subscribe_update::UpdateOneof` the plugin produces. -/
inductive UpdateOneof where
  | account (message : SubscribeUpdateAccount)
  | slot (message : SubscribeUpdateSlot)
  | transaction (message : SubscribeUpdateTransaction)
  | blockMeta (message : SubscribeUpdateBlockMeta)
  | entry (message : SubscribeUpdateEntry)
  deriving DecidableEq

structure SubscribeUpdate where
  filters : List String
  updateOneof : Option UpdateOneof
  createdAt : Option Timestamp
  deriving DecidableEq

end Proto

end Dragonmouth
