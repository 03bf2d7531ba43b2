import Mathlib.Algebra.GroupWithZero.Nat
import Mathlib.Data.Finset.Insert
import Dragonmouth.Proto.Geyser

/-!
# Parsed messages

What the parser makes of an update and the channel passes on. Only the variant
the `Prost` parser builds is modelled: the `Limited` one is never constructed,
its parser is `todo!()`.
-/

namespace Dragonmouth.Richat

open Proto (CommitmentLevel Timestamp SubscribeUpdateAccountInfo SubscribeUpdateTransactionInfo
  SubscribeUpdateEntry SubscribeUpdateBlockMeta TransactionError)

structure MessageSlot where
  slot : Slot
  parent : Option Slot
  commitment : CommitmentLevel
  deadError : Option String
  createdAt : Timestamp
  size : ℕ
  deriving DecidableEq

structure MessageAccount where
  pubkey : Pubkey
  owner : Pubkey
  nonemptyTxnSignature : Bool
  account : SubscribeUpdateAccountInfo
  slot : Slot
  isStartup : Bool
  createdAt : Timestamp
  size : ℕ
  deriving DecidableEq

def MessageAccount.writeVersion (message : MessageAccount) : ℕ := message.account.writeVersion

structure MessageTransaction where
  signature : Signature
  error : Option TransactionError
  accountKeys : Finset Pubkey
  transaction : SubscribeUpdateTransactionInfo
  slot : Slot
  createdAt : Timestamp
  size : ℕ
  deriving DecidableEq

structure MessageEntry where
  entry : SubscribeUpdateEntry
  createdAt : Timestamp
  size : ℕ
  deriving DecidableEq

def MessageEntry.slot (message : MessageEntry) : Slot := message.entry.slot

structure MessageBlockMeta where
  blockMeta : SubscribeUpdateBlockMeta
  createdAt : Timestamp
  size : ℕ
  deriving DecidableEq

namespace MessageBlockMeta

def slot (message : MessageBlockMeta) : Slot := message.blockMeta.slot

def blockhash (message : MessageBlockMeta) : String := message.blockMeta.blockhash

def blockHeight (message : MessageBlockMeta) : Option ℕ :=
  message.blockMeta.blockHeight.map Proto.BlockHeight.blockHeight

def executedTransactionCount (message : MessageBlockMeta) : ℕ :=
  message.blockMeta.executedTransactionCount

def entriesCount (message : MessageBlockMeta) : ℕ := message.blockMeta.entriesCount

end MessageBlockMeta

structure MessageBlock where
  accounts : List MessageAccount
  transactions : List MessageTransaction
  entries : List MessageEntry
  blockMeta : MessageBlockMeta
  createdAt : Timestamp
  deriving DecidableEq

namespace MessageBlock

def slot (message : MessageBlock) : Slot := message.blockMeta.slot

def size (message : MessageBlock) : ℕ :=
  (message.accounts.map MessageAccount.size ++ message.transactions.map MessageTransaction.size ++
    message.entries.map MessageEntry.size).sum + message.blockMeta.size

end MessageBlock

inductive ParsedMessage where
  | slot (message : MessageSlot)
  | account (message : MessageAccount)
  | transaction (message : MessageTransaction)
  | entry (message : MessageEntry)
  | blockMeta (message : MessageBlockMeta)
  | block (message : MessageBlock)
  deriving DecidableEq

namespace ParsedMessage

/-- The slot of a message. -/
def slotOf : ParsedMessage → Slot
  | .slot msg => msg.slot
  | .account msg => msg.slot
  | .transaction msg => msg.slot
  | .entry msg => msg.slot
  | .blockMeta msg => msg.slot
  | .block msg => msg.slot

def size : ParsedMessage → ℕ
  | .slot msg => msg.size
  | .account msg => msg.size
  | .transaction msg => msg.size
  | .entry msg => msg.size
  | .blockMeta msg => msg.size
  | .block msg => msg.size

def getAccount : ParsedMessage → Option MessageAccount
  | .account msg => some msg
  | _ => none

def getTransaction : ParsedMessage → Option MessageTransaction
  | .transaction msg => some msg
  | _ => none

def getEntry : ParsedMessage → Option MessageEntry
  | .entry msg => some msg
  | _ => none

end ParsedMessage

end Dragonmouth.Richat
