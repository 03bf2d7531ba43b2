import Dragonmouth.Encoding.Wire

/-!
# Updates of all kinds

The updates a source may send and a subscriber may receive, with the fields the
schema gives them. The generated code that encodes them is a parameter.

## Main definitions

- `SubscribeUpdate`, `UpdateOneof`: an update of any of the nine kinds
- `SubscribeUpdate.fields`: its fields
- `Geyser`, `Geyser.Documented`: the generated code, and what is documented of it
-/

namespace Dragonmouth.Filters

open Encoding
open Proto (Timestamp TransactionError Rewards UnixTimestamp BlockHeight SubscribeUpdateAccount
  SubscribeUpdateAccountInfo SubscribeUpdateSlot SubscribeUpdateTransaction
  SubscribeUpdateTransactionInfo SubscribeUpdateEntry SubscribeUpdateBlockMeta)

structure SubscribeUpdateTransactionStatus where
  slot : Slot
  signature : Bytes
  isVote : Bool
  index : ℕ
  err : Option TransactionError
  deriving DecidableEq

structure SubscribeUpdateBlock where
  slot : Slot
  blockhash : String
  rewards : Option Rewards
  blockTime : Option UnixTimestamp
  blockHeight : Option BlockHeight
  parentSlot : Slot
  parentBlockhash : String
  executedTransactionCount : ℕ
  transactions : List SubscribeUpdateTransactionInfo
  updatedAccountCount : ℕ
  accounts : List SubscribeUpdateAccountInfo
  entriesCount : ℕ
  entries : List SubscribeUpdateEntry
  deriving DecidableEq

/-- The kinds of `subscribe_update::UpdateOneof`. -/
inductive UpdateOneof where
  | account (message : SubscribeUpdateAccount)
  | slot (message : SubscribeUpdateSlot)
  | transaction (message : SubscribeUpdateTransaction)
  | transactionStatus (message : SubscribeUpdateTransactionStatus)
  | block (message : SubscribeUpdateBlock)
  | ping
  | pong (id : ℤ)
  | blockMeta (message : SubscribeUpdateBlockMeta)
  | entry (message : SubscribeUpdateEntry)
  deriving DecidableEq

structure SubscribeUpdate where
  filters : List String
  updateOneof : Option UpdateOneof
  createdAt : Option Timestamp
  deriving DecidableEq

section

variable (P : Prost)

def SubscribeUpdateTransactionStatus.fields (self : SubscribeUpdateTransactionStatus) :
    List Field := [
  .implicit 1 (.uint64 self.slot),
  .implicit 2 (.bytes self.signature),
  .implicit 3 (.bool self.isVote),
  .implicit 4 (.uint64 self.index),
  .message 5 (self.err.map fun err => fieldsWrite P err.fields)]

def SubscribeUpdateBlock.fields (self : SubscribeUpdateBlock) : List Field := [
  .implicit 1 (.uint64 self.slot),
  .implicit 2 (.string self.blockhash),
  .message 3 (self.rewards.map fun rewards => fieldsWrite P (rewards.fields P)),
  .message 4 (self.blockTime.map fun blockTime => fieldsWrite P blockTime.fields),
  .message 5 (self.blockHeight.map fun blockHeight => fieldsWrite P blockHeight.fields),
  .messages 6 (self.transactions.map fun transaction => fieldsWrite P (transaction.fields P)),
  .implicit 7 (.uint64 self.parentSlot),
  .implicit 8 (.string self.parentBlockhash),
  .implicit 9 (.uint64 self.executedTransactionCount),
  .implicit 10 (.uint64 self.updatedAccountCount),
  .messages 11 (self.accounts.map fun account => fieldsWrite P account.fields),
  .implicit 12 (.uint64 self.entriesCount),
  .messages 13 (self.entries.map fun entry => fieldsWrite P entry.fields)]

/-- The member of the `oneof` that is set. -/
def UpdateOneof.field : UpdateOneof → Field
  | account message => .message 2 (some (fieldsWrite P (message.fields P)))
  | slot message => .message 3 (some (fieldsWrite P message.fields))
  | transaction message => .message 4 (some (fieldsWrite P (message.fields P)))
  | block message => .message 5 (some (fieldsWrite P (message.fields P)))
  | ping => .message 6 (some [])
  | blockMeta message => .message 7 (some (fieldsWrite P (message.fields P)))
  | entry message => .message 8 (some (fieldsWrite P message.fields))
  | pong id => .message 9 (some (fieldsWrite P [.implicit 1 (.int32 id)]))
  | transactionStatus message => .message 10 (some (fieldsWrite P (message.fields P)))

/-- The fields of an update, in the order of their tags; a `oneof` stands where its
least tag does. -/
def SubscribeUpdate.fields (self : SubscribeUpdate) : List Field :=
  [.strings 1 (some self.filters)] ++ (self.updateOneof.map (UpdateOneof.field P)).toList ++
    [.message 11 (self.createdAt.map fun createdAt => fieldsWrite P createdAt.fields)]

end

/-- Generated code of the geyser schema. -/
structure Geyser where
  update : SubscribeUpdate → Message
  /-- `UpdateOneof::encode` and `UpdateOneof::encoded_len`. -/
  updateOneof : UpdateOneof → Message
  timestamp : Timestamp → Message
  account : SubscribeUpdateAccountInfo → Message
  entry : SubscribeUpdateEntry → Message
  blockMeta : SubscribeUpdateBlockMeta → Message

/-- Generated messages write the fields of the schema, and a `oneof` the field an
update would write for it. -/
structure Geyser.Documented (G : Geyser) (P : Prost) : Prop where
  update : ∀ self : SubscribeUpdate, (G.update self).Denotes (fieldsWrite P (self.fields P))
  updateOneof : ∀ self : UpdateOneof, (G.updateOneof self).Fixed ((self.field P).write P)
  timestamp : ∀ self : Timestamp, (G.timestamp self).Denotes (fieldsWrite P self.fields)

/-- The generated code over a library, written down. -/
def geyser (P : Prost) : Geyser where
  update self := fieldsMessage P (self.fields P)
  updateOneof self := fieldsMessage P [self.field P]
  timestamp self := fieldsMessage P self.fields
  account self := fieldsMessage P self.fields
  entry self := fieldsMessage P self.fields
  blockMeta self := fieldsMessage P (self.fields P)

theorem geyser_documented (P : Prost) : (geyser P).Documented P where
  update _ := fieldsMessage_denotes P _
  updateOneof self := by
    have hone : fieldsWrite P [self.field P] = (self.field P).write P := by simp [fieldsWrite]
    rw [← hone]
    exact .emit rfl
  timestamp _ := fieldsMessage_denotes P _

end Dragonmouth.Filters
