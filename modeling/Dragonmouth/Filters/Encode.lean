import Dragonmouth.Filters.Filter

/-!
# Encoding of updates

`FilteredUpdate::encode` puts the parts of a message together again, as far as
they have been selected, and writes them with the names of the filters. What an
update without restrictions writes is what the message has been parsed from, with
the names in place of its own.

## Main definitions

- `FilterAccountDataSlices.getSlice`: the data a subscriber asked for
- `SubscribeUpdateMessage.message`: the hand-written outer message
- `FilteredUpdate.encode`: the bytes of an update
- `FilteredUpdateType.ofMessage`: an update without restrictions
-/

namespace Dragonmouth.Filters

open Checks Encoding Writer
open Proto (CommitmentLevel Timestamp SubscribeUpdateAccountInfo SubscribeUpdateTransactionInfo)
open Richat (MessageAccount MessageTransaction MessageEntry MessageBlock)

namespace FilterAccountDataSlices

/-- `FilterAccountDataSlices::empty`. -/
def empty : FilterAccountDataSlices := []

/-- The loop of `get_slice`: slices that end within the source are copied. -/
def copySlices (source : Bytes) : FilterAccountDataSlices → Except Panic Bytes
  | [] => .ok []
  | (start, stop) :: dataSlices =>
    if source.length ≥ stop then
      if start > stop then .error .sliceIndex
      else do
        let rest ← copySlices source dataSlices
        .ok ((source.drop start).take (stop - start) ++ rest)
    else copySlices source dataSlices

/-- The capacity asked for, with the differences and their sum wrapping. -/
def capacity (dataSlices : FilterAccountDataSlices) : ℕ :=
  (dataSlices.map fun (start, stop) => (stop + 2 ^ 64 - start) % 2 ^ 64).sum % 2 ^ 64

/-- `get_slice`; no vector has a capacity above `isize::MAX`. -/
def getSlice (dataSlices : FilterAccountDataSlices) (source : Bytes) : Except Panic Bytes :=
  if dataSlices = [] then .ok source
  else if dataSlices.capacity ≥ 2 ^ 63 then .error .capacityOverflow
  else copySlices source dataSlices

end FilterAccountDataSlices

structure SubscribeUpdateMessage where
  filters : List String
  update : UpdateOneof
  createdAt : Timestamp

section

variable (P : Prost) (G : Geyser)

/-- The implementation of `prost::Message`. -/
def SubscribeUpdateMessage.message (self : SubscribeUpdateMessage) : Encoding.Message where
  encodeRaw := seq [
    seq (self.filters.map fun filter => bytesEncode P 1 (strBytes filter)),
    (G.updateOneof self.update).encodeRaw,
    P.messageEncode 11 (G.timestamp self.createdAt)]
  encodedLen := total [
    total (self.filters.map fun filter => bytesEncodedLen P 1 (strBytes filter)),
    (G.updateOneof self.update).encodedLen,
    P.messageEncodedLen 11 (G.timestamp self.createdAt)]

/-- `encode_to_vec`. -/
def SubscribeUpdateMessage.encodeToVec (self : SubscribeUpdateMessage) : Bytes :=
  generatedBytes (self.message P G)

/-- An account with the slices of its data. -/
def accountInfo (dataSlices : FilterAccountDataSlices) (account : SubscribeUpdateAccountInfo) :
    Except Panic SubscribeUpdateAccountInfo := do
  let data ← dataSlices.getSlice account.data
  .ok
    { pubkey := account.pubkey
      lamports := account.lamports
      owner := account.owner
      executable := account.executable
      rentEpoch := account.rentEpoch
      data := data
      writeVersion := account.writeVersion
      txnSignature := account.txnSignature }

/-- `items[idx]`. -/
def itemAt {α : Type} (items : List α) (idx : ℕ) : Except Panic α :=
  (items[idx]?).elim (.error .indexOutOfBounds) .ok

/-- The selected parts of a block. -/
def blockUpdate (message : MessageBlock) (accounts transactions : List ℕ) (entries : Bool)
    (dataSlices : FilterAccountDataSlices) : Except Panic SubscribeUpdateBlock := do
  let blockMeta := message.blockMeta.blockMeta
  let transactions ← transactions.mapM fun idx => do
    let transaction ← itemAt message.transactions idx
    .ok transaction.transaction
  let accounts ← accounts.mapM fun idx => do
    let account ← itemAt message.accounts idx
    accountInfo dataSlices account.account
  .ok
    { slot := blockMeta.slot
      blockhash := blockMeta.blockhash
      rewards := blockMeta.rewards
      blockTime := blockMeta.blockTime
      blockHeight := blockMeta.blockHeight
      parentSlot := blockMeta.parentSlot
      parentBlockhash := blockMeta.parentBlockhash
      executedTransactionCount := blockMeta.executedTransactionCount
      transactions := transactions
      updatedAccountCount := message.accounts.length
      accounts := accounts
      entriesCount := blockMeta.entriesCount
      entries := if entries then message.entries.map MessageEntry.entry else [] }

/-- The message `FilteredUpdate::encode` encodes. -/
def FilteredUpdate.message (self : FilteredUpdate) : Except Panic SubscribeUpdateMessage :=
  match self.filteredUpdate with
  | .slot message =>
    .ok
      { filters := self.filters
        update := .slot
          { slot := message.slot
            parent := message.parent
            status := message.commitment.toInt32
            deadError := message.deadError }
        createdAt := message.createdAt }
  | .account message dataSlices => do
    let account ← accountInfo dataSlices message.account
    .ok
      { filters := self.filters
        update := .account
          { account := some account, slot := message.slot, isStartup := message.isStartup }
        createdAt := message.createdAt }
  | .transaction message =>
    .ok
      { filters := self.filters
        update := .transaction { transaction := some message.transaction, slot := message.slot }
        createdAt := message.createdAt }
  | .transactionStatus message =>
    .ok
      { filters := self.filters
        update := .transactionStatus
          { slot := message.slot
            signature := message.signature.toList
            isVote := message.transaction.isVote
            index := message.transaction.index
            err := message.error }
        createdAt := message.createdAt }
  | .entry message =>
    .ok
      { filters := self.filters, update := .entry message.entry, createdAt := message.createdAt }
  | .blockMeta message =>
    .ok
      { filters := self.filters
        update := .blockMeta message.blockMeta
        createdAt := message.createdAt }
  | .block message accounts transactions entries dataSlices => do
    let block ← blockUpdate message accounts transactions entries dataSlices
    .ok { filters := self.filters, update := .block block, createdAt := message.createdAt }

/-- `FilteredUpdate::encode`. -/
def FilteredUpdate.encode (self : FilteredUpdate) : Except Panic Bytes := do
  let message ← self.message
  .ok (message.encodeToVec P G)

end

/-- `From<MessageRef> for FilteredUpdateType`. -/
def FilteredUpdateType.ofMessage : Message → FilteredUpdateType
  | .slot message => .slot message
  | .account message => .account message .empty
  | .transaction message => .transaction message
  | .entry message => .entry message
  | .blockMeta message => .blockMeta message
  | .block message => .block message (List.range message.accounts.length)
      (List.range message.transactions.length) true .empty

end Dragonmouth.Filters
