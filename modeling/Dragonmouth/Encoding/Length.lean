import Dragonmouth.Encoding.Wire

/-!
# Lengths announced and bytes written

For each message of the raw encoder, the fields it stands for. Its two traversals
agree on them term by term, so every length announced is the number of bytes
written, whatever the thread-local buffer held before.

## Main definitions

- `RawMessage`: the hand-written messages
- `RawMessage.fields`: the fields they stand for
-/

namespace Dragonmouth.Encoding

open Writer
open Plugin (ReplicaAccountInfoV3 ReplicaTransactionInfoV2 ReplicaEntryInfoV2 ReplicaBlockInfoV4
  SlotStatus Reward RewardType RewardsAndNumPartitions SanitizedTransaction SanitizedMessage
  MessageHeader CompiledInstruction MessageAddressTableLookup TransactionStatusMeta
  TransactionError InnerInstructions InnerInstruction TransactionTokenBalance UiTokenAmount
  TransactionReturnData ProtobufMessage)

section

variable (P : Prost) (G : Generated)

def accountReplicaFields (self : ReplicaAccountInfoV3) : List Field := [
  .always 1 (.slice self.pubkey),
  .implicit 2 (.uint64 self.lamports),
  .always 3 (.slice self.owner),
  .implicit 4 (.bool self.executable),
  .implicit 5 (.uint64 self.rentEpoch),
  .implicit 6 (.slice self.data),
  .implicit 7 (.uint64 self.writeVersion),
  .optional 8 (self.txn.map fun txn => .slice txn.signature.toList)]

def accountFields (slot : Slot) (account : ReplicaAccountInfoV3) : List Field := [
  .message 1 (some (fieldsWrite P (accountReplicaFields account))),
  .implicit 2 (.uint64 slot)]

def slotFields (slot : Slot) (parent : Option Slot) (status : SlotStatus) : List Field := [
  .implicit 1 (.uint64 slot),
  .optional 2 (parent.map .uint64),
  .implicit 3 (.int32 (slotStatusAsI32 status)),
  .optional 4 ((slotStatusAsDeadError status).map .string)]

def entryFields (entry : ReplicaEntryInfoV2) : List Field := [
  .implicit 1 (.uint64 entry.slot),
  .implicit 2 (.uint64 entry.index),
  .implicit 3 (.uint64 entry.numHashes),
  .always 4 (.slice entry.hash),
  .implicit 5 (.uint64 entry.executedTransactionCount),
  .implicit 6 (.uint64 entry.startingTransactionIndex)]

def rewardFields (self : Reward) : List Field := [
  .implicit 1 (.string self.pubkey),
  .implicit 2 (.int64 self.lamports),
  .implicit 3 (.uint64 self.postBalance),
  .implicit 4 (.int32 (rewardTypeAsI32 self.rewardType)),
  .optional 5 (self.commission.map fun commission =>
    .slice (strBytes (u8ToStaticStr commission)))]

def rewardsAndNumPartitionsFields (self : RewardsAndNumPartitions) : List Field := [
  .messages 1 (self.rewards.map fun reward => fieldsWrite P (rewardFields reward)),
  .message 2 (self.numPartitions.map fun numPartitions =>
    generatedBytes (G.numPartitions (G.createNumPartitions numPartitions)))]

def blockMetaFields (blockinfo : ReplicaBlockInfoV4) : List Field := [
  .implicit 1 (.uint64 blockinfo.slot),
  .implicit 2 (.slice (strBytes blockinfo.blockhash)),
  .message 3 (some (fieldsWrite P (rewardsAndNumPartitionsFields P G blockinfo.rewards))),
  .message 4 (blockinfo.blockTime.map fun blockTime =>
    generatedBytes (G.unixTimestamp (G.createTimestamp blockTime))),
  .message 5 (blockinfo.blockHeight.map fun blockHeight =>
    generatedBytes (G.blockHeight (G.createBlockHeight blockHeight))),
  .implicit 6 (.uint64 blockinfo.parentSlot),
  .implicit 7 (.slice (strBytes blockinfo.parentBlockhash)),
  .implicit 8 (.uint64 blockinfo.executedTransactionCount),
  .implicit 9 (.uint64 blockinfo.entryCount)]

def messageHeaderFields (self : MessageHeader) : List Field := [
  .implicit 1 (.uint32 self.numRequiredSignatures.toNat),
  .implicit 2 (.uint32 self.numReadonlySignedAccounts.toNat),
  .implicit 3 (.uint32 self.numReadonlyUnsignedAccounts.toNat)]

def compiledInstructionFields (self : CompiledInstruction) : List Field := [
  .implicit 1 (.uint32 self.programIdIndex.toNat),
  .implicit 2 (.slice self.accounts),
  .implicit 3 (.slice self.data)]

def messageAddressTableLookupFields (self : MessageAddressTableLookup) : List Field := [
  .always 1 (.slice self.accountKey.toList),
  .implicit 2 (.slice self.writableIndexes),
  .implicit 3 (.slice self.readonlyIndexes)]

/-- The fields of a message, legacy or not. -/
def messageFields (header : MessageHeader) (accountKeys : List Pubkey) (recentBlockhash : Hash)
    (instructions : List CompiledInstruction) (versioned : Bool)
    (addressTableLookups : List MessageAddressTableLookup) : List Field := [
  .message 1 (some (fieldsWrite P (messageHeaderFields header))),
  .repeated 2 (accountKeys.map fun pubkey => .slice pubkey.toList),
  .always 3 (.slice recentBlockhash.toList),
  .messages 4 (instructions.map fun instruction =>
    fieldsWrite P (compiledInstructionFields instruction)),
  .implicit 5 (.bool versioned),
  .messages 6 (addressTableLookups.map fun lookup =>
    fieldsWrite P (messageAddressTableLookupFields lookup))]

def sanitizedMessageFields : SanitizedMessage → List Field
  | .legacy header accountKeys recentBlockhash instructions =>
    messageFields P header accountKeys recentBlockhash instructions false []
  | .v0 header accountKeys recentBlockhash instructions addressTableLookups =>
    messageFields P header accountKeys recentBlockhash instructions true addressTableLookups

def sanitizedTransactionFields (self : SanitizedTransaction) : List Field := [
  .repeated 1 (self.signatures.map fun signature => .slice signature.toList),
  .message 2 (some (fieldsWrite P (sanitizedMessageFields P self.message)))]

def transactionErrorFields (self : TransactionError) : List Field := [
  .implicit 1 (.bytes self.bincode)]

def innerInstructionFields (self : InnerInstruction) : List Field := [
  .implicit 1 (.uint32 self.instruction.programIdIndex.toNat),
  .implicit 2 (.slice self.instruction.accounts),
  .implicit 3 (.slice self.instruction.data),
  .optional 4 (self.stackHeight.map .uint32)]

def innerInstructionsFields (self : InnerInstructions) : List Field := [
  .implicit 1 (.uint32 self.index.toNat),
  .messages 2 (self.instructions.map fun instruction =>
    fieldsWrite P (innerInstructionFields instruction))]

def uiTokenAmountFields (self : UiTokenAmount) : List Field := [
  .implicit 1 (.double (self.uiAmount.getD F64.zero)),
  .implicit 2 (.uint32 self.decimals.toNat),
  .implicit 3 (.string self.amount),
  .implicit 4 (.string self.uiAmountString)]

def transactionTokenBalanceFields (self : TransactionTokenBalance) : List Field := [
  .implicit 1 (.uint32 self.accountIndex.toNat),
  .implicit 2 (.string self.mint),
  .message 3 (some (fieldsWrite P (uiTokenAmountFields self.uiTokenAmount))),
  .implicit 4 (.string self.owner),
  .implicit 5 (.string self.programId)]

def transactionReturnDataFields (self : TransactionReturnData) : List Field := [
  .always 1 (.slice self.programId.toList),
  .implicit 2 (.slice self.data)]

def transactionStatusMetaFields (self : TransactionStatusMeta) : List Field := [
  .message 1 ((statusErr self).map fun err => fieldsWrite P (transactionErrorFields err)),
  .implicit 2 (.uint64 self.fee),
  .packed 3 self.preBalances,
  .packed 4 self.postBalances,
  .messages 5 ((self.innerInstructions.getD []).map fun innerInstructions =>
    fieldsWrite P (innerInstructionsFields P innerInstructions)),
  .strings 6 self.logMessages,
  .messages 7 ((self.preTokenBalances.getD []).map fun balance =>
    fieldsWrite P (transactionTokenBalanceFields P balance)),
  .messages 8 ((self.postTokenBalances.getD []).map fun balance =>
    fieldsWrite P (transactionTokenBalanceFields P balance)),
  .messages 9 ((self.rewards.getD []).map fun reward => fieldsWrite P (rewardFields reward)),
  .implicit 10 (.bool self.innerInstructions.isNone),
  .implicit 11 (.bool self.logMessages.isNone),
  .repeated 12 (self.loadedAddresses.writable.map fun pubkey => .slice pubkey.toList),
  .repeated 13 (self.loadedAddresses.readonly.map fun pubkey => .slice pubkey.toList),
  .message 14 (self.returnData.map fun returnData =>
    fieldsWrite P (transactionReturnDataFields returnData)),
  .implicit 15 (.bool self.returnData.isNone),
  .optional 16 (self.computeUnitsConsumed.map .uint64)]

def transactionReplicaFields (self : ReplicaTransactionInfoV2) : List Field := [
  .always 1 (.slice self.signature.toList),
  .implicit 2 (.bool self.isVote),
  .message 3 (some (fieldsWrite P (sanitizedTransactionFields P self.transaction))),
  .message 4 (some (fieldsWrite P (transactionStatusMetaFields P self.transactionStatusMeta))),
  .implicit 5 (.uint64 self.index)]

def transactionFields (slot : Slot) (transaction : ReplicaTransactionInfoV2) : List Field := [
  .message 1 (some (fieldsWrite P (transactionReplicaFields P transaction))),
  .implicit 2 (.uint64 slot)]

end

-- ════════════════════════════════════════════════════════════════════════
-- Messages stand for their fields
-- ════════════════════════════════════════════════════════════════════════

/-- Only the empty string has no bytes. -/
theorem strBytes_eq_nil (s : String) : strBytes s = [] ↔ s = "" := by
  rw [strBytes, ← List.length_eq_zero_iff, ← String.utf8ByteSize_eq_zero_iff]
  rfl

/-- A reward type is left out exactly if its number is the default. -/
theorem rewardTypeAsI32_eq_zero (rewardType : Option RewardType) :
    ¬rewardType.isSome = true ↔ rewardTypeAsI32 rewardType = 0 := by
  cases rewardType with
  | none => decide
  | some t => cases t <;> decide

section

variable {P : Prost} {G : Generated} (h : P.Documented)

include h

/-- An account has the bytes of its fields, and their number is announced. -/
theorem accountReplicaWrapper_fixed (self : ReplicaAccountInfoV3) :
    (accountReplicaWrapper P self).Fixed (fieldsWrite P (accountReplicaFields self)) :=
  StandsAll.fixed
    (.cons (h.slice_field 1 _) <| .cons (h.uint64_field 2 _) <| .cons (h.slice_field 3 _) <|
      .cons (h.bool_field 4 _) <| .cons (h.uint64_field 5 _) <|
      .cons (h.nonempty_slice_field 6 _ not_not) <| .cons (h.uint64_field 7 _) <|
      .cons (Prost.Documented.optional_field 8 _ fun txn => h.slice_agree 8 txn.signature.toList)
      .nil) rfl rfl

theorem account_fixed (slot : Slot) (self : ReplicaAccountInfoV3) :
    (account P slot self).Fixed (fieldsWrite P (accountFields P slot self)) :=
  StandsAll.fixed
    (.cons (h.message_field 1 (accountReplicaWrapper_fixed h self).denotes) <|
      .cons (h.uint64_field 2 _) .nil) rfl rfl

/-- A slot update with its parent and error, which may be absent. -/
theorem slot_fixed (self : Slot) (parent : Option Slot) (status : SlotStatus) :
    (slot P self parent status).Fixed (fieldsWrite P (slotFields self parent status)) :=
  StandsAll.fixed
    (.cons (h.uint64_field 1 _) <|
      .cons (Prost.Documented.optional_field 2 _ fun value => h.uint64.agree 2 value) <|
      .cons (h.int32_field 3 _ not_not) <|
      .cons (Prost.Documented.optional_field 4 _ fun value => h.string.agree 4 value) .nil) rfl rfl

theorem entry_fixed (self : ReplicaEntryInfoV2) :
    (entry P self).Fixed (fieldsWrite P (entryFields self)) :=
  StandsAll.fixed
    (.cons (h.uint64_field 1 _) <| .cons (h.uint64_field 2 _) <| .cons (h.uint64_field 3 _) <|
      .cons (h.slice_field 4 _) <| .cons (h.uint64_field 5 _) <| .cons (h.uint64_field 6 _)
      .nil) rfl rfl

/-- A reward; the commission is a string from the table. -/
theorem rewardWrapper_fixed (self : Reward) :
    (rewardWrapper P self).Fixed (fieldsWrite P (rewardFields self)) :=
  StandsAll.fixed
    (.cons (h.string_field 1 _) <| .cons (h.int64_field 2 _) <| .cons (h.uint64_field 3 _) <|
      .cons (h.int32_field 4 _ (rewardTypeAsI32_eq_zero self.rewardType)) <|
      .cons (Prost.Documented.optional_field 5 _ fun commission =>
        h.slice_agree 5 (strBytes (u8ToStaticStr commission))) .nil) rfl rfl

/-- Rewards, with the number of partitions as the generated code writes it. -/
theorem rewardsAndNumPartitionsWrapper_fixed (hG : G.Exact) (self : RewardsAndNumPartitions) :
    (rewardsAndNumPartitionsWrapper P G self).Fixed
      (fieldsWrite P (rewardsAndNumPartitionsFields P G self)) :=
  StandsAll.fixed
    (.cons (h.messages_field 1 _ fun x => (rewardWrapper_fixed h x).denotes) <|
      .cons (h.optional_message_field 2 _ fun numPartitions =>
        hG.numPartitions.denotes (G.createNumPartitions numPartitions)) .nil) rfl rfl

/-- A block meta, with the nested messages of the generated code. -/
theorem blockMeta_fixed (hG : G.Exact) (self : ReplicaBlockInfoV4) :
    (blockMeta P G self).Fixed (fieldsWrite P (blockMetaFields P G self)) :=
  StandsAll.fixed
    (.cons (h.uint64_field 1 _) <|
      .cons (h.nonempty_slice_field 2 _ (not_not.trans (strBytes_eq_nil _).symm)) <|
      .cons (h.message_field 3 (rewardsAndNumPartitionsWrapper_fixed h hG self.rewards).denotes) <|
      .cons (h.optional_message_field 4 _ fun blockTime =>
        hG.unixTimestamp.denotes (G.createTimestamp blockTime)) <|
      .cons (h.optional_message_field 5 _ fun blockHeight =>
        hG.blockHeight.denotes (G.createBlockHeight blockHeight)) <|
      .cons (h.uint64_field 6 _) <|
      .cons (h.nonempty_slice_field 7 _ (not_not.trans (strBytes_eq_nil _).symm)) <|
      .cons (h.uint64_field 8 _) <| .cons (h.uint64_field 9 _) .nil) rfl rfl

theorem messageHeaderWrapper_fixed (self : MessageHeader) :
    (messageHeaderWrapper P self).Fixed (fieldsWrite P (messageHeaderFields self)) :=
  StandsAll.fixed
    (.cons (h.uint32_field 1 _) <| .cons (h.uint32_field 2 _) <| .cons (h.uint32_field 3 _)
      .nil) rfl rfl

theorem compiledInstructionWrapper_fixed (self : CompiledInstruction) :
    (compiledInstructionWrapper P self).Fixed
      (fieldsWrite P (compiledInstructionFields self)) :=
  StandsAll.fixed
    (.cons (h.uint32_field 1 _) <| .cons (h.nonempty_slice_field 2 _ not_not) <|
      .cons (h.nonempty_slice_field 3 _ not_not) .nil) rfl rfl

theorem messageAddressTableLookupWrapper_fixed (self : MessageAddressTableLookup) :
    (messageAddressTableLookupWrapper P self).Fixed
      (fieldsWrite P (messageAddressTableLookupFields self)) :=
  StandsAll.fixed
    (.cons (h.slice_field 1 _) <| .cons (h.nonempty_slice_field 2 _ not_not) <|
      .cons (h.nonempty_slice_field 3 _ not_not) .nil) rfl rfl

/-- Keys have one length, so they are measured at once. -/
theorem pubkeys_field (tag : ℕ) (pubkeys : List Pubkey) : Stands P (pubkeysEncode P tag pubkeys)
    (pubkeysEncodedLen P tag pubkeys)
    (.repeated tag (pubkeys.map fun pubkey => .slice pubkey.toList)) :=
  h.slices_field tag pubkeys fun _ => Vector.length_toList

theorem signatures_field (tag : ℕ) (signatures : List Signature) :
    Stands P (signaturesEncode P tag signatures) (signaturesEncodedLen P tag signatures)
      (.repeated tag (signatures.map fun signature => .slice signature.toList)) :=
  h.slices_field tag signatures fun _ => Vector.length_toList

theorem sanitizedMessageWrapper_fixed (self : SanitizedMessage) :
    (sanitizedMessageWrapper P self).Fixed (fieldsWrite P (sanitizedMessageFields P self)) := by
  cases self with
  | legacy header accountKeys recentBlockhash instructions =>
    exact StandsAll.fixed
      (.cons (h.message_field 1 (messageHeaderWrapper_fixed h header).denotes) <|
        .cons (pubkeys_field h 2 _) <| .cons (h.slice_field 3 _) <|
        .cons (h.messages_field 4 _ fun x => (compiledInstructionWrapper_fixed h x).denotes) <|
        .cons (h.bool_field 5 _) <|
        .cons (h.messages_field 6 _ fun x =>
          (messageAddressTableLookupWrapper_fixed h x).denotes) .nil) rfl rfl
  | v0 header accountKeys recentBlockhash instructions addressTableLookups =>
    exact StandsAll.fixed
      (.cons (h.message_field 1 (messageHeaderWrapper_fixed h header).denotes) <|
        .cons (pubkeys_field h 2 _) <| .cons (h.slice_field 3 _) <|
        .cons (h.messages_field 4 _ fun x => (compiledInstructionWrapper_fixed h x).denotes) <|
        .cons (h.bool_field 5 _) <|
        .cons (h.messages_field 6 _ fun x =>
          (messageAddressTableLookupWrapper_fixed h x).denotes) .nil) rfl rfl

theorem sanitizedTransactionWrapper_fixed (self : SanitizedTransaction) :
    (sanitizedTransactionWrapper P self).Fixed
      (fieldsWrite P (sanitizedTransactionFields P self)) :=
  StandsAll.fixed
    (.cons (signatures_field h 1 _) <|
      .cons (h.message_field 2 (sanitizedMessageWrapper_fixed h self.message).denotes) .nil) rfl rfl

/-- The error's bytes pass through the buffer, so it is only after the length has
been announced that the right ones are written. -/
theorem transactionErrorWrapper_denotes (self : TransactionError) :
    (transactionErrorWrapper P self).Denotes (fieldsWrite P (transactionErrorFields self)) := by
  have hf : Stands P (emitWhen (self.bincode ≠ []) (P.bytes.encode 1 self.bincode))
      (sizeWhen (self.bincode ≠ []) (P.bytes.encodedLen 1 self.bincode))
      (.implicit 1 (.bytes self.bincode)) := stands_implicit (h.bytes.agree 1 _) not_not
  have hfields : fieldsWrite P (transactionErrorFields self) =
      (Field.implicit 1 (.bytes self.bincode)).write P := List.append_nil _
  have hleft : ∀ s, ((transactionErrorWrapper P self).encodedLen s).2 = self.bincode := by
    intro s
    change (sizeWhen (self.bincode ≠ []) (P.bytes.encodedLen 1 self.bincode) self.bincode).2 = _
    rw [sizeWhen]
    split <;> rfl
  rw [hfields]
  refine ⟨fun _ => hf.measures _, fun s => ?_⟩
  rw [hleft]
  exact hf.writes _

theorem innerInstructionWrapper_fixed (self : InnerInstruction) :
    (innerInstructionWrapper P self).Fixed (fieldsWrite P (innerInstructionFields self)) :=
  StandsAll.fixed
    (.cons (h.uint32_field 1 _) <| .cons (h.nonempty_slice_field 2 _ not_not) <|
      .cons (h.nonempty_slice_field 3 _ not_not) <|
      .cons (Prost.Documented.optional_field 4 _ fun stackHeight =>
        h.uint32.agree 4 stackHeight) .nil) rfl rfl

theorem innerInstructionsWrapper_fixed (self : InnerInstructions) :
    (innerInstructionsWrapper P self).Fixed (fieldsWrite P (innerInstructionsFields P self)) :=
  StandsAll.fixed
    (.cons (h.uint32_field 1 _) <|
      .cons (h.messages_field 2 _ fun x => (innerInstructionWrapper_fixed h x).denotes) .nil)
    rfl rfl

theorem uiTokenAmountWrapper_fixed (self : UiTokenAmount) :
    (uiTokenAmountWrapper P self).Fixed (fieldsWrite P (uiTokenAmountFields self)) :=
  StandsAll.fixed
    (.cons (h.double_field 1 _) <| .cons (h.uint32_field 2 _) <| .cons (h.string_field 3 _) <|
      .cons (h.string_field 4 _) .nil) rfl rfl

theorem transactionTokenBalanceWrapper_fixed (self : TransactionTokenBalance) :
    (transactionTokenBalanceWrapper P self).Fixed
      (fieldsWrite P (transactionTokenBalanceFields P self)) :=
  StandsAll.fixed
    (.cons (h.uint32_field 1 _) <| .cons (h.string_field 2 _) <|
      .cons (h.message_field 3 (uiTokenAmountWrapper_fixed h self.uiTokenAmount).denotes) <|
      .cons (h.string_field 4 _) <| .cons (h.string_field 5 _) .nil) rfl rfl

theorem transactionReturnDataWrapper_fixed (self : TransactionReturnData) :
    (transactionReturnDataWrapper P self).Fixed
      (fieldsWrite P (transactionReturnDataFields self)) :=
  StandsAll.fixed
    (.cons (h.slice_field 1 _) <| .cons (h.nonempty_slice_field 2 _ not_not) .nil) rfl rfl

/-- The meta; its error is the only part whose length depends on the buffer. -/
theorem transactionStatusMetaWrapper_fixed (self : TransactionStatusMeta) :
    (transactionStatusMetaWrapper P self).Fixed
      (fieldsWrite P (transactionStatusMetaFields P self)) :=
  StandsAll.fixed
    (.cons (h.optional_message_field 1 _ (transactionErrorWrapper_denotes h)) <|
      .cons (h.uint64_field 2 _) <| .cons (h.packed_field 3 _) <| .cons (h.packed_field 4 _) <|
      .cons (h.optional_messages_field 5 _ fun x => (innerInstructionsWrapper_fixed h x).denotes) <|
      .cons (h.strings_field 6 _) <|
      .cons (h.optional_messages_field 7 _ fun x =>
        (transactionTokenBalanceWrapper_fixed h x).denotes) <|
      .cons (h.optional_messages_field 8 _ fun x =>
        (transactionTokenBalanceWrapper_fixed h x).denotes) <|
      .cons (h.optional_messages_field 9 _ fun x => (rewardWrapper_fixed h x).denotes) <|
      .cons (h.bool_field 10 _) <| .cons (h.bool_field 11 _) <| .cons (pubkeys_field h 12 _) <|
      .cons (pubkeys_field h 13 _) <|
      .cons (h.optional_message_field 14 _ fun x =>
        (transactionReturnDataWrapper_fixed h x).denotes) <|
      .cons (h.bool_field 15 _) <|
      .cons (Prost.Documented.optional_field 16 _ fun computeUnitsConsumed =>
        h.uint64.agree 16 computeUnitsConsumed) .nil) rfl rfl

theorem transactionReplicaWrapper_fixed (self : ReplicaTransactionInfoV2) :
    (transactionReplicaWrapper P self).Fixed (fieldsWrite P (transactionReplicaFields P self)) :=
  StandsAll.fixed
    (.cons (h.slice_field 1 _) <| .cons (h.bool_field 2 _) <|
      .cons (h.message_field 3 (sanitizedTransactionWrapper_fixed h self.transaction).denotes) <|
      .cons (h.message_field 4
        (transactionStatusMetaWrapper_fixed h self.transactionStatusMeta).denotes) <|
      .cons (h.uint64_field 5 _) .nil) rfl rfl

theorem transaction_fixed (slot : Slot) (self : ReplicaTransactionInfoV2) :
    (transaction P slot self).Fixed (fieldsWrite P (transactionFields P slot self)) :=
  StandsAll.fixed
    (.cons (h.message_field 1 (transactionReplicaWrapper_fixed h self).denotes) <|
      .cons (h.uint64_field 2 _) .nil) rfl rfl

end

-- ════════════════════════════════════════════════════════════════════════
-- Every message of the raw encoder
-- ════════════════════════════════════════════════════════════════════════

/-- The messages with hand-written traversals. -/
inductive RawMessage where
  | accountReplicaWrapper (self : ReplicaAccountInfoV3)
  | account (slot : Slot) (self : ReplicaAccountInfoV3)
  | slot (slot : Slot) (parent : Option Slot) (status : SlotStatus)
  | entry (self : ReplicaEntryInfoV2)
  | rewardWrapper (self : Reward)
  | rewardsAndNumPartitionsWrapper (self : RewardsAndNumPartitions)
  | blockMeta (self : ReplicaBlockInfoV4)
  | messageHeaderWrapper (self : MessageHeader)
  | compiledInstructionWrapper (self : CompiledInstruction)
  | messageAddressTableLookupWrapper (self : MessageAddressTableLookup)
  | sanitizedMessageWrapper (self : SanitizedMessage)
  | sanitizedTransactionWrapper (self : SanitizedTransaction)
  | transactionErrorWrapper (self : TransactionError)
  | innerInstructionWrapper (self : InnerInstruction)
  | innerInstructionsWrapper (self : InnerInstructions)
  | uiTokenAmountWrapper (self : UiTokenAmount)
  | transactionTokenBalanceWrapper (self : TransactionTokenBalance)
  | transactionReturnDataWrapper (self : TransactionReturnData)
  | transactionStatusMetaWrapper (self : TransactionStatusMeta)
  | transactionReplicaWrapper (self : ReplicaTransactionInfoV2)
  | transaction (slot : Slot) (self : ReplicaTransactionInfoV2)

namespace RawMessage

variable (P : Prost) (G : Generated)

def message : RawMessage → Message
  | accountReplicaWrapper self => Encoding.accountReplicaWrapper P self
  | account s self => Encoding.account P s self
  | slot s parent status => Encoding.slot P s parent status
  | entry self => Encoding.entry P self
  | rewardWrapper self => Encoding.rewardWrapper P self
  | rewardsAndNumPartitionsWrapper self => Encoding.rewardsAndNumPartitionsWrapper P G self
  | blockMeta self => Encoding.blockMeta P G self
  | messageHeaderWrapper self => Encoding.messageHeaderWrapper P self
  | compiledInstructionWrapper self => Encoding.compiledInstructionWrapper P self
  | messageAddressTableLookupWrapper self => Encoding.messageAddressTableLookupWrapper P self
  | sanitizedMessageWrapper self => Encoding.sanitizedMessageWrapper P self
  | sanitizedTransactionWrapper self => Encoding.sanitizedTransactionWrapper P self
  | transactionErrorWrapper self => Encoding.transactionErrorWrapper P self
  | innerInstructionWrapper self => Encoding.innerInstructionWrapper P self
  | innerInstructionsWrapper self => Encoding.innerInstructionsWrapper P self
  | uiTokenAmountWrapper self => Encoding.uiTokenAmountWrapper P self
  | transactionTokenBalanceWrapper self => Encoding.transactionTokenBalanceWrapper P self
  | transactionReturnDataWrapper self => Encoding.transactionReturnDataWrapper P self
  | transactionStatusMetaWrapper self => Encoding.transactionStatusMetaWrapper P self
  | transactionReplicaWrapper self => Encoding.transactionReplicaWrapper P self
  | transaction s self => Encoding.transaction P s self

def fields : RawMessage → List Field
  | accountReplicaWrapper self => accountReplicaFields self
  | account s self => accountFields P s self
  | slot s parent status => slotFields s parent status
  | entry self => entryFields self
  | rewardWrapper self => rewardFields self
  | rewardsAndNumPartitionsWrapper self => rewardsAndNumPartitionsFields P G self
  | blockMeta self => blockMetaFields P G self
  | messageHeaderWrapper self => messageHeaderFields self
  | compiledInstructionWrapper self => compiledInstructionFields self
  | messageAddressTableLookupWrapper self => messageAddressTableLookupFields self
  | sanitizedMessageWrapper self => sanitizedMessageFields P self
  | sanitizedTransactionWrapper self => sanitizedTransactionFields P self
  | transactionErrorWrapper self => transactionErrorFields self
  | innerInstructionWrapper self => innerInstructionFields self
  | innerInstructionsWrapper self => innerInstructionsFields P self
  | uiTokenAmountWrapper self => uiTokenAmountFields self
  | transactionTokenBalanceWrapper self => transactionTokenBalanceFields P self
  | transactionReturnDataWrapper self => transactionReturnDataFields self
  | transactionStatusMetaWrapper self => transactionStatusMetaFields P self
  | transactionReplicaWrapper self => transactionReplicaFields P self
  | transaction s self => transactionFields P s self

/-- The message whose bytes pass through the buffer. -/
def IsTransactionError : RawMessage → Prop
  | transactionErrorWrapper _ => True
  | _ => False

variable {P G} (h : P.Documented) (hG : G.Exact)

include h hG

/-- Every message but the error of a transaction is fixed. -/
theorem fixed {m : RawMessage} (hm : ¬m.IsTransactionError) :
    (m.message P G).Fixed (fieldsWrite P (m.fields P G)) := by
  cases m with
  | accountReplicaWrapper self => exact accountReplicaWrapper_fixed h self
  | account s self => exact account_fixed h s self
  | slot s parent status => exact slot_fixed h s parent status
  | entry self => exact entry_fixed h self
  | rewardWrapper self => exact rewardWrapper_fixed h self
  | rewardsAndNumPartitionsWrapper self => exact rewardsAndNumPartitionsWrapper_fixed h hG self
  | blockMeta self => exact blockMeta_fixed h hG self
  | messageHeaderWrapper self => exact messageHeaderWrapper_fixed h self
  | compiledInstructionWrapper self => exact compiledInstructionWrapper_fixed h self
  | messageAddressTableLookupWrapper self => exact messageAddressTableLookupWrapper_fixed h self
  | sanitizedMessageWrapper self => exact sanitizedMessageWrapper_fixed h self
  | sanitizedTransactionWrapper self => exact sanitizedTransactionWrapper_fixed h self
  | transactionErrorWrapper _ => exact absurd trivial hm
  | innerInstructionWrapper self => exact innerInstructionWrapper_fixed h self
  | innerInstructionsWrapper self => exact innerInstructionsWrapper_fixed h self
  | uiTokenAmountWrapper self => exact uiTokenAmountWrapper_fixed h self
  | transactionTokenBalanceWrapper self => exact transactionTokenBalanceWrapper_fixed h self
  | transactionReturnDataWrapper self => exact transactionReturnDataWrapper_fixed h self
  | transactionStatusMetaWrapper self => exact transactionStatusMetaWrapper_fixed h self
  | transactionReplicaWrapper self => exact transactionReplicaWrapper_fixed h self
  | transaction s self => exact transaction_fixed h s self

/-- Every message has the bytes of its fields. -/
theorem denotes (m : RawMessage) : (m.message P G).Denotes (fieldsWrite P (m.fields P G)) := by
  by_cases hm : m.IsTransactionError
  · cases m with
    | transactionErrorWrapper self => exact transactionErrorWrapper_denotes h self
    | _ => cases hm
  · exact (fixed h hG hm).denotes

/-- A message is written after an exact prefix, whatever the buffer. -/
theorem messageEncode_eq (m : RawMessage) (tag : ℕ) (buffer : Buffer) :
    (P.messageEncode tag (m.message P G) buffer).1 =
      delimited (P.encodeKey tag .lengthDelimited) P.encodeVarint
        ((m.message P G).content buffer) := by
  rw [(denotes h hG m).content]
  exact (h.message_field tag (denotes h hG m)).writes buffer

/-- Repeated messages are each written after an exact prefix. -/
theorem messageEncodeRepeated_eq (ms : List RawMessage) (tag : ℕ) (buffer : Buffer) :
    (P.messageEncodeRepeated tag (ms.map (message P G)) buffer).1 =
      ms.flatMap fun m => delimited (P.encodeKey tag .lengthDelimited) P.encodeVarint
        ((m.message P G).content buffer) := by
  rw [(h.messages_field tag ms (denotes h hG)).writes, Field.write, List.flatMap_map]
  exact congrArg (List.flatMap · ms) (funext fun m => by rw [(denotes h hG m).content])

end RawMessage

section

variable (P : Prost) (G : Generated)

/-- The fields of an update as the raw encoder writes it. -/
def rawFields (self : ProtobufMessage) (createdAt : Proto.Timestamp) : List Field := [
  match self with
  | .account s replica => .message 2 (some (fieldsWrite P (accountFields P s replica)))
  | .slot s parent status => .message 3 (some (fieldsWrite P (slotFields s parent status)))
  | .transaction s replica => .message 4 (some (fieldsWrite P (transactionFields P s replica)))
  | .blockMeta blockinfo => .message 7 (some (fieldsWrite P (blockMetaFields P G blockinfo)))
  | .entry replica => .message 8 (some (fieldsWrite P (entryFields replica))),
  .message 11 (some (generatedBytes (G.timestamp createdAt)))]

variable {P G}

/-- Both passes over an update, whatever the buffer. -/
theorem raw_agree (h : P.Documented) (hG : G.Exact) (self : ProtobufMessage)
    (createdAt : Proto.Timestamp) : Agree (rawBytes P G self createdAt)
      (rawSize P G self createdAt) (fieldsWrite P (rawFields P G self createdAt)) := by
  refine StandsAll.agree (.cons ?_ <|
    .cons (h.message_field 11 (hG.timestamp.denotes createdAt)) .nil)
  cases self with
  | account s replica => exact h.message_field 2 (account_fixed h s replica).denotes
  | slot s parent status => exact h.message_field 3 (slot_fixed h s parent status).denotes
  | transaction s replica => exact h.message_field 4 (transaction_fixed h s replica).denotes
  | blockMeta blockinfo => exact h.message_field 7 (blockMeta_fixed h hG blockinfo).denotes
  | entry replica => exact h.message_field 8 (entry_fixed h replica).denotes

/-- The raw encoder writes the fields of the update, whatever the buffer held. -/
theorem encodeRaw_bytes (h : P.Documented) (hG : G.Exact) (self : ProtobufMessage)
    (createdAt : Proto.Timestamp) (buffer : Buffer) :
    (encodeRaw P G self createdAt buffer).1.2 = fieldsWrite P (rawFields P G self createdAt) :=
  (raw_agree h hG self createdAt).writes _

/-- Every length announced is the number of bytes written, whatever the buffer held.
Only the error of a transaction needs its length announced right before. -/
theorem encodedLen_exact (h : P.Documented) (hG : G.Exact) :
    (∀ (m : RawMessage) buffer,
      ((m.message P G).content buffer).length = ((m.message P G).encodedLen buffer).1) ∧
    (∀ m : RawMessage, ¬m.IsTransactionError → ∀ before buffer,
      ((m.message P G).encodeRaw buffer).1.length = ((m.message P G).encodedLen before).1) ∧
    (∀ (m : RawMessage) tag buffer,
      (P.messageEncode tag (m.message P G) buffer).1 =
        delimited (P.encodeKey tag .lengthDelimited) P.encodeVarint
          ((m.message P G).content buffer)) ∧
    (∀ (ms : List RawMessage) tag buffer,
      (P.messageEncodeRepeated tag (ms.map (RawMessage.message P G)) buffer).1 =
        ms.flatMap fun m => delimited (P.encodeKey tag .lengthDelimited) P.encodeVarint
          ((m.message P G).content buffer)) ∧
    ∀ self createdAt buffer,
      (encodeRaw P G self createdAt buffer).1.1 =
          (encodeRaw P G self createdAt buffer).1.2.length ∧
        (encodeRaw P G self createdAt buffer).1.2 =
          fieldsWrite P (rawFields P G self createdAt) := by
  refine ⟨fun m buffer => ?_, fun m hm before buffer => ?_, RawMessage.messageEncode_eq h hG,
    RawMessage.messageEncodeRepeated_eq h hG, fun self createdAt buffer => ?_⟩
  · have hd := RawMessage.denotes h hG m
    rw [hd.content, hd.measures]
  · have hf := RawMessage.fixed h hG hm
    rw [hf.writes, hf.measures]
  · rw [encodeRaw_bytes h hG]
    exact ⟨(raw_agree h hG self createdAt).measures buffer, rfl⟩

/-- A transaction that failed, with two signatures and without a return value. -/
def failedTransaction : ReplicaTransactionInfoV2 where
  signature := .replicate 64 1
  isVote := false
  transaction :=
    { signatures := [.replicate 64 1, .replicate 64 2]
      signed := by decide
      message := .legacy ⟨2, 0, 1⟩ [.replicate 32 3] (.replicate 32 4) [⟨0, [0], []⟩] }
  transactionStatusMeta :=
    { status := .error ⟨[8, 0, 0, 0]⟩
      fee := 5000
      preBalances := [300, 0]
      postBalances := [0]
      innerInstructions := some [⟨0, [⟨⟨1, [], [9]⟩, some 2⟩]⟩]
      logMessages := none
      preTokenBalances := some [⟨0, "mint", ⟨none, 6, "10", "0.00001"⟩, "owner", ""⟩]
      postTokenBalances := none
      rewards := some [⟨"validator", -7, 0, some .fee, some 10⟩]
      loadedAddresses := ⟨[], [.replicate 32 5]⟩
      returnData := none
      computeUnitsConsumed := some 0 }
  index := 1

/-- A failed transaction, whose error passes through a used buffer. -/
theorem encodedLen_exact_failedTransaction :
    (encodeRaw wire (generated wire) (.transaction 7 failedTransaction) ⟨1, 0⟩ [6, 6, 6]).1.2.length
      = 432 :=
  have hexact := encodedLen_exact wire_documented (generated_documented wire).exact
  (hexact.2.2.2.2 (.transaction 7 failedTransaction) ⟨1, 0⟩ [6, 6, 6]).1.symm.trans
    (by decide +kernel)

end

end Dragonmouth.Encoding
