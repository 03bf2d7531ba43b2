import Dragonmouth.Encoding.Length

/-!
# The two encoders agree

The raw encoder writes, message by message, the bytes of the fields that the schema
gives to the converted message. It writes keys and hashes also when they are empty,
which is the only difference.

## Main definitions

- `encodeProst`: an update through the generated types
- `Sized`: updates whose keys and hashes are not empty
-/

namespace Dragonmouth.Encoding

open Writer
open Plugin (ReplicaAccountInfoV3 ReplicaTransactionInfoV2 ReplicaEntryInfoV2 ReplicaBlockInfoV4
  SlotStatus Reward RewardType RewardsAndNumPartitions SanitizedTransaction SanitizedMessage
  MessageHeader CompiledInstruction MessageAddressTableLookup TransactionStatusMeta
  TransactionError InnerInstructions InnerInstruction TransactionTokenBalance UiTokenAmount
  TransactionReturnData ProtobufMessage)

section

variable (G : Generated)

def slotStatusLevel : SlotStatus → Proto.CommitmentLevel
  | .processed => .processed
  | .rooted => .finalized
  | .confirmed => .confirmed
  | .firstShredReceived => .firstShredReceived
  | .completed => .completed
  | .createdBank => .createdBank
  | .dead _ => .dead

def updateAccount (slot : Slot) (account : ReplicaAccountInfoV3) :
    Proto.SubscribeUpdateAccount where
  account := some
    { pubkey := account.pubkey
      lamports := account.lamports
      owner := account.owner
      executable := account.executable
      rentEpoch := account.rentEpoch
      data := account.data
      writeVersion := account.writeVersion
      txnSignature := account.txn.map fun transaction => transaction.signature.toList }
  slot := slot
  isStartup := false

def updateSlot (slot : Slot) (parent : Option Slot) (status : SlotStatus) :
    Proto.SubscribeUpdateSlot where
  slot := slot
  parent := parent
  status := (slotStatusLevel status).toInt32
  deadError := match status with
    | .dead error => some error
    | _ => none

def updateTransaction (slot : Slot) (transaction : ReplicaTransactionInfoV2) :
    Proto.SubscribeUpdateTransaction where
  transaction := some
    { signature := transaction.signature.toList
      isVote := transaction.isVote
      transaction := some (G.createTransaction transaction.transaction)
      txMeta := some (G.createTransactionMeta transaction.transactionStatusMeta)
      index := transaction.index }
  slot := slot

def updateBlockMeta (blockinfo : ReplicaBlockInfoV4) : Proto.SubscribeUpdateBlockMeta where
  slot := blockinfo.slot
  blockhash := blockinfo.blockhash
  rewards := some (G.createRewardsObj blockinfo.rewards.rewards blockinfo.rewards.numPartitions)
  blockTime := blockinfo.blockTime.map G.createTimestamp
  blockHeight := blockinfo.blockHeight.map G.createBlockHeight
  parentSlot := blockinfo.parentSlot
  parentBlockhash := blockinfo.parentBlockhash
  executedTransactionCount := blockinfo.executedTransactionCount
  entriesCount := blockinfo.entryCount

def updateEntry (entry : ReplicaEntryInfoV2) : Proto.SubscribeUpdateEntry where
  slot := entry.slot
  index := entry.index
  numHashes := entry.numHashes
  hash := entry.hash
  executedTransactionCount := entry.executedTransactionCount
  startingTransactionIndex := entry.startingTransactionIndex

/-- The update `ProtobufMessage::encode_prost` builds. -/
def subscribeUpdate (self : ProtobufMessage) (createdAt : Proto.Timestamp) :
    Proto.SubscribeUpdate where
  filters := []
  updateOneof := some <| match self with
    | .account slot account => .account (updateAccount slot account)
    | .slot slot parent status => .slot (updateSlot slot parent status)
    | .transaction slot transaction => .transaction (updateTransaction G slot transaction)
    | .blockMeta blockinfo => .blockMeta (updateBlockMeta G blockinfo)
    | .entry entry => .entry (updateEntry entry)
  createdAt := some createdAt

/-- `ProtobufMessage::encode_prost`. -/
def encodeProst (self : ProtobufMessage) (createdAt : Proto.Timestamp) : Bytes :=
  G.encodeToVec (subscribeUpdate G self createdAt)

end

/-- Accounts have a key and an owner, and entries a hash. -/
def Sized : ProtobufMessage → Prop
  | .account _ account => account.pubkey ≠ [] ∧ account.owner ≠ []
  | .entry entry => entry.hash ≠ []
  | _ => True

-- ════════════════════════════════════════════════════════════════════════
-- Fields that write the same
-- ════════════════════════════════════════════════════════════════════════

/-- Fields that write the same bytes. -/
def SameBytes (P : Prost) (f g : Field) : Prop := f.write P = g.write P

/-- Messages are written the same if their fields are, one by one. -/
theorem fieldsWrite_congr {P : Prost} {fs gs : List Field} (h : List.Forall₂ (SameBytes P) fs gs) :
    fieldsWrite P fs = fieldsWrite P gs := by
  induction h with
  | nil => rfl
  | cons head _ ih =>
    change _ ++ fieldsWrite P _ = _ ++ fieldsWrite P _
    rw [head, ih]

section

variable {P : Prost}

theorem SameBytes.of_eq {f g : Field} (h : f = g) : SameBytes P f g := congrArg (Field.write P) h

/-- A nested message is written the same if its body is. -/
theorem SameBytes.message (tag : ℕ) {bs bs' : Bytes} (h : bs = bs') :
    SameBytes P (.message tag (some bs)) (.message tag (some bs')) := .of_eq (by rw [h])

/-- Bodies that agree with those of the converted elements. -/
theorem SameBytes.messages {ι κ : Type} (tag : ℕ) (xs : List ι) {c : ι → κ} {f : ι → Bytes}
    {g : κ → Bytes} (h : ∀ x, f x = g (c x)) :
    SameBytes P (.messages tag (xs.map f)) (.messages tag ((xs.map c).map g)) := by
  rw [List.map_map, funext h]
  rfl

/-- An optional message is written the same if every body agrees with the converted one. -/
theorem SameBytes.optionalMessage {ι κ : Type} (tag : ℕ) (o : Option ι) {c : ι → κ}
    {f : ι → Bytes} {g : κ → Bytes} (h : ∀ x, f x = g (c x)) :
    SameBytes P (.message tag (o.map f)) (.message tag ((o.map c).map g)) := by
  rw [Option.map_map, funext h]
  rfl

namespace Prost.WireFormat

variable (h : P.WireFormat)

include h

theorem slice_write (tag : ℕ) (value : Bytes) :
    (Value.slice value).write P tag = (Value.bytes value).write P tag :=
  (h.bytes tag value).symm

/-- A slice is written like a `bytes` field, left out when it is empty. -/
theorem slice_same (tag : ℕ) (value : Bytes) :
    SameBytes P (.implicit tag (.slice value)) (.implicit tag (.bytes value)) := by
  rw [SameBytes, Field.write, Field.write, h.slice_write]
  rfl

/-- A key written unconditionally is one written unless empty. -/
theorem key_same (tag : ℕ) {value : Bytes} (hne : value ≠ []) :
    SameBytes P (.always tag (.slice value)) (.implicit tag (.bytes value)) := by
  rw [SameBytes, Field.write, Field.write, h.slice_write, if_neg]
  exact hne

/-- A key of a fixed length is never empty, so writing it always is the same. -/
theorem vector_same (tag : ℕ) {n : ℕ} (value : Vector UInt8 (n + 1)) :
    SameBytes P (.always tag (.slice value.toList)) (.implicit tag (.bytes value.toList)) := by
  refine h.key_same tag fun hnil => ?_
  have hlen : value.toList.length = n + 1 := Vector.length_toList
  rw [hnil] at hlen
  cases hlen

/-- Slices one after the other are written like a repeated `bytes` field. -/
theorem slices_same {ι : Type} (tag : ℕ) (xs : List ι) (f : ι → Bytes) :
    SameBytes P (.repeated tag (xs.map fun x => .slice (f x)))
      (.repeated tag ((xs.map f).map .bytes)) := by
  rw [SameBytes, Field.write, Field.write, List.flatMap_map, List.flatMap_map, List.flatMap_map]
  exact congrArg (List.flatMap · xs) (funext fun x => h.slice_write tag (f x))

/-- A string written as its bytes. -/
theorem string_same (tag : ℕ) (value : String) :
    SameBytes P (.implicit tag (.slice (strBytes value))) (.implicit tag (.string value)) := by
  have hdefault : (Value.slice (strBytes value)).IsDefault ↔ (Value.string value).IsDefault :=
    strBytes_eq_nil value
  have hwrite : (Value.slice (strBytes value)).write P tag = (Value.string value).write P tag :=
    (h.string tag value).symm
  simp only [SameBytes, Field.write, hdefault, hwrite]

/-- An optional slice is written like an optional `bytes` field. -/
theorem optional_slice_same {ι : Type} (tag : ℕ) (o : Option ι) (f : ι → Bytes) :
    SameBytes P (.optional tag (o.map fun x => .slice (f x)))
      (.optional tag ((o.map f).map .bytes)) := by
  cases o with
  | none => rfl
  | some x => exact h.slice_write tag (f x)

/-- A list of strings that is missing is written like an empty one. -/
theorem strings_same (tag : ℕ) (values : Option (List String)) :
    SameBytes P (.strings tag values) (.strings tag (some (values.getD []))) := by
  cases values with
  | none => exact (h.stringRepeated tag []).symm
  | some values => rfl

end Prost.WireFormat

end

/-- The table holds the decimal strings of the bytes. -/
theorem numStrings_toList : numStrings.toList = (List.range 256).map toString := by
  decide +kernel

/-- The table gives the string that the conversion prints. -/
theorem u8ToStaticStr_eq (num : UInt8) : u8ToStaticStr num = toString num.toNat := by
  have hlt := num.toNat_lt
  rw [u8ToStaticStr, Array.getD_eq_getD_getElem?, ← Array.getElem?_toList, numStrings_toList]
  simp [hlt]

/-- Both encoders number the reward types alike. -/
theorem rewardTypeAsI32_eq (rewardType : Option RewardType) :
    rewardTypeAsI32 rewardType = ConvertTo.createRewardType rewardType := by
  cases rewardType with
  | none => rfl
  | some t => cases t <;> rfl

-- ════════════════════════════════════════════════════════════════════════
-- Messages of the raw encoder and their conversions
-- ════════════════════════════════════════════════════════════════════════

section

variable {P : Prost} {G : Generated} (h : P.WireFormat) (hG : G.Documented P)

include h

/-- A reward is written as its conversion; the commission is taken from the table. -/
theorem reward_same (self : Reward) :
    fieldsWrite P (rewardFields self) = fieldsWrite P (ConvertTo.createReward self).fields := by
  refine fieldsWrite_congr (.cons rfl <| .cons rfl <| .cons rfl <|
    .cons (.of_eq (by rw [rewardTypeAsI32_eq]; rfl)) <| .cons ?_ .nil)
  rw [ConvertTo.createReward]
  cases self.commission with
  | none => rfl
  | some commission =>
    have hd : ¬(Value.string (toString commission.toNat)).IsDefault := Nat.repr_ne_empty
    rw [SameBytes, Option.map_some, Option.elim_some, Field.write, Field.write, if_neg hd,
      u8ToStaticStr_eq]
    exact (h.string 5 _).symm

theorem instruction_same (self : CompiledInstruction) :
    fieldsWrite P (compiledInstructionFields self) =
      fieldsWrite P (ConvertTo.createInstruction self).fields :=
  fieldsWrite_congr
    (.cons rfl <| .cons (h.slice_same 2 _) <| .cons (h.slice_same 3 _) .nil)

theorem lookup_same (self : MessageAddressTableLookup) :
    fieldsWrite P (messageAddressTableLookupFields self) =
      fieldsWrite P (ConvertTo.createLookup self).fields :=
  fieldsWrite_congr
    (.cons (h.vector_same 1 _) <| .cons (h.slice_same 2 _) <| .cons (h.slice_same 3 _) .nil)

theorem message_same (self : SanitizedMessage) :
    fieldsWrite P (sanitizedMessageFields P self) =
      fieldsWrite P ((ConvertTo.createMessage self).fields P) := by
  cases self with
  | legacy header accountKeys recentBlockhash instructions =>
    exact fieldsWrite_congr
      (.cons rfl <| .cons (h.slices_same 2 _ _) <| .cons (h.vector_same 3 _) <|
        .cons (.messages 4 _ (instruction_same h)) <| .cons rfl <| .cons rfl .nil)
  | v0 header accountKeys recentBlockhash instructions addressTableLookups =>
    exact fieldsWrite_congr
      (.cons rfl <| .cons (h.slices_same 2 _ _) <| .cons (h.vector_same 3 _) <|
        .cons (.messages 4 _ (instruction_same h)) <| .cons rfl <|
        .cons (.messages 6 _ (lookup_same h)) .nil)

theorem sanitizedTransaction_same (self : SanitizedTransaction) :
    fieldsWrite P (sanitizedTransactionFields P self) =
      fieldsWrite P ((ConvertTo.createTransaction self).fields P) :=
  fieldsWrite_congr
    (.cons (h.slices_same 1 _ _) <| .cons (.message 2 (message_same h self.message)) .nil)

theorem innerInstruction_same (self : InnerInstruction) :
    fieldsWrite P (innerInstructionFields self) =
      fieldsWrite P (ConvertTo.createInnerInstruction self).fields :=
  fieldsWrite_congr
    (.cons rfl <| .cons (h.slice_same 2 _) <| .cons (h.slice_same 3 _) <| .cons rfl .nil)

theorem innerInstructions_same (self : InnerInstructions) :
    fieldsWrite P (innerInstructionsFields P self) =
      fieldsWrite P ((ConvertTo.createInnerInstructions self).fields P) :=
  fieldsWrite_congr (.cons rfl <| .cons (.messages 2 _ (innerInstruction_same h)) .nil)

theorem returnData_same (self : TransactionReturnData) :
    fieldsWrite P (transactionReturnDataFields self) =
      fieldsWrite P (ConvertTo.createReturnData self).fields :=
  fieldsWrite_congr (.cons (h.vector_same 1 _) <| .cons (h.slice_same 2 _) .nil)

omit h in
/-- The error of a transaction is written if there is one, by both encoders. -/
theorem error_same (self : TransactionStatusMeta) :
    SameBytes P
      (.message 1 ((statusErr self).map fun err => fieldsWrite P (transactionErrorFields err)))
      (.message 1 ((ConvertTo.createTransactionError self.status).map fun err =>
        fieldsWrite P err.fields)) := by
  rw [statusErr]
  cases self.status <;> rfl

omit h in
theorem tokenBalance_same (self : TransactionTokenBalance) :
    fieldsWrite P (transactionTokenBalanceFields P self) =
      fieldsWrite P ((ConvertTo.createTokenBalance self).fields P) := rfl

/-- The meta is written as its conversion, field by field. -/
theorem transactionStatusMeta_same (self : TransactionStatusMeta) :
    fieldsWrite P (transactionStatusMetaFields P self) =
      fieldsWrite P ((ConvertTo.createTransactionMeta self).fields P) :=
  fieldsWrite_congr
    (.cons (error_same self) <| .cons rfl <| .cons rfl <| .cons rfl <|
      .cons (.messages 5 _ (innerInstructions_same h)) <| .cons (h.strings_same 6 _) <|
      .cons (.messages 7 _ tokenBalance_same) <| .cons (.messages 8 _ tokenBalance_same) <|
      .cons (.messages 9 _ (reward_same h)) <| .cons rfl <| .cons rfl <|
      .cons (h.slices_same 12 _ _) <| .cons (h.slices_same 13 _ _) <|
      .cons (.optionalMessage 14 _ (returnData_same h)) <| .cons rfl <| .cons rfl .nil)

/-- An account is written as its update; the two keys are written even when empty, so
they must not be. -/
theorem account_same (slot : Slot) {self : ReplicaAccountInfoV3} (hpubkey : self.pubkey ≠ [])
    (howner : self.owner ≠ []) : fieldsWrite P (accountFields P slot self) =
      fieldsWrite P ((updateAccount slot self).fields P) := by
  have hreplica : List.Forall₂ (SameBytes P) (accountReplicaFields self) _ :=
    .cons (h.key_same 1 hpubkey) <| .cons rfl <| .cons (h.key_same 3 howner) <| .cons rfl <|
      .cons rfl <| .cons (h.slice_same 6 _) <| .cons rfl <|
      .cons (h.optional_slice_same 8 self.txn _) .nil
  -- `is_startup` is never set
  have hstartup : fieldsWrite P (accountFields P slot self) =
      fieldsWrite P (accountFields P slot self ++ [.implicit 3 (.bool false)]) := rfl
  rw [hstartup]
  exact fieldsWrite_congr (.cons (.message 1 (fieldsWrite_congr hreplica)) <|
    .cons rfl <| .cons rfl .nil)

omit h in
theorem slot_same (self : Slot) (parent : Option Slot) (status : SlotStatus) :
    fieldsWrite P (slotFields self parent status) =
      fieldsWrite P (updateSlot self parent status).fields := by
  cases status <;> rfl

theorem entry_same {self : ReplicaEntryInfoV2} (hhash : self.hash ≠ []) :
    fieldsWrite P (entryFields self) = fieldsWrite P (updateEntry self).fields :=
  fieldsWrite_congr
    (.cons rfl <| .cons rfl <| .cons rfl <| .cons (h.key_same 4 hhash) <| .cons rfl <|
      .cons rfl .nil)

include hG

theorem transaction_same (slot : Slot) (self : ReplicaTransactionInfoV2) :
    fieldsWrite P (transactionFields P slot self) =
      fieldsWrite P ((updateTransaction G slot self).fields P) := by
  rw [updateTransaction, hG.createTransaction, hG.createTransactionMeta]
  have hreplica : List.Forall₂ (SameBytes P) (transactionReplicaFields P self) _ :=
    .cons (h.vector_same 1 _) <| .cons rfl <|
      .cons (.message 3 (sanitizedTransaction_same h self.transaction)) <|
      .cons (.message 4 (transactionStatusMeta_same h self.transactionStatusMeta)) <|
      .cons rfl .nil
  exact fieldsWrite_congr (.cons (.message 1 (fieldsWrite_congr hreplica)) <| .cons rfl .nil)

theorem rewards_same (self : RewardsAndNumPartitions) :
    fieldsWrite P (rewardsAndNumPartitionsFields P G self) =
      fieldsWrite P ((G.createRewardsObj self.rewards self.numPartitions).fields P) := by
  rw [hG.createRewardsObj]
  refine fieldsWrite_congr (.cons (.messages 1 _ (reward_same h)) <|
    .cons (.optionalMessage 2 _ fun numPartitions => ?_) .nil)
  rw [hG.createNumPartitions]
  exact (hG.numPartitions _).content []

theorem blockMeta_same (self : ReplicaBlockInfoV4) :
    fieldsWrite P (blockMetaFields P G self) =
      fieldsWrite P ((updateBlockMeta G self).fields P) :=
  fieldsWrite_congr
    (.cons rfl <| .cons (h.string_same 2 _) <|
      .cons (.message 3 (rewards_same h hG self.rewards)) <|
      .cons (.optionalMessage 4 _ fun _ => (hG.unixTimestamp _).content []) <|
      .cons (.optionalMessage 5 _ fun _ => (hG.blockHeight _).content []) <| .cons rfl <|
      .cons (h.string_same 7 _) <| .cons rfl <| .cons rfl .nil)

/-- An update is written the same by both encoders. -/
theorem update_same {self : ProtobufMessage} (hself : Sized self) (createdAt : Proto.Timestamp) :
    fieldsWrite P (rawFields P G self createdAt) =
      fieldsWrite P ((subscribeUpdate G self createdAt).fields P) := by
  have hfilters : fieldsWrite P (rawFields P G self createdAt) =
      fieldsWrite P (.strings 1 (some []) :: rawFields P G self createdAt) := by
    change _ = P.stringRepeated.write 1 [] ++ _
    rw [h.stringRepeated]
    rfl
  have hcreated : SameBytes P (.message 11 (some (generatedBytes (G.timestamp createdAt))))
      (.message 11 (some (fieldsWrite P createdAt.fields))) :=
    .message 11 ((hG.timestamp createdAt).content [])
  rw [hfilters]
  cases self with
  | account slot account =>
    exact fieldsWrite_congr (.cons rfl <|
      .cons (.message 2 (account_same h slot hself.1 hself.2)) <| .cons hcreated .nil)
  | slot slot parent status =>
    exact fieldsWrite_congr (.cons rfl <| .cons (.message 3 (slot_same slot parent status)) <|
      .cons hcreated .nil)
  | transaction slot transaction =>
    exact fieldsWrite_congr (.cons rfl <|
      .cons (.message 4 (transaction_same h hG slot transaction)) <| .cons hcreated .nil)
  | blockMeta blockinfo =>
    exact fieldsWrite_congr (.cons rfl <| .cons (.message 7 (blockMeta_same h hG blockinfo)) <|
      .cons hcreated .nil)
  | entry entry =>
    exact fieldsWrite_congr (.cons rfl <| .cons (.message 8 (entry_same h hself)) <|
      .cons hcreated .nil)

end

/-- An account without data that no transaction has changed. -/
def fundedAccount : ReplicaAccountInfoV3 where
  pubkey := .replicate 32 1
  lamports := 300
  owner := .replicate 32 2
  executable := false
  rentEpoch := 0
  data := []
  writeVersion := 6
  txn := none

/-- Both encoders produce the same bytes. -/
theorem encodeRaw_eq_encodeProst {P : Prost} {G : Generated} (h : P.Documented)
    (hwire : P.WireFormat) (hG : G.Documented P) (self : ProtobufMessage) (hself : Sized self)
    (createdAt : Proto.Timestamp) (buffer : Buffer) :
    (encodeRaw P G self createdAt buffer).1.2 = encodeProst G self createdAt := by
  rw [encodeRaw_bytes h hG.exact, update_same hwire hG hself, encodeProst, hG.encodeToVec]

/-- The bytes of an account, from the raw encoder over a used buffer. -/
theorem encodeRaw_eq_encodeProst_fundedAccount :
    (encodeRaw wire (generated wire) (.account 9 fundedAccount) ⟨1, 500⟩ [6, 6, 6]).1.2 =
      [18, 77, 10, 73, 10, 32] ++ .replicate 32 1 ++ [16, 172, 2, 26, 32] ++ .replicate 32 2 ++
        [56, 6, 16, 9, 90, 5, 8, 1, 16, 244, 3] :=
  (encodeRaw_eq_encodeProst wire_documented wire_wireFormat (generated_documented wire)
    (.account 9 fundedAccount) ⟨by decide, by decide⟩ ⟨1, 500⟩ [6, 6, 6]).trans
    (by decide +kernel)

/-- Without its hash, an entry is written with an empty field by the raw encoder only. -/
example : (encodeRaw wire (generated wire) (.entry ⟨9, 0, 0, [], 0, 0⟩) ⟨1, 500⟩ []).1.2 ≠
    encodeProst (generated wire) (.entry ⟨9, 0, 0, [], 0, 0⟩) ⟨1, 500⟩ := by
  decide +kernel

end Dragonmouth.Encoding
