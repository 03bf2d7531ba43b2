import Dragonmouth.Encoding.Agreement
import Dragonmouth.Filters.Decode
import Dragonmouth.Richat.ParsedPush

/-!
# From the validator to the subscriber

What the validator notifies the plugin of is encoded, sent, parsed and encoded again
before a subscriber decodes it. Nothing of it is lost on the way, and nothing but the
names of the filters is added.

## Main definitions

- `SubscribeUpdate.ofPlugin`: the update of a notification
- `KeysSized`: notifications with keys and hashes of the right length

## Main results

- `parse_encodeRaw`: every notification is accepted
- `delivered_as_notified`: a subscriber without restrictions decodes what was notified
-/

namespace Dragonmouth.Filters

open Checks Encoding
open Plugin (ProtobufMessage ReplicaAccountInfoV3 ReplicaTransactionInfoV2)

/-- A member of the `oneof` that the plugin produces. -/
def UpdateOneof.ofPlugin : Proto.UpdateOneof → UpdateOneof
  | .account message => .account message
  | .slot message => .slot message
  | .transaction message => .transaction message
  | .blockMeta message => .blockMeta message
  | .entry message => .entry message

def SubscribeUpdate.ofPlugin (update : Proto.SubscribeUpdate) : SubscribeUpdate where
  filters := update.filters
  updateOneof := update.updateOneof.map .ofPlugin
  createdAt := update.createdAt

theorem SubscribeUpdate.ofPlugin_fields (P : Prost) (update : Proto.SubscribeUpdate) :
    (ofPlugin update).fields P = update.fields P := by
  obtain ⟨filters, updateOneof, createdAt⟩ := update
  cases updateOneof with
  | none => rfl
  | some updateOneof => cases updateOneof <;> rfl

/-- The update of a notification. -/
def SubscribeUpdate.ofNotification (E : Generated) (self : ProtobufMessage)
    (createdAt : Proto.Timestamp) : SubscribeUpdate :=
  ofPlugin (subscribeUpdate E self createdAt)

/-- Keys and hashes have their lengths, which the validator guarantees. -/
def KeysSized : ProtobufMessage → Prop
  | .account _ account => account.pubkey.length = 32 ∧ account.owner.length = 32
  | .entry entry => entry.hash.length = 32
  | _ => True

theorem KeysSized.sized {self : ProtobufMessage} (h : KeysSized self) : Encoding.Sized self := by
  have hne : ∀ {bytes : Bytes}, bytes.length = 32 → bytes ≠ [] := by
    rintro bytes hlen rfl
    cases hlen
  cases self with
  | account slot account => exact ⟨hne h.1, hne h.2⟩
  | entry entry => exact hne h
  | _ => trivial

section

variable {P : Prost} {E : Generated}

/-- The plugin's bytes are those of the update. -/
theorem encodeRaw_fields (hP : P.Documented) (hwire : P.WireFormat) (hE : E.Documented P)
    {self : ProtobufMessage} (h : KeysSized self) (createdAt : Proto.Timestamp) (buffer : Buffer) :
    (encodeRaw P E self createdAt buffer).1.2 =
      fieldsWrite P ((SubscribeUpdate.ofNotification E self createdAt).fields P) := by
  rw [encodeRaw_bytes hP hE.exact, update_same hwire hE h.sized, SubscribeUpdate.ofNotification,
    SubscribeUpdate.ofPlugin_fields]

end

section

open MessageParserProst

variable {P : Prost} {G : Geyser} {E : Generated} (hE : E.Documented P)
  {capacity : Finset Pubkey → ℕ}

theorem toArray_toList {n : ℕ} (error : Richat.MessageParseError) (bytes : Vector UInt8 n) :
    toArray error bytes.toList = .ok bytes := toArray_ok.mpr rfl
theorem pubkeysOf_toList (keys : List Pubkey) : pubkeysOf (keys.map (·.toList)) = .ok keys := by
  rw [pubkeysOf, mapM_eq_ok, List.forall₂_map_left_iff, List.forall₂_same]
  exact fun key _ => toArray_toList _ key

/-- The static account keys of a message. -/
def accountKeysOf : Plugin.SanitizedMessage → List Pubkey
  | .legacy _ accountKeys _ _ | .v0 _ accountKeys _ _ _ => accountKeys

theorem pubkeysOf_createMessage (message : Plugin.SanitizedMessage) :
    pubkeysOf (ConvertTo.createMessage message).accountKeys = .ok (accountKeysOf message) := by
  cases message <;> exact pubkeysOf_toList _

theorem toArray_of_length {bytes : Bytes} (h : bytes.length = 32) :
    ∃ key : Pubkey, toArray .invalidPubkey bytes = .ok key :=
  ⟨_, dif_pos h⟩

theorem parseAccount_sized {account : Proto.SubscribeUpdateAccountInfo}
    (hpubkey : account.pubkey.length = 32) (howner : account.owner.length = 32) (slot : Slot)
    (isStartup : Bool) (createdAt : Proto.Timestamp) (size : ℕ) :
    ∃ message, parseAccount account slot isStartup createdAt size = .ok message ∧
      message.slot = slot := by
  obtain ⟨pubkey, hpubkey⟩ := toArray_of_length hpubkey
  obtain ⟨owner, howner⟩ := toArray_of_length howner
  exact ⟨_, bind_eq_ok.mpr ⟨pubkey, hpubkey, bind_eq_ok.mpr ⟨owner, howner, rfl⟩⟩, rfl⟩

include hE

/-- The keys of a transaction and the addresses loaded for it are keys. -/
theorem parseTransaction_converted (slot : Slot) (transaction : ReplicaTransactionInfoV2)
    (createdAt : Proto.Timestamp) (size : ℕ) : ∃ info message,
      (updateTransaction E slot transaction).transaction = some info ∧
      parseTransaction capacity info slot createdAt size = .ok message ∧
        message.slot = slot := by
  obtain ⟨info, hinfo, htransaction, hmeta, hsignature⟩ : ∃ info,
      (updateTransaction E slot transaction).transaction = some info ∧
      info.transaction = some (ConvertTo.createTransaction transaction.transaction) ∧
      info.txMeta = some (ConvertTo.createTransactionMeta transaction.transactionStatusMeta) ∧
      info.signature = transaction.signature.toList :=
    ⟨_, rfl, congrArg some (hE.createTransaction _),
      congrArg some (hE.createTransactionMeta _), rfl⟩
  have hstatic := pubkeysOf_createMessage transaction.transaction.message
  have hkeys : ∃ keys, genAccountKeysProst info
      (ConvertTo.createTransactionMeta transaction.transactionStatusMeta) = .ok keys :=
    ⟨_, bind_eq_ok.mpr ⟨_, required_ok.mpr htransaction, bind_eq_ok.mpr ⟨_, hstatic,
      bind_eq_ok.mpr ⟨_, pubkeysOf_toList _, bind_eq_ok.mpr ⟨_, pubkeysOf_toList _, rfl⟩⟩⟩⟩⟩
  obtain ⟨keys, hkeys⟩ := hkeys
  have hparsed : toArray .invalidSignature info.signature = .ok transaction.signature := by
    rw [hsignature]
    exact toArray_toList _ transaction.signature
  exact ⟨info, _, hinfo, bind_eq_ok.mpr ⟨_, required_ok.mpr hmeta, bind_eq_ok.mpr ⟨keys, hkeys,
    bind_eq_ok.mpr ⟨_, hparsed, rfl⟩⟩⟩, rfl⟩

/-- The parser takes every update of the plugin. -/
theorem parses_ofNotification {self : ProtobufMessage} (h : KeysSized self)
    (createdAt : Proto.Timestamp) (encodedLen : ℕ) :
    ∃ updateOneof message,
      (SubscribeUpdate.ofNotification E self createdAt).updateOneof = some updateOneof ∧
      Parses G capacity createdAt encodedLen updateOneof message ∧
      message.slotOf = self.getSlot := by
  cases self with
  | account slot account =>
    obtain ⟨info, hinfo, hpubkey, howner⟩ : ∃ info,
        (updateAccount slot account).account = some info ∧ info.pubkey = account.pubkey ∧
        info.owner = account.owner := ⟨_, rfl, rfl, rfl⟩
    obtain ⟨message, hparse, hslot⟩ := parseAccount_sized (hpubkey ▸ h.1) (howner ▸ h.2) slot
      false createdAt (encodedLen + pubkeyBytes + pubkeyBytes + signatureBytes)
    exact ⟨_, .account message, rfl, .account hinfo hparse, hslot⟩
  | slot slot parent status =>
    have hcommitment : Proto.CommitmentLevel.ofInt32 (slotStatusLevel status).toInt32 =
        some (slotStatusLevel status) := by
      cases status <;> rfl
    exact ⟨_, _, rfl, .slot hcommitment, rfl⟩
  | transaction slot transaction =>
    obtain ⟨info, message, hinfo, hparse, hslot⟩ :=
      parseTransaction_converted hE slot transaction createdAt encodedLen
    exact ⟨_, .transaction message, rfl, .transaction hinfo hparse, hslot⟩
  | entry entry => exact ⟨_, _, rfl, .entry, rfl⟩
  | blockMeta blockinfo => exact ⟨_, _, rfl, .blockMeta, rfl⟩

end

section

variable {P : Prost} {G : Geyser} {E : Generated} {decode : Bytes → Except String SubscribeUpdate}
  (hP : P.Documented) (hwire : P.WireFormat) (hE : E.Documented P) (hdecode : Decodes P decode)
include hP hwire hE hdecode

/-- What the plugin wrote is decoded to the update and accepted, as a message of the slot
of the notification. -/
theorem parse_encodeRaw {self : ProtobufMessage} (hkeys : KeysSized self)
    {createdAt : Proto.Timestamp}
    (h : (SubscribeUpdate.ofNotification E self createdAt).InRange P)
    (capacity : Finset Pubkey → ℕ) (buffer : Buffer) :
    ∃ message, Richat.Message.parse decode G capacity (encodeRaw P E self createdAt buffer).1.2 =
        .ok message ∧
      message.slotOf = self.getSlot ∧ ∃ encodedLen, MessageParserProst.parse G capacity
        (.ofNotification E self createdAt) encodedLen = .ok message := by
  have hdecoded : decode (encodeRaw P E self createdAt buffer).1.2 =
      .ok (.ofNotification E self createdAt) := by
    rw [encodeRaw_fields hP hwire hE hkeys]
    exact hdecode _ h
  obtain ⟨updateOneof, message, honeof, hparses, hslot⟩ := parses_ofNotification hE hkeys
    createdAt (encodeRaw P E self createdAt buffer).1.2.length
  have hparse : MessageParserProst.parse G capacity (.ofNotification E self createdAt)
      (some (encodeRaw P E self createdAt buffer).1.2.length) = .ok message :=
    MessageParserProst.parse_eq_ok.mpr ⟨createdAt, updateOneof, rfl, honeof, hparses⟩
  refine ⟨message, ?_, hslot, _, hparse⟩
  rw [Richat.Message.parse, hdecoded]
  exact hparse

omit hP hwire hE hdecode in
/-- Without its names an update is in range as well. -/
theorem SubscribeUpdate.InRange.unnamed {update : SubscribeUpdate} {filters : List String}
    (h : SubscribeUpdate.InRange P { update with filters := filters }) :
    SubscribeUpdate.InRange P { update with filters := [] } where
  fields field hfield := by
    rw [SubscribeUpdate.fields, List.append_assoc, List.singleton_append, List.mem_cons] at hfield
    obtain rfl | hfield := hfield
    · exact ⟨⟨Nat.zero_lt_one, (by decide : 1 < 2 ^ 29)⟩,
        fun _ hvalue => absurd hvalue List.not_mem_nil⟩
    · refine h.fields field ?_
      rw [SubscribeUpdate.fields, List.append_assoc, List.singleton_append]
      exact List.mem_cons_of_mem _ hfield
  updateOneof := h.updateOneof
  createdAt := h.createdAt

/-- A subscriber without restrictions decodes what the validator notified, with the names
of its filters. -/
theorem delivered_as_notified (hG : G.Documented P) {self : ProtobufMessage}
    (hkeys : KeysSized self) {createdAt : Proto.Timestamp} {filters : List String}
    (h : SubscribeUpdate.InRange P { SubscribeUpdate.ofNotification E self createdAt with
      filters := filters }) (capacity : Finset Pubkey → ℕ) (buffer : Buffer) :
    ∃ message, Richat.Message.parse decode G capacity (encodeRaw P E self createdAt buffer).1.2 =
        .ok message ∧
      message.slotOf = self.getSlot ∧
      ∃ data, FilteredUpdate.encode P G ⟨filters, .ofMessage message⟩ = .ok data ∧
        decode data =
          .ok { SubscribeUpdate.ofNotification E self createdAt with filters := filters } := by
  obtain ⟨message, hparsed, hslot, encodedLen, hparse⟩ :=
    parse_encodeRaw (G := G) hP hwire hE hdecode hkeys h.unnamed capacity buffer
  have hblock : ∀ block, (SubscribeUpdate.ofNotification E self createdAt).updateOneof =
      some (.block block) → block.updatedAccountCount = block.accounts.length := by
    intro block hblock
    cases self <;> cases hblock
  obtain ⟨built, hbuilt, hupdate⟩ := message_of_parse hparse hblock filters
  refine ⟨message, hparsed, hslot, built.encodeToVec P G,
    bind_eq_ok.mpr ⟨built, hbuilt, rfl⟩, ?_⟩
  rw [built.decode_encodeToVec hP hwire hG hdecode (hupdate ▸ h), hupdate]

end

/-- An account, for a subscriber with one filter. -/
theorem delivered_as_notified_fundedAccount : ∃ message,
    Richat.Message.parse SubscribeUpdate.decode (geyser wire) Finset.card
      (encodeRaw wire (generated wire) (.account 9 fundedAccount) ⟨1, 500⟩ [6, 6, 6]).1.2 =
        .ok message ∧ message.slotOf = 9 ∧
    ∃ data, FilteredUpdate.encode wire (geyser wire) ⟨["client"], .ofMessage message⟩ =
        .ok data ∧
      SubscribeUpdate.decode data = .ok
        { SubscribeUpdate.ofNotification (generated wire) (.account 9 fundedAccount) ⟨1, 500⟩ with
          filters := ["client"] } := by
  have hkeys : KeysSized (.account 9 fundedAccount) := ⟨rfl, rfl⟩
  have hrange : SubscribeUpdate.InRange wire
      { SubscribeUpdate.ofNotification (generated wire) (.account 9 fundedAccount) ⟨1, 500⟩ with
        filters := ["client"] } := by
    refine ⟨by decide +kernel, ?_, ?_⟩
    · rintro _ ⟨⟩
      refine ⟨by decide +kernel, ?_⟩
      rintro _ ⟨⟩
      decide +kernel
    · rintro _ ⟨⟩
      decide +kernel
  exact delivered_as_notified wire_documented wire_wireFormat (generated_documented wire)
    decodes_wire (geyser_documented wire) hkeys hrange Finset.card [6, 6, 6]

end Dragonmouth.Filters
