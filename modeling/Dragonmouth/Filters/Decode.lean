import Dragonmouth.Encoding.Decode
import Dragonmouth.Filters.Reencode

/-!
# Decoding updates

An update of any kind is decoded from its bytes, and what a subscriber decodes is the
message that was encoded for its filters. Numbers have to fit their types for that.

## Main definitions

- `SubscribeUpdate.decode`: the decoder of updates
- `SubscribeUpdate.InRange`: updates that can be read back
- `Decodes`: what is documented of a decoder

## Main results

- `SubscribeUpdate.decode_fieldsWrite`: decoding takes back what was encoded
- `FilteredUpdate.decoded_as_selected`: a subscriber decodes what was selected for it
-/

namespace Dragonmouth.Filters

open Checks Encoding Encoding.Decode Records
open Proto (Timestamp TransactionError Rewards UnixTimestamp BlockHeight SubscribeUpdateAccount
  SubscribeUpdateAccountInfo SubscribeUpdateSlot SubscribeUpdateTransaction
  SubscribeUpdateTransactionInfo SubscribeUpdateEntry SubscribeUpdateBlockMeta)

section

variable (records : List Record)

def SubscribeUpdateTransactionStatus.ofRecords : Option SubscribeUpdateTransactionStatus := do
  let slot ← uint64 1 records
  let signature ← bytes 2 records
  let isVote ← bool 3 records
  let index ← uint64 4 records
  let err ← nested TransactionError.ofRecords 5 records
  some { slot := slot, signature := signature, isVote := isVote, index := index, err := err }

def SubscribeUpdateBlock.ofRecords : Option SubscribeUpdateBlock := do
  let slot ← uint64 1 records
  let blockhash ← string 2 records
  let rewards ← nested Rewards.ofRecords 3 records
  let blockTime ← nested UnixTimestamp.ofRecords 4 records
  let blockHeight ← nested BlockHeight.ofRecords 5 records
  let transactions ← nestedAll SubscribeUpdateTransactionInfo.ofRecords 6 records
  let parentSlot ← uint64 7 records
  let parentBlockhash ← string 8 records
  let executedTransactionCount ← uint64 9 records
  let updatedAccountCount ← uint64 10 records
  let accounts ← nestedAll SubscribeUpdateAccountInfo.ofRecords 11 records
  let entriesCount ← uint64 12 records
  let entries ← nestedAll SubscribeUpdateEntry.ofRecords 13 records
  some
    { slot := slot
      blockhash := blockhash
      rewards := rewards
      blockTime := blockTime
      blockHeight := blockHeight
      parentSlot := parentSlot
      parentBlockhash := parentBlockhash
      executedTransactionCount := executedTransactionCount
      transactions := transactions
      updatedAccountCount := updatedAccountCount
      accounts := accounts
      entriesCount := entriesCount
      entries := entries }

/-- A member of the `oneof` by its tag. -/
def UpdateOneof.ofBody (body : Bytes) : ℕ → Option UpdateOneof
  | 2 => (message SubscribeUpdateAccount.ofRecords body).map account
  | 3 => (message SubscribeUpdateSlot.ofRecords body).map slot
  | 4 => (message SubscribeUpdateTransaction.ofRecords body).map transaction
  | 5 => (message SubscribeUpdateBlock.ofRecords body).map block
  | 6 => (readRecords body).map fun _ => ping
  | 7 => (message SubscribeUpdateBlockMeta.ofRecords body).map blockMeta
  | 8 => (message SubscribeUpdateEntry.ofRecords body).map entry
  | 9 => (message (int32 1) body).map pong
  | 10 => (message SubscribeUpdateTransactionStatus.ofRecords body).map transactionStatus
  | _ => none

def UpdateOneof.ofChosen : Option (ℕ × Bytes) → Option (Option UpdateOneof)
  | some (tag, body) => (ofBody body tag).map some
  | none => some none

/-- The tags of the members of the `oneof`. -/
def oneofTags : List ℕ := [2, 3, 4, 5, 6, 7, 8, 9, 10]

def SubscribeUpdate.ofRecords : Option SubscribeUpdate := do
  let filters ← repeated string? 1 records
  let found ← chosen oneofTags records
  let updateOneof ← UpdateOneof.ofChosen found
  let createdAt ← nested Timestamp.ofRecords 11 records
  some { filters := filters, updateOneof := updateOneof, createdAt := createdAt }

end

/-- `SubscribeUpdate::decode`; the error says nothing. -/
def SubscribeUpdate.decode (data : Bytes) : Except String SubscribeUpdate :=
  (message ofRecords data).elim (.error "") .ok

-- ════════════════════════════════════════════════════════════════════════
-- What can be read back
-- ════════════════════════════════════════════════════════════════════════

structure SubscribeUpdateTransactionStatus.InRange (P : Prost)
    (update : SubscribeUpdateTransactionStatus) : Prop where
  fields : Encoding.InRange (update.fields P)
  err : ∀ err ∈ update.err, Encoding.InRange err.fields

structure SubscribeUpdateBlock.InRange (P : Prost) (update : SubscribeUpdateBlock) : Prop where
  fields : Encoding.InRange (update.fields P)
  rewards : ∀ rewards ∈ update.rewards, rewards.InRange P
  blockTime : ∀ blockTime ∈ update.blockTime, Encoding.InRange blockTime.fields
  blockHeight : ∀ blockHeight ∈ update.blockHeight, Encoding.InRange blockHeight.fields
  transactions : ∀ transaction ∈ update.transactions, transaction.InRange P
  accounts : ∀ account ∈ update.accounts, Encoding.InRange account.fields
  entries : ∀ entry ∈ update.entries, Encoding.InRange entry.fields

def UpdateOneof.InRange (P : Prost) : UpdateOneof → Prop
  | account message => message.InRange P
  | slot message => Encoding.InRange message.fields
  | transaction message => message.InRange P
  | transactionStatus message => message.InRange P
  | block message => message.InRange P
  | ping => True
  | pong id => Encoding.InRange [.implicit 1 (.int32 id)]
  | blockMeta message => message.InRange P
  | entry message => Encoding.InRange message.fields

structure SubscribeUpdate.InRange (P : Prost) (update : SubscribeUpdate) : Prop where
  fields : Encoding.InRange (update.fields P)
  updateOneof : ∀ updateOneof ∈ update.updateOneof, updateOneof.InRange P
  createdAt : ∀ createdAt ∈ update.createdAt, Encoding.InRange createdAt.fields

-- ════════════════════════════════════════════════════════════════════════
-- Decoding what was encoded
-- ════════════════════════════════════════════════════════════════════════

theorem SubscribeUpdateTransactionStatus.decode {self : SubscribeUpdateTransactionStatus}
    (h : self.InRange wire) : message ofRecords (fieldsWrite wire (self.fields wire)) = some self :=
  (message_fieldsWrite h.fields _).trans <| and_then (uint64_at h.fields rfl) <|
    and_then (byte_string_at h.fields rfl) <| and_then (bool_at h.fields rfl) <|
    and_then (uint64_at h.fields rfl) <|
    and_then (message_at rfl fun x hx => TransactionError.decode (h.err x hx)) rfl

theorem SubscribeUpdateBlock.decode {self : SubscribeUpdateBlock} (h : self.InRange wire) :
    message ofRecords (fieldsWrite wire (self.fields wire)) = some self :=
  (message_fieldsWrite h.fields _).trans <| and_then (uint64_at h.fields rfl) <|
    and_then (string_at h.fields rfl) <|
    and_then (message_at rfl fun x hx => Rewards.decode (h.rewards x hx)) <|
    and_then (message_at rfl fun x hx => UnixTimestamp.decode (h.blockTime x hx)) <|
    and_then (message_at rfl fun x hx => BlockHeight.decode (h.blockHeight x hx)) <|
    and_then (messages_at rfl fun x hx =>
      SubscribeUpdateTransactionInfo.decode (h.transactions x hx)) <|
    and_then (uint64_at h.fields rfl) <| and_then (string_at h.fields rfl) <|
    and_then (uint64_at h.fields rfl) <| and_then (uint64_at h.fields rfl) <|
    and_then (messages_at rfl fun x hx => SubscribeUpdateAccountInfo.decode (h.accounts x hx)) <|
    and_then (uint64_at h.fields rfl) <|
    and_then (messages_at rfl fun x hx => SubscribeUpdateEntry.decode (h.entries x hx)) rfl

theorem UpdateOneof.decode {self : UpdateOneof} (h : self.InRange wire) :
    ∃ tag body, self.field wire = .message tag (some body) ∧ tag ∈ oneofTags ∧
      ofBody body tag = some self := by
  cases self with
  | account message =>
    exact ⟨2, _, rfl, by decide, congrArg (Option.map account) (SubscribeUpdateAccount.decode h)⟩
  | slot message =>
    exact ⟨3, _, rfl, by decide, congrArg (Option.map slot) (SubscribeUpdateSlot.decode h)⟩
  | transaction message =>
    exact ⟨4, _, rfl, by decide,
      congrArg (Option.map transaction) (SubscribeUpdateTransaction.decode h)⟩
  | block message =>
    exact ⟨5, _, rfl, by decide, congrArg (Option.map block) (SubscribeUpdateBlock.decode h)⟩
  | ping => exact ⟨6, [], rfl, by decide, rfl⟩
  | blockMeta message =>
    exact ⟨7, _, rfl, by decide,
      congrArg (Option.map blockMeta) (SubscribeUpdateBlockMeta.decode h)⟩
  | entry message =>
    exact ⟨8, _, rfl, by decide, congrArg (Option.map entry) (SubscribeUpdateEntry.decode h)⟩
  | pong id =>
    have hid : message (int32 1) (fieldsWrite wire [.implicit 1 (.int32 id)]) = some id :=
      (message_fieldsWrite h _).trans (int32_at h rfl)
    exact ⟨9, _, rfl, by decide, congrArg (Option.map pong) hid⟩
  | transactionStatus message =>
    exact ⟨10, _, rfl, by decide,
      congrArg (Option.map transactionStatus) (SubscribeUpdateTransactionStatus.decode h)⟩

/-- The records of the `oneof` are those of the fields with a tag of it. -/
theorem filter_fieldRecords (fields : List Field) :
    (fieldRecords fields).filter (fun record => record.tag ∈ oneofTags) =
      fieldRecords (fields.filter fun field => field.tag ∈ oneofTags) :=
  filter_recordsOf fun found => decide (found ∈ oneofTags)

/-- The record of the `oneof` is the only one with a tag of it. -/
theorem chosen_fields {tag : ℕ} {body : Bytes} (htag : tag ∈ oneofTags) (filters : List String)
    (createdAt : Option Bytes) :
    chosen oneofTags (fieldRecords [.strings 1 (some filters), .message tag (some body),
      .message 11 createdAt]) = some (some (tag, body)) := by
  have hone : [Field.strings 1 (some filters), .message tag (some body),
      .message 11 createdAt].filter (fun field => field.tag ∈ oneofTags) =
        [.message tag (some body)] := by
    have htrue : decide ((Field.message tag (some body)).tag ∈ oneofTags) = true :=
      decide_eq_true htag
    have hfalse : decide ((Field.strings 1 (some filters)).tag ∈ oneofTags) = false := rfl
    rw [List.filter_cons, if_neg (Bool.eq_false_iff.mp hfalse), List.filter_cons, if_pos htrue]
    rfl
  exact chosen_singleton ((filter_fieldRecords _).trans (congrArg fieldRecords hone))

theorem chosen_no_field (filters : List String) (createdAt : Option Bytes) :
    chosen oneofTags (fieldRecords [.strings 1 (some filters), .message 11 createdAt]) =
      some none := by
  rw [chosen, filter_fieldRecords]
  rfl

/-- An update is read back from its bytes. -/
theorem SubscribeUpdate.decode_fieldsWrite {self : SubscribeUpdate} (h : self.InRange wire) :
    decode (fieldsWrite wire (self.fields wire)) = .ok self := by
  obtain ⟨hfields, honeof, hcreatedAt⟩ := h
  have hmessage : message ofRecords (fieldsWrite wire (self.fields wire)) = some self := by
    refine (message_fieldsWrite hfields _).trans ?_
    obtain ⟨filters, updateOneof, createdAt⟩ := self
    have htimestamp : ∀ x ∈ createdAt,
        message Timestamp.ofRecords (fieldsWrite wire x.fields) = some x :=
      fun x hx => Timestamp.decode (hcreatedAt x hx)
    cases updateOneof with
    | none =>
      exact and_then (strings_at rfl) <| and_then (chosen_no_field _ _) <| and_then rfl <|
        and_then (message_at rfl htimestamp) rfl
    | some updateOneof =>
      obtain ⟨tag, body, hfield, htag, hbody⟩ := UpdateOneof.decode (honeof updateOneof rfl)
      have hlist : SubscribeUpdate.fields wire ⟨filters, some updateOneof, createdAt⟩ =
          [.strings 1 (some filters), .message tag (some body),
            .message 11 (createdAt.map fun createdAt => fieldsWrite wire createdAt.fields)] := by
        rw [SubscribeUpdate.fields, Option.map_some, hfield]
        rfl
      have hne : tag ≠ 1 ∧ tag ≠ 11 := by
        constructor
        · rintro rfl
          exact absurd htag (by decide)
        · rintro rfl
          exact absurd htag (by decide)
      rw [hlist]
      refine and_then (strings_at ?_) <| and_then (chosen_fields htag _ _) <|
        and_then (congrArg (Option.map some) hbody) <| and_then (message_at ?_ htimestamp) rfl
      · simp [Field.tag, hne.1]
      · simp [Field.tag, hne.2]
  rw [decode, hmessage]
  rfl

/-- The decoder takes back every update whose numbers fit their types, as the library
documents it. -/
def Decodes (P : Prost) (decode : Bytes → Except String SubscribeUpdate) : Prop :=
  ∀ update : SubscribeUpdate, update.InRange P →
    decode (fieldsWrite P (update.fields P)) = .ok update

theorem decodes_wire : Decodes wire SubscribeUpdate.decode :=
  fun _ => SubscribeUpdate.decode_fieldsWrite

section

variable {P : Prost} {G : Geyser} {decode : Bytes → Except String SubscribeUpdate}

/-- The bytes the hand-written message is encoded to. -/
theorem SubscribeUpdateMessage.encodeToVec_fields (hP : P.Documented) (hwire : P.WireFormat)
    (hG : G.Documented P) (self : SubscribeUpdateMessage) :
    self.encodeToVec P G = fieldsWrite P (self.subscribeUpdate.fields P) := by
  rw [self.encodeToVec_eq hP hwire hG]
  exact (hG.update self.subscribeUpdate).content []

/-- The hand-written message is decoded to the update it stands for. -/
theorem SubscribeUpdateMessage.decode_encodeToVec (hP : P.Documented) (hwire : P.WireFormat)
    (hG : G.Documented P) (hdecode : Decodes P decode) {self : SubscribeUpdateMessage}
    (h : self.subscribeUpdate.InRange P) :
    decode (self.encodeToVec P G) = .ok self.subscribeUpdate := by
  rw [self.encodeToVec_fields hP hwire hG]
  exact hdecode _ h

end

/-- A subscriber decodes what has been selected for it, with the names of its filters:
there is a decoder of the wire format, and whichever is used does it. -/
theorem FilteredUpdate.decoded_as_selected : Decodes wire SubscribeUpdate.decode ∧
    ∀ {P : Prost} {G : Geyser} {decode : Bytes → Except String SubscribeUpdate},
      P.Documented → P.WireFormat → G.Documented P → Decodes P decode →
      ∀ {self : FilteredUpdate} {built : SubscribeUpdateMessage},
        self.message = .ok built → built.subscribeUpdate.InRange P →
        ∃ data, self.encode P G = .ok data ∧ decode data = .ok built.subscribeUpdate := by
  refine ⟨decodes_wire, ?_⟩
  intro P G decode hP hwire hG hdecode self built hbuilt h
  exact ⟨built.encodeToVec P G, bind_eq_ok.mpr ⟨built, hbuilt, rfl⟩,
    built.decode_encodeToVec hP hwire hG hdecode h⟩

/-- An account with two slices of its data. -/
def slicedAccount : FilteredUpdate where
  filters := ["client"]
  filteredUpdate := .account
    { pubkey := .replicate 32 1
      owner := .replicate 32 2
      nonemptyTxnSignature := false
      account := ⟨.replicate 32 1, 300, .replicate 32 2, false, 0, [7, 8, 9], 6, none⟩
      slot := 9
      isStartup := false
      createdAt := ⟨1, 500⟩
      size := 0 } [(0, 1), (2, 3)]

theorem FilteredUpdate.decoded_as_selected_slicedAccount :
    ∃ data, slicedAccount.encode wire (geyser wire) = .ok data ∧
      SubscribeUpdate.decode data = .ok
        ⟨["client"], some (.account
          ⟨some ⟨.replicate 32 1, 300, .replicate 32 2, false, 0, [7, 9], 6, none⟩, 9, false⟩),
          some ⟨1, 500⟩⟩ := by
  have hbuilt : slicedAccount.message = .ok
      ⟨["client"], .account
        ⟨some ⟨.replicate 32 1, 300, .replicate 32 2, false, 0, [7, 9], 6, none⟩, 9, false⟩,
        ⟨1, 500⟩⟩ := rfl
  refine decoded_as_selected.2 wire_documented wire_wireFormat (geyser_documented wire)
    decodes_wire hbuilt ⟨by decide +kernel, ?_, ?_⟩
  · rintro _ ⟨⟩
    refine ⟨by decide +kernel, ?_⟩
    rintro _ ⟨⟩
    decide +kernel
  · rintro _ ⟨⟩
    decide +kernel

end Dragonmouth.Filters
