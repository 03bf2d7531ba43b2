import Dragonmouth.Foundations.Writer
import Dragonmouth.Plugin.Message

/-!
# What the encoders use of prost and of the generated code

The encoding functions of the protobuf library, the generated messages and the
conversions to them are parameters. What the encoders rely on is stated next to
them.

## Main definitions

- `Prost`, `Prost.Documented`, `Prost.Varints`: the library, and what it documents
- `Generated`, `Generated.Exact`: generated messages and conversions
-/

namespace Dragonmouth.Encoding

open Writer

/-- The thread-local `BUFFER`. -/
abbrev Buffer := Bytes

abbrev Encode := Writer.Encode Buffer UInt8

abbrev Measure := Writer.Measure Buffer

/-- `prost::Message`. -/
abbrev Message := Writer.Msg Buffer UInt8

inductive WireType where
  | varint
  | sixtyFourBit
  | lengthDelimited
  | startGroup
  | endGroup
  | thirtyTwoBit
  deriving DecidableEq

/-- The functions `encode` and `encoded_len` of one kind of values. -/
structure Codec (α : Type) where
  write : ℕ → α → Bytes
  len : ℕ → α → ℕ

namespace Codec

variable {α : Type}

def encode (codec : Codec α) (tag : ℕ) (value : α) : Encode := emit (codec.write tag value)

def encodedLen (codec : Codec α) (tag : ℕ) (value : α) : Measure := size (codec.len tag value)

/-- `encode` writes exactly `encoded_len` bytes. -/
def Exact (codec : Codec α) : Prop :=
  ∀ tag value, (codec.write tag value).length = codec.len tag value

/-- A codec that announces what it writes, as a traversal. -/
theorem Exact.agree {codec : Codec α} (h : codec.Exact) (tag : ℕ) (value : α) :
    Agree (codec.encode tag value) (codec.encodedLen tag value) (codec.write tag value) :=
  .emit (h tag value)

end Codec

/-- `prost::encoding`. -/
structure Prost where
  encodeKey : ℕ → WireType → Bytes
  keyLen : ℕ → ℕ
  encodeVarint : ℕ → Bytes
  encodedLenVarint : ℕ → ℕ
  uint64 : Codec ℕ
  uint32 : Codec ℕ
  int64 : Codec ℤ
  int32 : Codec ℤ
  bool : Codec Bool
  double : Codec F64
  string : Codec String
  bytes : Codec Bytes
  /-- `uint64::encode_packed`. -/
  uint64Packed : Codec (List ℕ)
  /-- `string::encode_repeated`. -/
  stringRepeated : Codec (List String)
  messageEncode : ℕ → Message → Encode
  messageEncodedLen : ℕ → Message → Measure
  messageEncodeRepeated : ℕ → List Message → Encode
  messageEncodedLenRepeated : ℕ → List Message → Measure

/-- Every primitive writes exactly its length, and a message is written after its
key and the length it announces right before. -/
structure Prost.Documented (P : Prost) : Prop where
  key : ∀ tag wireType, (P.encodeKey tag wireType).length = P.keyLen tag
  varint : ∀ n, (P.encodeVarint n).length = P.encodedLenVarint n
  uint64 : P.uint64.Exact
  uint32 : P.uint32.Exact
  int64 : P.int64.Exact
  int32 : P.int32.Exact
  bool : P.bool.Exact
  double : P.double.Exact
  string : P.string.Exact
  bytes : P.bytes.Exact
  uint64Packed : P.uint64Packed.Exact
  stringRepeated : P.stringRepeated.Exact
  messageEncode : ∀ tag msg, P.messageEncode tag msg =
    encodeDelimited (P.encodeKey tag .lengthDelimited) P.encodeVarint msg
  messageEncodedLen : ∀ tag msg, P.messageEncodedLen tag msg =
    measureDelimited (P.keyLen tag) P.encodedLenVarint msg
  messageEncodeRepeated : ∀ tag messages, P.messageEncodeRepeated tag messages =
    seq (messages.map (encodeDelimited (P.encodeKey tag .lengthDelimited) P.encodeVarint))
  messageEncodedLenRepeated : ∀ tag messages, P.messageEncodedLenRepeated tag messages =
    measureRepeated (P.keyLen tag) P.encodedLenVarint messages

/-- A number takes at most a key and a varint, which are ten bytes each. -/
structure Prost.Varints (P : Prost) : Prop where
  uint64 : ∀ tag value, (P.uint64.write tag value).length ≤ 20
  uint32 : ∀ tag value, (P.uint32.write tag value).length ≤ 20
  int32 : ∀ tag value, (P.int32.write tag value).length ≤ 20

/-- Generated messages and the conversions of `convert_to`. -/
structure Generated where
  timestamp : Proto.Timestamp → Message
  unixTimestamp : Proto.UnixTimestamp → Message
  blockHeight : Proto.BlockHeight → Message
  numPartitions : Proto.NumPartitions → Message
  /-- `SubscribeUpdate::encode_to_vec`. -/
  encodeToVec : Proto.SubscribeUpdate → Bytes
  createTransaction : Plugin.SanitizedTransaction → Proto.Transaction
  createTransactionMeta : Plugin.TransactionStatusMeta → Proto.TransactionStatusMeta
  createRewardsObj : List Plugin.Reward → Option ℕ → Proto.Rewards
  createTimestamp : ℤ → Proto.UnixTimestamp
  createBlockHeight : ℕ → Proto.BlockHeight
  createNumPartitions : ℕ → Proto.NumPartitions

/-- What a generated message writes. -/
def generatedBytes (msg : Message) : Bytes := msg.content []

/-- The messages of a type write exactly the length they announce. -/
def ExactMessages {α : Type} (message : α → Message) : Prop :=
  ∀ value, ∃ bs, (message value).Denotes bs

theorem ExactMessages.denotes {α : Type} {message : α → Message} (h : ExactMessages message)
    (value : α) : (message value).Denotes (generatedBytes (message value)) := by
  obtain ⟨bs, hbs⟩ := h value
  rwa [generatedBytes, hbs.content]

/-- Generated messages write exactly the length they announce. -/
structure Generated.Exact (G : Generated) : Prop where
  timestamp : ExactMessages G.timestamp
  unixTimestamp : ExactMessages G.unixTimestamp
  blockHeight : ExactMessages G.blockHeight
  numPartitions : ExactMessages G.numPartitions

end Dragonmouth.Encoding
