import Dragonmouth.Encoding.Schema

/-!
# The wire format

An implementation of the library and of the generated code that does what is
documented of them.

## Main definitions

- `wire`, `wire_documented`, `wire_wireFormat`, `wire_varints`: the primitives
- `generated`, `generated_documented`: the messages and the conversions
-/

namespace Dragonmouth.Encoding

open Writer

/-- Base-128 varints; `rounds` bounds the bytes, ten for 64 bits. -/
def varintBytes : ℕ → ℕ → Bytes
  | 0, _ => []
  | rounds + 1, value =>
    if value < 128 then [UInt8.ofNat value]
    else UInt8.ofNat (value % 128 + 128) :: varintBytes rounds (value / 128)

def encodeVarint (value : ℕ) : Bytes := varintBytes 10 value

def WireType.toNat : WireType → ℕ
  | varint => 0
  | sixtyFourBit => 1
  | lengthDelimited => 2
  | startGroup => 3
  | endGroup => 4
  | thirtyTwoBit => 5

def encodeKey (tag : ℕ) (wireType : WireType) : Bytes := encodeVarint (tag * 8 + wireType.toNat)

/-- Little-endian bytes. -/
def fixedBytes (width value : ℕ) : Bytes :=
  (List.range width).map fun i => UInt8.ofNat (value / 256 ^ i)

/-- A signed number as the unsigned one of 64 bits. -/
def signedBits (value : ℤ) : ℕ := (value % 2 ^ 64).toNat

/-- Lengths are those of the bytes. -/
def Codec.ofWrite {α : Type} (write : ℕ → α → Bytes) : Codec α where
  write := write
  len tag value := (write tag value).length

theorem Codec.ofWrite_exact {α : Type} (write : ℕ → α → Bytes) : (ofWrite write).Exact :=
  fun _ _ => rfl

def varintCodec {α : Type} (bits : α → ℕ) : Codec α :=
  .ofWrite fun tag value => encodeKey tag .varint ++ encodeVarint (bits value)

def delimitedCodec {α : Type} (bytes : α → Bytes) : Codec α :=
  .ofWrite fun tag value => delimited (encodeKey tag .lengthDelimited) encodeVarint (bytes value)

def wire : Prost where
  encodeKey := encodeKey
  keyLen tag := (encodeKey tag .lengthDelimited).length
  encodeVarint := encodeVarint
  encodedLenVarint value := (encodeVarint value).length
  uint64 := varintCodec id
  uint32 := varintCodec id
  int64 := varintCodec signedBits
  int32 := varintCodec signedBits
  bool := varintCodec Bool.toNat
  double := .ofWrite fun tag value =>
    encodeKey tag .sixtyFourBit ++ fixedBytes 8 value.bits.toNat
  string := delimitedCodec strBytes
  bytes := delimitedCodec id
  uint64Packed := .ofWrite fun tag values => if values = [] then [] else
    delimited (encodeKey tag .lengthDelimited) encodeVarint (values.flatMap encodeVarint)
  stringRepeated := .ofWrite fun tag values => values.flatMap fun value =>
    delimited (encodeKey tag .lengthDelimited) encodeVarint (strBytes value)
  messageEncode tag msg := encodeDelimited (encodeKey tag .lengthDelimited) encodeVarint msg
  messageEncodedLen tag msg := measureDelimited (encodeKey tag .lengthDelimited).length
    (fun value => (encodeVarint value).length) msg
  messageEncodeRepeated tag messages :=
    seq (messages.map (encodeDelimited (encodeKey tag .lengthDelimited) encodeVarint))
  messageEncodedLenRepeated tag messages := measureRepeated
    (encodeKey tag .lengthDelimited).length (fun value => (encodeVarint value).length) messages

/-- Strings and slices have the wire format of bytes. -/
theorem wire_wireFormat : wire.WireFormat where
  bytes _ _ := rfl
  string _ _ := rfl
  stringRepeated _ _ := rfl

/-- The lowest seven bits do not change the length of a number. -/
theorem varintBytes_length (rounds : ℕ) {x y : ℕ} (h : x / 128 = y / 128) :
    (varintBytes rounds x).length = (varintBytes rounds y).length := by
  cases rounds with
  | zero => rfl
  | succ rounds =>
    have hlt : x < 128 ↔ y < 128 := by omega
    simp only [varintBytes, hlt, h]
    split <;> rfl

/-- The wire type does not change the length of a key. -/
theorem encodeKey_length (tag : ℕ) (wireType : WireType) :
    (encodeKey tag wireType).length = (encodeKey tag .lengthDelimited).length := by
  refine varintBytes_length 10 ?_
  cases wireType <;> simp only [WireType.toNat] <;> omega

/-- The lengths that are announced are those that are written. -/
theorem wire_documented : wire.Documented where
  key := encodeKey_length
  varint _ := rfl
  uint64 := Codec.ofWrite_exact _
  uint32 := Codec.ofWrite_exact _
  int64 := Codec.ofWrite_exact _
  int32 := Codec.ofWrite_exact _
  bool := Codec.ofWrite_exact _
  double := Codec.ofWrite_exact _
  string := Codec.ofWrite_exact _
  bytes := Codec.ofWrite_exact _
  uint64Packed := Codec.ofWrite_exact _
  stringRepeated := Codec.ofWrite_exact _
  messageEncode _ _ := rfl
  messageEncodedLen _ _ := rfl
  messageEncodeRepeated _ _ := rfl
  messageEncodedLenRepeated _ _ := rfl

/-- A number takes at most as many bytes as there are rounds. -/
theorem length_varintBytes_le (rounds value : ℕ) : (varintBytes rounds value).length ≤ rounds := by
  induction rounds generalizing value with
  | zero => exact Nat.le_refl 0
  | succ rounds ih =>
    rw [varintBytes]
    split
    · exact Nat.succ_le_succ (Nat.zero_le rounds)
    · exact Nat.succ_le_succ (ih _)

theorem length_varintCodec_le {α : Type} (bits : α → ℕ) (tag : ℕ) (value : α) :
    ((varintCodec bits).write tag value).length ≤ 20 := by
  have hkey := length_varintBytes_le 10 (tag * 8 + WireType.toNat .varint)
  have hvalue := length_varintBytes_le 10 (bits value)
  change (encodeKey tag .varint ++ encodeVarint (bits value)).length ≤ 20
  rw [List.length_append, encodeKey, encodeVarint, encodeVarint]
  omega

/-- A key and a number take at most ten bytes each. -/
theorem wire_varints : wire.Varints where
  uint64 := length_varintCodec_le id
  uint32 := length_varintCodec_le id
  int32 := length_varintCodec_le signedBits

/-- The message with the given fields. -/
def fieldsMessage (P : Prost) (fields : List Field) : Message where
  encodeRaw := emit (fieldsWrite P fields)
  encodedLen := size (fieldsWrite P fields).length

/-- It has the bytes of its fields. -/
theorem fieldsMessage_denotes (P : Prost) (fields : List Field) :
    (fieldsMessage P fields).Denotes (fieldsWrite P fields) :=
  Msg.Fixed.denotes (.emit rfl)

def generated (P : Prost) : Generated where
  timestamp self := fieldsMessage P self.fields
  unixTimestamp self := fieldsMessage P self.fields
  blockHeight self := fieldsMessage P self.fields
  numPartitions self := fieldsMessage P self.fields
  encodeToVec self := fieldsWrite P (self.fields P)
  createTransaction := ConvertTo.createTransaction
  createTransactionMeta := ConvertTo.createTransactionMeta
  createRewardsObj := ConvertTo.createRewardsObj
  createTimestamp timestamp := ⟨timestamp⟩
  createBlockHeight blockHeight := ⟨blockHeight⟩
  createNumPartitions numPartitions := ⟨numPartitions⟩

/-- The generated code writes the fields of its messages. -/
theorem generated_documented (P : Prost) : (generated P).Documented P where
  timestamp _ := fieldsMessage_denotes P _
  unixTimestamp _ := fieldsMessage_denotes P _
  blockHeight _ := fieldsMessage_denotes P _
  numPartitions _ := fieldsMessage_denotes P _
  encodeToVec _ := rfl
  createTransaction _ := rfl
  createTransactionMeta _ := rfl
  createRewardsObj _ _ := rfl
  createNumPartitions _ := rfl

end Dragonmouth.Encoding
