import Dragonmouth.Encoding.Wire
import Dragonmouth.Foundations.Records

/-!
# Fields as records

What a message writes are the records of its fields, and every field is read back from
the payloads of its tag: a number from a number that fits its type, a string from its
bytes, a default from no record at all. A double that is zero is read back without its
sign.

## Main definitions

- `Field.payloads`, `fieldRecords`: the records of fields
- `Field.InRange`: fields that can be read back
- `Decode`: the decoders of the kinds of fields
-/

namespace Dragonmouth.Encoding

open Records Writer

/-- The bytes of a number are those of the wire format. -/
theorem varintBytes_eq (rounds value : ℕ) : varintBytes rounds value = varint rounds value := by
  induction rounds generalizing value with
  | zero => rfl
  | succ rounds ih =>
    rw [varintBytes, varint, ih]

theorem encodeVarint_eq : encodeVarint = varint 10 := funext (varintBytes_eq 10)

def Value.payload : Value → Payload
  | uint64 value | uint32 value => .varint value
  | int64 value | int32 value => .varint (signedBits value)
  | bool value => .varint value.toNat
  | double value => .fixed64 (fixedBytes 8 value.bits.toNat)
  | string value => .delimited (strBytes value)
  | bytes value | slice value => .delimited value

/-- Bytes after a key and a length are a delimited record. -/
theorem delimited_eq (tag : ℕ) (bytes : Bytes) :
    delimited (encodeKey tag .lengthDelimited) encodeVarint bytes =
      (Record.mk tag (.delimited bytes)).write := by
  rw [delimited, encodeKey, encodeVarint_eq, Record.write, Payload.write, List.append_assoc]
  rfl

/-- A value is written as one record. -/
theorem Value.write_eq (tag : ℕ) (value : Value) :
    value.write wire tag = (Record.mk tag value.payload).write := by
  cases value with
  | uint64 | uint32 | int64 | int32 | bool =>
    change encodeKey tag .varint ++ encodeVarint _ = _
    rw [encodeKey, encodeVarint_eq]
    rfl
  | double =>
    change encodeKey tag .sixtyFourBit ++ _ = _
    rw [encodeKey, encodeVarint_eq]
    rfl
  | string | bytes | slice => exact delimited_eq tag _

namespace Field

def tag : Field → ℕ
  | implicit tag _ | always tag _ | optional tag _ | repeated tag _ | packed tag _ |
    strings tag _ | message tag _ | messages tag _ => tag

def payloads : Field → List Payload
  | implicit _ value => if value.IsDefault then [] else [value.payload]
  | always _ value => [value.payload]
  | optional _ value => (value.map Value.payload).toList
  | repeated _ values => values.map Value.payload
  | packed _ values => if values = [] then [] else [.delimited (values.flatMap (varint 10))]
  | strings _ values => (values.getD []).map fun value => .delimited (strBytes value)
  | message _ body => (body.map Payload.delimited).toList
  | messages _ bodies => bodies.map Payload.delimited

/-- A field is written as the records of its payloads. -/
theorem write_eq (field : Field) :
    field.write wire = (field.payloads.map (Record.mk field.tag)).flatMap Record.write := by
  have hdelimited : ∀ tag, delimited (wire.encodeKey tag .lengthDelimited) wire.encodeVarint =
      fun body => (Record.mk tag (.delimited body)).write :=
    fun tag => funext (delimited_eq tag)
  cases field with
  | implicit tag value =>
    rw [write, payloads]
    split
    · rfl
    · rw [Value.write_eq]
      exact (List.append_nil _).symm
  | always tag value =>
    rw [write, Value.write_eq]
    exact (List.append_nil _).symm
  | optional tag value =>
    cases value with
    | none => rfl
    | some value =>
      change value.write wire tag = _
      rw [Value.write_eq]
      exact (List.append_nil _).symm
  | repeated tag values =>
    rw [write, payloads, List.map_map, List.flatMap_map]
    exact congrArg (List.flatMap · values) (funext (Value.write_eq tag))
  | packed tag values =>
    change (if values = [] then [] else _) = _
    rw [payloads]
    split
    · rfl
    · rw [delimited_eq, encodeVarint_eq]
      exact (List.append_nil _).symm
  | strings tag values =>
    cases values with
    | none => rfl
    | some values =>
      change values.flatMap (fun value => delimited _ _ (strBytes value)) = _
      rw [payloads, List.map_map, List.flatMap_map]
      exact congrArg (List.flatMap · values) (funext fun value => delimited_eq tag _)
  | message tag body =>
    cases body with
    | none => rfl
    | some body =>
      change delimited _ _ body = _
      rw [hdelimited]
      exact (List.append_nil _).symm
  | messages tag bodies =>
    rw [write, payloads, List.map_map, List.flatMap_map, hdelimited]
    rfl

end Field

/-- The records of a message. -/
def fieldRecords (fields : List Field) : List Record := recordsOf Field.tag Field.payloads fields

/-- A message is written as the records of its fields, in their order. -/
theorem fieldsWrite_eq (fields : List Field) :
    fieldsWrite wire fields = (fieldRecords fields).flatMap Record.write := by
  rw [fieldsWrite, fieldRecords, recordsOf, List.flatMap_assoc]
  exact congrArg (List.flatMap · fields) (funext Field.write_eq)

-- ════════════════════════════════════════════════════════════════════════
-- What can be read back
-- ════════════════════════════════════════════════════════════════════════

/-- Numbers and lengths fit their types, and a double that is zero has no sign. -/
def Value.InRange : Value → Prop
  | uint64 value => value < 2 ^ 64
  | uint32 value => value < 2 ^ 32
  | int64 value => -2 ^ 63 ≤ value ∧ value < 2 ^ 63
  | int32 value => -2 ^ 31 ≤ value ∧ value < 2 ^ 31
  | bool _ => True
  | double value => value.neZero = false → value = F64.zero
  | string value => (strBytes value).length < 2 ^ 64
  | bytes value | slice value => value.length < 2 ^ 64

instance : DecidablePred Value.InRange
  | .uint64 _ | .uint32 _ => Nat.decLt ..
  | .int64 _ | .int32 _ => @instDecidableAnd _ _ (Int.decLe ..) (Int.decLt ..)
  | .bool _ => .isTrue trivial
  | .double _ => @instDecidableForall _ _ (instDecidableEqBool ..) (instDecidableEqF64 ..)
  | .string _ | .bytes _ | .slice _ => Nat.decLt ..

/-- The values of a field are in range, and the bodies of its messages have a length. -/
def Field.ValuesInRange : Field → Prop
  | implicit _ value | always _ value => value.InRange
  | optional _ value => ∀ found ∈ value.toList, found.InRange
  | repeated _ values => ∀ value ∈ values, value.InRange
  | packed _ values =>
    (∀ value ∈ values, value < 2 ^ 64) ∧ (values.flatMap (varint 10)).length < 2 ^ 64
  | strings _ values => ∀ value ∈ values.getD [], (strBytes value).length < 2 ^ 64
  | message _ body => ∀ found ∈ body.toList, found.length < 2 ^ 64
  | messages _ bodies => ∀ body ∈ bodies, body.length < 2 ^ 64

instance : DecidablePred Field.ValuesInRange := fun field => by
  cases field <;> unfold Field.ValuesInRange <;> infer_instance

def Field.InRange (field : Field) : Prop :=
  (0 < field.tag ∧ field.tag < 2 ^ 29) ∧ field.ValuesInRange

instance : DecidablePred Field.InRange := fun field => by
  unfold Field.InRange
  infer_instance

/-- Every field of a message is in range. -/
def InRange (fields : List Field) : Prop := ∀ field ∈ fields, field.InRange

instance : DecidablePred InRange := fun fields => by
  unfold InRange
  infer_instance

/-- A signed number takes 64 bits. -/
theorem signedBits_lt (value : ℤ) : signedBits value < 2 ^ 64 := by
  rw [signedBits]
  omega

theorem fixedBytes_length (width value : ℕ) : (fixedBytes width value).length = width := by
  rw [fixedBytes, List.length_map, List.length_range]

/-- The payload of a value in range can be read. -/
theorem Value.payload_fits {value : Value} (h : value.InRange) : value.payload.Fits := by
  cases value with
  | uint64 | string | bytes | slice => exact h
  | uint32 value => exact Nat.lt_trans h (by decide : 2 ^ 32 < 2 ^ 64)
  | int64 value => exact signedBits_lt value
  | int32 value => exact signedBits_lt value
  | bool value => exact Nat.lt_of_le_of_lt value.toNat_le (by decide : 1 < 2 ^ 64)
  | double value => exact fixedBytes_length 8 _

theorem Field.payloads_fits {field : Field} (h : field.InRange) :
    ∀ payload ∈ field.payloads, payload.Fits := by
  intro payload hpayload
  obtain ⟨-, h⟩ := h
  cases field with
  | implicit tag value =>
    rw [payloads] at hpayload
    split at hpayload
    · cases hpayload
    · rw [List.mem_singleton.mp hpayload]
      exact Value.payload_fits h
  | always tag value =>
    rw [List.mem_singleton.mp hpayload]
    exact Value.payload_fits h
  | optional tag value =>
    rw [payloads, Option.toList_map, List.mem_map] at hpayload
    obtain ⟨found, hfound, rfl⟩ := hpayload
    exact Value.payload_fits (h found hfound)
  | repeated tag values =>
    obtain ⟨value, hvalue, rfl⟩ := List.mem_map.mp hpayload
    exact Value.payload_fits (h value hvalue)
  | packed tag values =>
    rw [payloads] at hpayload
    split at hpayload
    · cases hpayload
    · rw [List.mem_singleton.mp hpayload]
      exact h.2
  | strings tag values =>
    obtain ⟨value, hvalue, rfl⟩ := List.mem_map.mp hpayload
    exact h value hvalue
  | message tag body =>
    rw [payloads, Option.toList_map, List.mem_map] at hpayload
    obtain ⟨found, hfound, rfl⟩ := hpayload
    exact h found hfound
  | messages tag bodies =>
    obtain ⟨body, hbody, rfl⟩ := List.mem_map.mp hpayload
    exact h body hbody

/-- The records of fields in range can be read back. -/
theorem fieldRecords_fits {fields : List Field} (h : InRange fields) :
    ∀ record ∈ fieldRecords fields, record.Fits := by
  intro record hrecord
  obtain ⟨field, hfield, hrecord⟩ := List.mem_flatMap.mp hrecord
  obtain ⟨payload, hpayload, rfl⟩ := List.mem_map.mp hrecord
  obtain ⟨hpos, hlt⟩ := (h field hfield).1
  exact ⟨hpos, hlt, Field.payloads_fits (h field hfield) payload hpayload⟩

/-- A message is decoded from the records of its fields. -/
theorem message_fieldsWrite {α : Type} {fields : List Field} (h : InRange fields)
    (decode : List Record → Option α) :
    message decode (fieldsWrite wire fields) = decode (fieldRecords fields) := by
  rw [message, fieldsWrite_eq, readRecords_write (fieldRecords_fits h)]
  rfl

-- ════════════════════════════════════════════════════════════════════════
-- Decoders
-- ════════════════════════════════════════════════════════════════════════

/-- A number of 64 bits as a signed one. -/
def ofBits (value : ℕ) : ℤ := if value < 2 ^ 63 then value else value - 2 ^ 64

/-- The low 32 bits of a number as a signed number. -/
def ofBits32 (value : ℕ) : ℤ :=
  if value % 2 ^ 32 < 2 ^ 31 then (value % 2 ^ 32 : ℕ) else (value % 2 ^ 32 : ℕ) - 2 ^ 32

def ofFixedBytes (bytes : Bytes) : ℕ :=
  bytes.foldr (fun byte value => byte.toNat + 256 * value) 0

def ofStrBytes (bytes : Bytes) : Option String := String.fromUTF8? ⟨bytes.toArray⟩

/-- The bits of a signed number give it back. -/
theorem ofBits_signedBits {value : ℤ} (h : -2 ^ 63 ≤ value ∧ value < 2 ^ 63) :
    ofBits (signedBits value) = value := by
  rw [ofBits, signedBits]
  split <;> omega

/-- The low half of the bits gives a small number back. -/
theorem ofBits32_signedBits {value : ℤ} (h : -2 ^ 31 ≤ value ∧ value < 2 ^ 31) :
    ofBits32 (signedBits value) = value := by
  rw [ofBits32, signedBits]
  split <;> omega

/-- The bytes of a number, lowest first, give it back. -/
theorem ofFixedBytes_fixedBytes {width value : ℕ} (h : value < 256 ^ width) :
    ofFixedBytes (fixedBytes width value) = value := by
  induction width generalizing value with
  | zero =>
    have hzero : value = 0 := Nat.lt_one_iff.mp h
    rw [hzero]
    rfl
  | succ width ih =>
    have hcons : fixedBytes (width + 1) value =
        UInt8.ofNat value :: fixedBytes width (value / 256) := by
      rw [fixedBytes, List.range_succ_eq_map, List.map_cons, List.map_map, pow_zero, Nat.div_one]
      congr 1
      refine List.map_congr_left fun i _ => ?_
      rw [Function.comp_apply, Nat.pow_succ', Nat.div_div_eq_div_mul]
    have hdiv : value / 256 < 256 ^ width :=
      Nat.div_lt_of_lt_mul (by rwa [Nat.pow_succ'] at h)
    have hbyte : (UInt8.ofNat value).toNat = value % 256 := UInt8.toNat_ofNat'
    have hrest := ih hdiv
    rw [hcons, ofFixedBytes, List.foldr_cons]
    rw [ofFixedBytes] at hrest
    rw [hrest, hbyte]
    omega

/-- The bytes of a string are valid and give it back. -/
theorem ofStrBytes_strBytes (value : String) : ofStrBytes (strBytes value) = some value := by
  have hbytes : (⟨(strBytes value).toArray⟩ : ByteArray) = value.toUTF8 := rfl
  rw [ofStrBytes, hbytes]
  exact dif_pos value.isValidUTF8

namespace Decode

def uint64? : Payload → Option ℕ := Payload.varint?

def uint32? (payload : Payload) : Option ℕ := payload.varint?.map (· % 2 ^ 32)

def int64? (payload : Payload) : Option ℤ := payload.varint?.map ofBits

def int32? (payload : Payload) : Option ℤ := payload.varint?.map ofBits32

def bool? (payload : Payload) : Option Bool := payload.varint?.map (· != 0)

def double? (payload : Payload) : Option F64 :=
  payload.fixed64?.map fun bytes => ⟨.ofNat (ofFixedBytes bytes)⟩

def string? (payload : Payload) : Option String := payload.delimited?.bind ofStrBytes

def bytes? : Payload → Option Bytes := Payload.delimited?

def uint64 : ℕ → List Record → Option ℕ := single uint64? 0
def uint32 : ℕ → List Record → Option ℕ := single uint32? 0
def int64 : ℕ → List Record → Option ℤ := single int64? 0
def int32 : ℕ → List Record → Option ℤ := single int32? 0
def bool : ℕ → List Record → Option Bool := single bool? false
def double : ℕ → List Record → Option F64 := single double? F64.zero
def string : ℕ → List Record → Option String := single string? ""
def bytes : ℕ → List Record → Option Bytes := single bytes? []

section

variable {fields : List Field} {tag : ℕ}

/-- The payloads of the only field with a tag. -/
theorem payloads_at {field : Field} (hf : fields.filter (fun field => field.tag = tag) = [field]) :
    Records.payloads tag (fieldRecords fields) = field.payloads := payloads_recordsOf hf

theorem mem_of_at {field : Field}
    (hf : fields.filter (fun field => field.tag = tag) = [field]) : field ∈ fields := by
  have hmem : field ∈ fields.filter fun field => field.tag = tag := by
    rw [hf]
    exact List.mem_singleton_self field
  exact (List.mem_filter.mp hmem).1

/-- A value that is absent when it is the default. -/
theorem single_at {α : Type} {read : Payload → Option α} {default value : α} {write : α → Value}
    (hf : fields.filter (fun field => field.tag = tag) = [.implicit tag (write value)])
    (h : InRange fields)
    (hdefault : (write value).InRange → (write value).IsDefault → value = default)
    (hread : (write value).InRange → read (write value).payload = some value) :
    single read default tag (fieldRecords fields) = some value := by
  have hvalue : (write value).InRange := (h _ (mem_of_at hf)).2
  exact single_of_payloads (payloads_at hf) (hdefault hvalue) fun _ => hread hvalue

/-- A value that is written if it is there. -/
theorem optional_at {α : Type} {read : Payload → Option α} {o : Option α} {write : α → Value}
    (hf : fields.filter (fun field => field.tag = tag) = [.optional tag (o.map write)])
    (h : InRange fields)
    (hread : ∀ value, (write value).InRange → read (write value).payload = some value) :
    optional read tag (fieldRecords fields) = some o := by
  have hvalues : ∀ found ∈ (o.map write).toList, found.InRange := (h _ (mem_of_at hf)).2
  have hpayloads := payloads_at hf
  rw [Field.payloads, Option.map_map] at hpayloads
  have hmap : optional read tag (fieldRecords fields) = some (o.map id) := by
    refine optional_of_payloads hpayloads fun value hvalue => hread value (hvalues _ ?_)
    rw [Option.mem_def.mp hvalue]
    exact List.mem_singleton_self _
  rwa [Option.map_id] at hmap

/-- Byte strings one by one. -/
theorem bytes_at {values : List Bytes}
    (hf : fields.filter (fun field => field.tag = tag) = [.repeated tag (values.map .bytes)]) :
    repeated bytes? tag (fieldRecords fields) = some values := by
  have hpayloads := payloads_at hf
  rw [Field.payloads, List.map_map] at hpayloads
  have hmap : repeated bytes? tag (fieldRecords fields) = some (values.map id) :=
    repeated_of_payloads hpayloads fun _ _ => rfl
  rwa [List.map_id] at hmap

theorem strings_at {values : List String}
    (hf : fields.filter (fun field => field.tag = tag) = [.strings tag (some values)]) :
    repeated string? tag (fieldRecords fields) = some values := by
  have hmap : repeated string? tag (fieldRecords fields) = some (values.map id) :=
    repeated_of_payloads (payloads_at hf) fun value _ => ofStrBytes_strBytes value
  rwa [List.map_id] at hmap

theorem packed_at {values : List ℕ}
    (hf : fields.filter (fun field => field.tag = tag) = [.packed tag values])
    (h : InRange fields) : packed tag (fieldRecords fields) = some values :=
  packed_of_payloads (payloads_at hf) (h _ (mem_of_at hf)).2.1

/-- A nested message, read by its own decoder. -/
theorem message_at {α : Type} {decode : List Record → Option α} {o : Option α} {body : α → Bytes}
    (hf : fields.filter (fun field => field.tag = tag) = [.message tag (o.map body)])
    (hread : ∀ x ∈ o, message decode (body x) = some x) :
    nested decode tag (fieldRecords fields) = some o := by
  have hpayloads := payloads_at hf
  rw [Field.payloads, Option.map_map] at hpayloads
  exact nested_of_payloads hpayloads hread

theorem messages_at {α : Type} {decode : List Record → Option α} {xs : List α} {body : α → Bytes}
    (hf : fields.filter (fun field => field.tag = tag) = [.messages tag (xs.map body)])
    (hread : ∀ x ∈ xs, message decode (body x) = some x) :
    nestedAll decode tag (fieldRecords fields) = some xs := by
  have hpayloads := payloads_at hf
  rw [Field.payloads, List.map_map] at hpayloads
  exact nestedAll_of_payloads hpayloads hread

section

variable (h : InRange fields)

include h

theorem uint64_at {value : ℕ}
    (hf : fields.filter (fun field => field.tag = tag) = [.implicit tag (.uint64 value)]) :
    uint64 tag (fieldRecords fields) = some value :=
  single_at hf h (fun _ => id) fun _ => rfl

theorem uint32_at {value : ℕ}
    (hf : fields.filter (fun field => field.tag = tag) = [.implicit tag (.uint32 value)]) :
    uint32 tag (fieldRecords fields) = some value :=
  single_at hf h (fun _ => id) fun hvalue => congrArg some (Nat.mod_eq_of_lt hvalue)

theorem int64_at {value : ℤ}
    (hf : fields.filter (fun field => field.tag = tag) = [.implicit tag (.int64 value)]) :
    int64 tag (fieldRecords fields) = some value :=
  single_at hf h (fun _ => id) fun hvalue => congrArg some (ofBits_signedBits hvalue)

theorem int32_at {value : ℤ}
    (hf : fields.filter (fun field => field.tag = tag) = [.implicit tag (.int32 value)]) :
    int32 tag (fieldRecords fields) = some value :=
  single_at hf h (fun _ => id) fun hvalue => congrArg some (ofBits32_signedBits hvalue)

theorem bool_at {value : Bool}
    (hf : fields.filter (fun field => field.tag = tag) = [.implicit tag (.bool value)]) :
    bool tag (fieldRecords fields) = some value :=
  single_at hf h (fun _ => id) fun _ => by cases value <;> rfl

/-- A double; of the zeros only the one with a positive sign is read back. -/
theorem double_at {value : F64}
    (hf : fields.filter (fun field => field.tag = tag) = [.implicit tag (.double value)]) :
    double tag (fieldRecords fields) = some value := by
  refine single_at hf h id fun _ => ?_
  have hbits : ofFixedBytes (fixedBytes 8 value.bits.toNat) = value.bits.toNat :=
    ofFixedBytes_fixedBytes value.bits.toNat_lt
  change some (F64.mk (.ofNat (ofFixedBytes (fixedBytes 8 value.bits.toNat)))) = _
  rw [hbits, UInt64.ofNat_toNat]

theorem string_at {value : String}
    (hf : fields.filter (fun field => field.tag = tag) = [.implicit tag (.string value)]) :
    string tag (fieldRecords fields) = some value :=
  single_at hf h (fun _ => id) fun _ => ofStrBytes_strBytes value

theorem byte_string_at {value : Bytes}
    (hf : fields.filter (fun field => field.tag = tag) = [.implicit tag (.bytes value)]) :
    bytes tag (fieldRecords fields) = some value :=
  single_at hf h (fun _ => id) fun _ => rfl

end

end

end Decode

end Dragonmouth.Encoding
