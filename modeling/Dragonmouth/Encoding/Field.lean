import Dragonmouth.Encoding.Raw

/-!
# Fields of a message

What a traversal writes and measures, field by field: the value, the tag and when
the field is present. Each lemma matches a pair of terms of the raw encoder, one
of either traversal, with the field they stand for.

## Main definitions

- `Value`, `Field`: a value, and a field with its presence
- `Field.write`, `fieldsWrite`: the bytes of a field and of a message
-/

namespace Dragonmouth.Encoding

open Writer

/-- A value of a field. A `slice` is written by `bytes_encode`, `bytes` by prost. -/
inductive Value where
  | uint64 (value : ℕ)
  | uint32 (value : ℕ)
  | int64 (value : ℤ)
  | int32 (value : ℤ)
  | bool (value : Bool)
  | double (value : F64)
  | string (value : String)
  | bytes (value : Bytes)
  | slice (value : Bytes)

namespace Value

/-- The default values of the schema language. -/
def IsDefault : Value → Prop
  | uint64 value => value = 0
  | uint32 value => value = 0
  | int64 value => value = 0
  | int32 value => value = 0
  | bool value => value = false
  | double value => value.neZero = false
  | string value => value = ""
  | bytes value => value = []
  | slice value => value = []

instance : DecidablePred IsDefault := fun value => by
  cases value <;> unfold IsDefault <;> infer_instance

def write (P : Prost) (tag : ℕ) : Value → Bytes
  | uint64 value => P.uint64.write tag value
  | uint32 value => P.uint32.write tag value
  | int64 value => P.int64.write tag value
  | int32 value => P.int32.write tag value
  | bool value => P.bool.write tag value
  | double value => P.double.write tag value
  | string value => P.string.write tag value
  | bytes value => P.bytes.write tag value
  | slice value => delimited (P.encodeKey tag .lengthDelimited) P.encodeVarint value

end Value

/-- A field with its presence. Nested messages are given by their bytes. -/
inductive Field where
  /-- Written unless the value is the default. -/
  | implicit (tag : ℕ) (value : Value)
  | always (tag : ℕ) (value : Value)
  | optional (tag : ℕ) (value : Option Value)
  | repeated (tag : ℕ) (values : List Value)
  | packed (tag : ℕ) (values : List ℕ)
  | strings (tag : ℕ) (values : Option (List String))
  | message (tag : ℕ) (body : Option Bytes)
  | messages (tag : ℕ) (bodies : List Bytes)

def Field.write (P : Prost) : Field → Bytes
  | implicit tag value => if value.IsDefault then [] else value.write P tag
  | always tag value => value.write P tag
  | optional tag value => value.elim [] fun value => value.write P tag
  | repeated tag values => values.flatMap fun value => value.write P tag
  | packed tag values => P.uint64Packed.write tag values
  | strings tag values => values.elim [] (P.stringRepeated.write tag)
  | message tag body =>
    body.elim [] (delimited (P.encodeKey tag .lengthDelimited) P.encodeVarint)
  | messages tag bodies =>
    bodies.flatMap (delimited (P.encodeKey tag .lengthDelimited) P.encodeVarint)

/-- The bytes of a message with the given fields. -/
def fieldsWrite (P : Prost) (fields : List Field) : Bytes := fields.flatMap (Field.write P)

/-- Two traversals that stand for a field. -/
abbrev Stands (P : Prost) (w : Encode) (l : Measure) (field : Field) : Prop :=
  Agree w l (field.write P)

/-- Two traversals term by term stand for the fields of a message. -/
inductive StandsAll (P : Prost) : List Encode → List Measure → List Field → Prop where
  | nil : StandsAll P [] [] []
  | cons {w : Encode} {l : Measure} {field : Field} {ws : List Encode} {ls : List Measure}
      {fields : List Field} (head : Stands P w l field) (tail : StandsAll P ws ls fields) :
      StandsAll P (w :: ws) (l :: ls) (field :: fields)

variable {P : Prost}

/-- The traversals one after the other stand for the fields one after the other. -/
theorem StandsAll.agree {ws : List Encode} {ls : List Measure} {fields : List Field}
    (h : StandsAll P ws ls fields) : Agree (seq ws) (total ls) (fieldsWrite P fields) := by
  induction h with
  | nil => exact .nil
  | cons head _ ih => exact .cons head ih

/-- Messages whose traversals stand for fields write the bytes of the fields. -/
theorem StandsAll.fixed {m : Message} {ws : List Encode} {ls : List Measure}
    {fields : List Field} (h : StandsAll P ws ls fields) (hw : m.encodeRaw = seq ws)
    (hl : m.encodedLen = total ls) : m.Fixed (fieldsWrite P fields) := by
  rw [Msg.Fixed, hw, hl]
  exact h.agree

/-- A value written under the condition that it is not the default. -/
theorem stands_implicit {w : Encode} {l : Measure} {c : Prop} [Decidable c] {tag : ℕ}
    {value : Value} (h : Agree w l (value.write P tag)) (hc : ¬c ↔ value.IsDefault) :
    Stands P (emitWhen c w) (sizeWhen c l) (.implicit tag value) := by
  refine .emitWhen (fun hp => ?_) fun hn => ?_
  · rw [Field.write, if_neg fun hd => hc.mpr hd hp]
    exact h
  · rw [Field.write, if_pos (hc.mp hn)]

namespace Prost.Documented

variable (h : P.Documented)

include h

/-- An unsigned number, left out when it is zero. -/
theorem uint64_field (tag value : ℕ) : Stands P (emitWhen (value ≠ 0) (P.uint64.encode tag value))
    (sizeWhen (value ≠ 0) (P.uint64.encodedLen tag value)) (.implicit tag (.uint64 value)) :=
  stands_implicit (h.uint64.agree tag value) not_not

theorem uint32_field (tag value : ℕ) : Stands P (emitWhen (value ≠ 0) (P.uint32.encode tag value))
    (sizeWhen (value ≠ 0) (P.uint32.encodedLen tag value)) (.implicit tag (.uint32 value)) :=
  stands_implicit (h.uint32.agree tag value) not_not

theorem int64_field (tag : ℕ) (value : ℤ) :
    Stands P (emitWhen (value ≠ 0) (P.int64.encode tag value))
      (sizeWhen (value ≠ 0) (P.int64.encodedLen tag value)) (.implicit tag (.int64 value)) :=
  stands_implicit (h.int64.agree tag value) not_not

/-- A signed number; the condition it is written under is that it is not zero. -/
theorem int32_field (tag : ℕ) (value : ℤ) {c : Prop} [Decidable c] (hc : ¬c ↔ value = 0) :
    Stands P (emitWhen c (P.int32.encode tag value)) (sizeWhen c (P.int32.encodedLen tag value))
      (.implicit tag (.int32 value)) :=
  stands_implicit (h.int32.agree tag value) hc

theorem bool_field (tag : ℕ) (value : Bool) :
    Stands P (emitWhen (value = true) (P.bool.encode tag value))
      (sizeWhen (value = true) (P.bool.encodedLen tag value)) (.implicit tag (.bool value)) :=
  stands_implicit (h.bool.agree tag value) (Bool.not_eq_true value ▸ Iff.rfl)

/-- A double, left out when it is zero. -/
theorem double_field (tag : ℕ) (value : F64) :
    Stands P (emitWhen (value.neZero = true) (P.double.encode tag value))
      (sizeWhen (value.neZero = true) (P.double.encodedLen tag value))
      (.implicit tag (.double value)) :=
  stands_implicit (h.double.agree tag value) (Bool.not_eq_true value.neZero ▸ Iff.rfl)

theorem string_field (tag : ℕ) (value : String) :
    Stands P (emitWhen (value ≠ "") (P.string.encode tag value))
      (sizeWhen (value ≠ "") (P.string.encodedLen tag value)) (.implicit tag (.string value)) :=
  stands_implicit (h.string.agree tag value) not_not

/-- A slice is written after its key and its length, which is what is measured. -/
theorem slice_agree (tag : ℕ) (value : Bytes) : Agree (bytesEncode P tag value)
    (bytesEncodedLen P tag value)
    (delimited (P.encodeKey tag .lengthDelimited) P.encodeVarint value) :=
  .emit (by simp [h.key, h.varint, Nat.add_assoc])

theorem slice_field (tag : ℕ) (value : Bytes) : Stands P (bytesEncode P tag value)
    (bytesEncodedLen P tag value) (.always tag (.slice value)) :=
  h.slice_agree tag value

/-- A slice that is left out when it is empty. -/
theorem nonempty_slice_field (tag : ℕ) (value : Bytes) {c : Prop} [Decidable c]
    (hc : ¬c ↔ value = []) : Stands P (emitWhen c (bytesEncode P tag value))
      (sizeWhen c (bytesEncodedLen P tag value)) (.implicit tag (.slice value)) :=
  stands_implicit (h.slice_agree tag value) hc

/-- Slices of one length, measured at once. -/
theorem slices_field {ι : Type} {n : ℕ} (tag : ℕ) (xs : List ι) {f : ι → Bytes}
    (hf : ∀ x, (f x).length = n) : Stands P (seq (xs.map fun x => bytesEncode P tag (f x)))
      (size ((P.keyLen tag + P.encodedLenVarint n + n) * xs.length))
      (.repeated tag (xs.map fun x => .slice (f x))) := by
  have hrep : (Field.repeated tag (xs.map fun x => .slice (f x))).write P =
      xs.flatMap fun x => delimited (P.encodeKey tag .lengthDelimited) P.encodeVarint (f x) := by
    simp [Field.write, Value.write, List.flatMap_map]
  rw [Stands, hrep]
  refine Agree.flatMap_const fun x => (h.slice_agree tag (f x)).of_measure fun s => ?_
  simp [bytesEncodedLen, size, hf]

/-- A nested message, written after the length it announces. -/
theorem message_field (tag : ℕ) {m : Message} {bs : Bytes} (hm : m.Denotes bs) :
    Stands P (P.messageEncode tag m) (P.messageEncodedLen tag m) (.message tag (some bs)) := by
  rw [h.messageEncode, h.messageEncodedLen]
  exact hm.agree (h.key _ _) h.varint

theorem messages_field {ι : Type} (tag : ℕ) (xs : List ι) {m : ι → Message} {f : ι → Bytes}
    (hm : ∀ x, (m x).Denotes (f x)) : Stands P (P.messageEncodeRepeated tag (xs.map m))
      (P.messageEncodedLenRepeated tag (xs.map m)) (.messages tag (xs.map f)) := by
  rw [h.messageEncodeRepeated, h.messageEncodedLenRepeated]
  exact .repeated hm (h.key _ _) h.varint

theorem optional_message_field {ι : Type} (tag : ℕ) (o : Option ι) {m : ι → Message}
    {f : ι → Bytes} (hm : ∀ x, (m x).Denotes (f x)) :
    Stands P (emitSome o fun x => P.messageEncode tag (m x))
      (sizeSome o fun x => P.messageEncodedLen tag (m x)) (.message tag (o.map f)) := by
  cases o with
  | none => exact .emit rfl
  | some x => exact h.message_field tag (hm x)

/-- A list of nested messages that may be absent, which is written as an empty one. -/
theorem optional_messages_field {ι : Type} (tag : ℕ) (o : Option (List ι)) {m : ι → Message}
    {f : ι → Bytes} (hm : ∀ x, (m x).Denotes (f x)) :
    Stands P (emitSome o fun xs => P.messageEncodeRepeated tag (xs.map m))
      (sizeSome o fun xs => P.messageEncodedLenRepeated tag (xs.map m))
      (.messages tag ((o.getD []).map f)) := by
  cases o with
  | none => exact .emit rfl
  | some xs => exact h.messages_field tag xs hm

theorem packed_field (tag : ℕ) (values : List ℕ) : Stands P (P.uint64Packed.encode tag values)
    (P.uint64Packed.encodedLen tag values) (.packed tag values) :=
  h.uint64Packed.agree tag values

theorem strings_field (tag : ℕ) (o : Option (List String)) :
    Stands P (emitSome o fun values => P.stringRepeated.encode tag values)
      (sizeSome o fun values => P.stringRepeated.encodedLen tag values) (.strings tag o) :=
  .emitSome fun values => h.stringRepeated.agree tag values

omit h in
/-- A value that is written if it is there, the default too. -/
theorem optional_field {ι : Type} (tag : ℕ) (o : Option ι) {w : ι → Encode} {l : ι → Measure}
    {f : ι → Value} (hw : ∀ x, Agree (w x) (l x) ((f x).write P tag)) :
    Stands P (emitSome o w) (sizeSome o l) (.optional tag (o.map f)) := by
  cases o with
  | none => exact .emit rfl
  | some x => exact hw x

end Prost.Documented

end Dragonmouth.Encoding
