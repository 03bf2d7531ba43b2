import Mathlib.Algebra.Order.Group.Nat
import Mathlib.Data.List.Basic

/-!
# Key-value records

The wire format of the protobuf encoding guide: a message is a list of records, each a
key and a payload, and a key is a tag with the kind of the payload. The reader takes
back what the writer wrote. Groups, which the guide deprecates, are refused.

A decoder of a message looks at the payloads of one tag at a time. The last one counts
for a single value, all of them for a repeated one, and a nested message is read from
the contents of all its records together.

## Main definitions

- `varint`, `Record.write`: the writers
- `readRecords`: the reader
- `single`, `optional`, `repeated`, `packed`, `nested`: the payloads of a tag
- `chosen`: the member of a `oneof`
-/

namespace Records

/-- Base-128 digits, least first; all but the last one are marked. `rounds` bounds their
number. -/
def varint : ℕ → ℕ → List UInt8
  | 0, _ => []
  | rounds + 1, value =>
    if value < 128 then [UInt8.ofNat value]
    else UInt8.ofNat (value % 128 + 128) :: varint rounds (value / 128)

def readVarint : ℕ → List UInt8 → Option (ℕ × List UInt8)
  | 0, _ => none
  | _ + 1, [] => none
  | rounds + 1, byte :: rest =>
    if byte.toNat < 128 then some (byte.toNat, rest)
    else do
      let (value, rest) ← readVarint rounds rest
      some (byte.toNat - 128 + 128 * value, rest)

theorem varint_length_pos {rounds : ℕ} (h : 0 < rounds) (value : ℕ) :
    0 < (varint rounds value).length := by
  cases rounds with
  | zero => cases h
  | succ rounds =>
    rw [varint]
    split
    · exact Nat.zero_lt_one
    · exact Nat.succ_pos _

theorem readVarint_append {rounds value : ℕ} (h : value < 128 ^ rounds) (hrounds : 0 < rounds)
    (rest : List UInt8) : readVarint rounds (varint rounds value ++ rest) = some (value, rest) := by
  induction rounds generalizing value with
  | zero => cases hrounds
  | succ rounds ih =>
    rw [varint]
    split
    · rename_i hlt
      have hbyte : (UInt8.ofNat value).toNat = value := by
        rw [UInt8.toNat_ofNat']
        omega
      rw [List.cons_append, readVarint, hbyte, if_pos hlt, List.nil_append]
    · rename_i hle
      have hbyte : (UInt8.ofNat (value % 128 + 128)).toNat = value % 128 + 128 := by
        rw [UInt8.toNat_ofNat']
        omega
      have hrounds' : 0 < rounds := by
        rcases Nat.eq_zero_or_pos rounds with rfl | hpos
        · exact absurd h hle
        · exact hpos
      have hdiv : value / 128 < 128 ^ rounds :=
        Nat.div_lt_of_lt_mul (by rwa [Nat.pow_succ'] at h)
      have hvalue : value % 128 + 128 - 128 + 128 * (value / 128) = value := by omega
      rw [List.cons_append, readVarint, hbyte, if_neg (by omega), ih hdiv hrounds']
      simp only [Option.bind_eq_bind, Option.bind_some, hvalue]

/-- The payload of a record. -/
inductive Payload where
  | varint (value : ℕ)
  | fixed64 (bytes : List UInt8)
  | delimited (bytes : List UInt8)
  | fixed32 (bytes : List UInt8)
  deriving DecidableEq

namespace Payload

def wireType : Payload → ℕ
  | varint _ => 0
  | fixed64 _ => 1
  | delimited _ => 2
  | fixed32 _ => 5

def write : Payload → List UInt8
  | varint value => Records.varint 10 value
  | fixed64 bytes => bytes
  | delimited bytes => Records.varint 10 bytes.length ++ bytes
  | fixed32 bytes => bytes

/-- Numbers and lengths are of 64 bits. -/
def Fits : Payload → Prop
  | varint value => value < 2 ^ 64
  | fixed64 bytes => bytes.length = 8
  | delimited bytes => bytes.length < 2 ^ 64
  | fixed32 bytes => bytes.length = 4

def varint? : Payload → Option ℕ
  | varint value => some value
  | _ => none

def fixed64? : Payload → Option (List UInt8)
  | fixed64 bytes => some bytes
  | _ => none

def delimited? : Payload → Option (List UInt8)
  | delimited bytes => some bytes
  | _ => none

end Payload

/-- A number of 64 bits. -/
def readNumber (bytes : List UInt8) : Option (ℕ × List UInt8) := do
  let (value, rest) ← readVarint 10 bytes
  if value < 2 ^ 64 then some (value, rest) else none

/-- Take `n` bytes. -/
def readBytes (n : ℕ) (bytes : List UInt8) : Option (List UInt8 × List UInt8) :=
  if n ≤ bytes.length then some (bytes.take n, bytes.drop n) else none

def readPayload (wireType : ℕ) (bytes : List UInt8) : Option (Payload × List UInt8) :=
  match wireType with
  | 0 => do
    let (value, rest) ← readNumber bytes
    some (.varint value, rest)
  | 1 => do
    let (value, rest) ← readBytes 8 bytes
    some (.fixed64 value, rest)
  | 2 => do
    let (len, rest) ← readNumber bytes
    let (value, rest) ← readBytes len rest
    some (.delimited value, rest)
  | 5 => do
    let (value, rest) ← readBytes 4 bytes
    some (.fixed32 value, rest)
  | _ => none

structure Record where
  tag : ℕ
  payload : Payload
  deriving DecidableEq

def Record.write (record : Record) : List UInt8 :=
  varint 10 (record.tag * 8 + record.payload.wireType) ++ record.payload.write

structure Record.Fits (record : Record) : Prop where
  pos : 0 < record.tag
  lt : record.tag < 2 ^ 29
  payload : record.payload.Fits

/-- A key is of 32 bits, and its tag is not zero. -/
def readRecord (bytes : List UInt8) : Option (Record × List UInt8) := do
  let (key, rest) ← readVarint 10 bytes
  if key < 2 ^ 32 ∧ 0 < key / 8 then
    let (payload, rest) ← readPayload (key % 8) rest
    some (⟨key / 8, payload⟩, rest)
  else none

/-- Read one after the other to the end; `count` bounds their number. -/
def readUpTo {β : Type} (read : List UInt8 → Option (β × List UInt8)) :
    ℕ → List UInt8 → Option (List β)
  | _, [] => some []
  | 0, _ :: _ => none
  | count + 1, byte :: bytes => do
    let (value, rest) ← read (byte :: bytes)
    let values ← readUpTo read count rest
    some (value :: values)

/-- Everything that is read has at least a byte. -/
def readAll {β : Type} (read : List UInt8 → Option (β × List UInt8)) (bytes : List UInt8) :
    Option (List β) := readUpTo read bytes.length bytes

def readRecords : List UInt8 → Option (List Record) := readAll readRecord

-- ════════════════════════════════════════════════════════════════════════
-- Reading what was written
-- ════════════════════════════════════════════════════════════════════════

theorem readVarint_write {value : ℕ} (h : value < 2 ^ 64) (rest : List UInt8) :
    readVarint 10 (varint 10 value ++ rest) = some (value, rest) :=
  readVarint_append (h.trans (by decide : 2 ^ 64 < 128 ^ 10)) (by decide) rest

theorem readNumber_write {value : ℕ} (h : value < 2 ^ 64) (rest : List UInt8) :
    readNumber (varint 10 value ++ rest) = some (value, rest) := by
  simp only [readNumber, readVarint_write h, Option.bind_eq_bind, Option.bind_some]
  exact if_pos h

theorem readBytes_append (bytes rest : List UInt8) :
    readBytes bytes.length (bytes ++ rest) = some (bytes, rest) := by
  rw [readBytes, if_pos (by rw [List.length_append]; omega), List.take_left, List.drop_left]

theorem readPayload_write {payload : Payload} (h : payload.Fits) (rest : List UInt8) :
    readPayload payload.wireType (payload.write ++ rest) = some (payload, rest) := by
  cases payload with
  | varint value =>
    have hread := readNumber_write (show value < 2 ^ 64 from h) rest
    simp only [readPayload, Payload.wireType, Payload.write, hread, Option.bind_eq_bind,
      Option.bind_some]
  | fixed64 bytes =>
    have hread := readBytes_append bytes rest
    rw [show bytes.length = 8 from h] at hread
    simp only [readPayload, Payload.wireType, Payload.write, hread, Option.bind_eq_bind,
      Option.bind_some]
  | delimited bytes =>
    have hread := readNumber_write (show bytes.length < 2 ^ 64 from h) (bytes ++ rest)
    simp only [readPayload, Payload.wireType, Payload.write, List.append_assoc, hread,
      readBytes_append, Option.bind_eq_bind, Option.bind_some]
  | fixed32 bytes =>
    have hread := readBytes_append bytes rest
    rw [show bytes.length = 4 from h] at hread
    simp only [readPayload, Payload.wireType, Payload.write, hread, Option.bind_eq_bind,
      Option.bind_some]

theorem Payload.wireType_lt (payload : Payload) : payload.wireType < 8 := by
  cases payload with
  | varint | fixed64 | delimited | fixed32 => simp only [wireType]; omega

theorem readRecord_write {record : Record} (h : record.Fits) (rest : List UInt8) :
    readRecord (record.write ++ rest) = some (record, rest) := by
  obtain ⟨tag, payload⟩ := record
  obtain ⟨hpos, hlt, hpayload⟩ := h
  simp only at hpos hlt hpayload
  have htype := payload.wireType_lt
  have hmod : (tag * 8 + payload.wireType) % 8 = payload.wireType := by omega
  have hdiv : (tag * 8 + payload.wireType) / 8 = tag := by omega
  have hkey : tag * 8 + payload.wireType < 2 ^ 32 := by omega
  have hread := readVarint_write (hkey.trans (by decide : 2 ^ 32 < 2 ^ 64)) (payload.write ++ rest)
  simp only [readRecord, Record.write, List.append_assoc, hread, Option.bind_eq_bind,
    Option.bind_some, hmod, hdiv, readPayload_write hpayload]
  exact if_pos ⟨hkey, hpos⟩

theorem Record.write_length_pos (record : Record) : 0 < record.write.length := by
  rw [Record.write, List.length_append]
  exact Nat.add_pos_left (varint_length_pos (by decide : 0 < 10) _) _

section

variable {β : Type} {read : List UInt8 → Option (β × List UInt8)} {write : β → List UInt8}

theorem readUpTo_write {values : List β}
    (h : ∀ value ∈ values, ∀ rest, read (write value ++ rest) = some (value, rest))
    (hpos : ∀ value, 0 < (write value).length) {count : ℕ} (hcount : values.length ≤ count) :
    readUpTo read count (values.flatMap write) = some values := by
  induction values generalizing count with
  | nil => cases count <;> rfl
  | cons value values ih =>
    have hvalue := h value List.mem_cons_self (values.flatMap write)
    have hlen := hpos value
    rw [List.flatMap_cons]
    cases count with
    | zero => cases hcount
    | succ count =>
      cases hwrite : write value with
      | nil =>
        rw [hwrite] at hlen
        cases hlen
      | cons byte bytes =>
        rw [hwrite] at hvalue
        rw [List.cons_append] at hvalue ⊢
        have hvalues := ih (fun found hfound => h found (List.mem_cons_of_mem _ hfound))
          (Nat.le_of_succ_le_succ hcount)
        simp only [readUpTo, hvalue, Option.bind_eq_bind, Option.bind_some, hvalues]

/-- What is written is no shorter than its parts are many. -/
theorem length_le_write (hpos : ∀ value, 0 < (write value).length) (values : List β) :
    values.length ≤ (values.flatMap write).length := by
  induction values with
  | nil => exact Nat.le_refl 0
  | cons value values ih =>
    have hlen := hpos value
    rw [List.flatMap_cons, List.length_append, List.length_cons]
    omega

theorem readAll_write {values : List β}
    (h : ∀ value ∈ values, ∀ rest, read (write value ++ rest) = some (value, rest))
    (hpos : ∀ value, 0 < (write value).length) :
    readAll read (values.flatMap write) = some values :=
  readUpTo_write h hpos (length_le_write hpos values)

end

theorem readRecords_write {records : List Record} (h : ∀ record ∈ records, record.Fits) :
    readRecords (records.flatMap Record.write) = some records :=
  readAll_write (fun record hrecord => readRecord_write (h record hrecord))
    Record.write_length_pos

-- ════════════════════════════════════════════════════════════════════════
-- The payloads of a tag
-- ════════════════════════════════════════════════════════════════════════

section

variable {α : Type}

theorem and_then {β : Type} {o : Option α} {f : α → Option β} {a : α} {b : β} (ho : o = some a)
    (hf : f a = some b) : (o >>= f) = some b :=
  Option.bind_eq_some_iff.mpr ⟨a, ho, hf⟩

/-- The payloads of a tag, in order. -/
def payloads (tag : ℕ) (records : List Record) : List Payload :=
  (records.filter fun record => record.tag = tag).map Record.payload

def repeated (read : Payload → Option α) (tag : ℕ) (records : List Record) : Option (List α) :=
  (payloads tag records).mapM read

def optional (read : Payload → Option α) (tag : ℕ) (records : List Record) : Option (Option α) :=
  (repeated read tag records).map List.getLast?

/-- A value that is absent is the default. -/
def single (read : Payload → Option α) (default : α) (tag : ℕ) (records : List Record) :
    Option α :=
  (optional read tag records).map fun value => value.getD default

/-- A repeated number is packed into one payload, or has a payload of its own. -/
def numbers : Payload → Option (List ℕ)
  | .varint value => some [value]
  | .delimited bytes => readAll readNumber bytes
  | _ => none

def packed (tag : ℕ) (records : List Record) : Option (List ℕ) :=
  (repeated numbers tag records).map List.flatten

/-- A message from its bytes. -/
def message (decode : List Record → Option α) (bytes : List UInt8) : Option α := do
  let records ← readRecords bytes
  decode records

/-- The contents of all records of the tag are those of one message. -/
def nested (decode : List Record → Option α) (tag : ℕ) (records : List Record) :
    Option (Option α) := do
  let bodies ← repeated Payload.delimited? tag records
  if bodies.isEmpty then some none
  else do
    let value ← message decode bodies.flatten
    some (some value)

def nestedAll (decode : List Record → Option α) (tag : ℕ) (records : List Record) :
    Option (List α) := do
  let bodies ← repeated Payload.delimited? tag records
  bodies.mapM (message decode)

/-- Of the members of a `oneof` the last one counts. Its records add up as long as no
other member comes between. -/
def choose (found : Option (ℕ × List UInt8)) (record : Record) :
    Option (Option (ℕ × List UInt8)) := do
  let body ← record.payload.delimited?
  let before := match found with
    | some (tag, bytes) => if tag = record.tag then bytes else []
    | none => []
  some (some (record.tag, before ++ body))

def chosen (tags : List ℕ) (records : List Record) : Option (Option (ℕ × List UInt8)) :=
  (records.filter fun record => record.tag ∈ tags).foldlM choose none

-- ════════════════════════════════════════════════════════════════════════
-- Records field by field
-- ════════════════════════════════════════════════════════════════════════

variable {ι : Type} {items : List ι} {tagOf : ι → ℕ} {payloadsOf : ι → List Payload}

/-- The records of fields that have a tag and payloads each. -/
def recordsOf (tagOf : ι → ℕ) (payloadsOf : ι → List Payload) (items : List ι) : List Record :=
  items.flatMap fun item => (payloadsOf item).map (Record.mk (tagOf item))

/-- Records are selected by their tag field by field. -/
theorem filter_recordsOf (p : ℕ → Bool) : (recordsOf tagOf payloadsOf items).filter
    (fun record => p record.tag) =
      recordsOf tagOf payloadsOf (items.filter fun item => p (tagOf item)) := by
  induction items with
  | nil => rfl
  | cons item items ih =>
    rw [recordsOf, List.flatMap_cons, List.filter_append, List.filter_map, List.filter_cons]
    change _ ++ (recordsOf tagOf payloadsOf items).filter _ = _
    rw [ih]
    cases hp : p (tagOf item) with
    | true =>
      have htrue : (fun record : Record => p record.tag) ∘ Record.mk (tagOf item) =
          fun _ => true := funext fun _ => hp
      rw [htrue, List.filter_true]
      rfl
    | false =>
      have hfalse : (fun record : Record => p record.tag) ∘ Record.mk (tagOf item) =
          fun _ => false := funext fun _ => hp
      rw [hfalse, List.filter_false]
      rfl

theorem payloads_recordsOf {tag : ℕ} {item : ι}
    (h : items.filter (fun item => tagOf item = tag) = [item]) :
    payloads tag (recordsOf tagOf payloadsOf items) = payloadsOf item := by
  rw [payloads, filter_recordsOf fun found => decide (found = tag), h, recordsOf,
    List.flatMap_singleton, List.map_map]
  exact List.map_id _

-- ════════════════════════════════════════════════════════════════════════
-- Reading the payloads of one field
-- ════════════════════════════════════════════════════════════════════════

variable {records : List Record} {tag : ℕ}

theorem mapM_some {κ : Type} {f : κ → Option α} {value : κ → α} {xs : List κ}
    (h : ∀ x ∈ xs, f x = some (value x)) : xs.mapM f = some (xs.map value) := by
  induction xs with
  | nil => rfl
  | cons x xs ih =>
    have hrest := ih fun y hy => h y (List.mem_cons_of_mem _ hy)
    rw [List.mapM_cons, h x List.mem_cons_self, hrest]
    rfl

/-- Every element of a list has a record. -/
theorem repeated_of_payloads {κ : Type} {read : Payload → Option α} {write : κ → Payload}
    {value : κ → α} {xs : List κ} (h : payloads tag records = xs.map write)
    (hread : ∀ x ∈ xs, read (write x) = some (value x)) :
    repeated read tag records = some (xs.map value) := by
  rw [repeated, h, List.mapM_map]
  exact mapM_some hread

/-- A value that may be absent has a record if it is there. -/
theorem optional_of_payloads {κ : Type} {read : Payload → Option α} {write : κ → Payload}
    {value : κ → α} {o : Option κ} (h : payloads tag records = (o.map write).toList)
    (hread : ∀ x ∈ o, read (write x) = some (value x)) :
    optional read tag records = some (o.map value) := by
  cases o with
  | none =>
    rw [optional, repeated, h]
    rfl
  | some x =>
    have hx : read (write x) = some (value x) := hread x rfl
    rw [optional, repeated, h]
    change ([write x].mapM read).map List.getLast? = _
    rw [List.mapM_cons, hx]
    rfl

/-- A default value has no record. -/
theorem single_of_payloads {read : Payload → Option α} {payload : Payload} {default value : α}
    {c : Prop} [Decidable c] (h : payloads tag records = if c then [] else [payload])
    (hdefault : c → value = default) (hread : ¬c → read payload = some value) :
    single read default tag records = some value := by
  by_cases hc : c
  · rw [if_pos hc] at h
    rw [single, optional, repeated, h, hdefault hc]
    rfl
  · rw [if_neg hc] at h
    rw [single, optional, repeated, h, List.mapM_cons, hread hc]
    rfl

theorem nested_of_payloads {decode : List Record → Option α} {body : α → List UInt8}
    {o : Option α} (h : payloads tag records = (o.map fun x => .delimited (body x)).toList)
    (hread : ∀ x ∈ o, message decode (body x) = some x) :
    nested decode tag records = some o := by
  cases o with
  | none =>
    rw [nested, repeated, h]
    rfl
  | some x =>
    have hx : message decode (body x) = some x := hread x rfl
    rw [nested, repeated, h]
    change (message decode ([body x].flatten)).bind _ = _
    rw [List.flatten_singleton, hx]
    rfl

theorem nestedAll_of_payloads {decode : List Record → Option α} {body : α → List UInt8}
    {xs : List α} (h : payloads tag records = xs.map fun x => .delimited (body x))
    (hread : ∀ x ∈ xs, message decode (body x) = some x) :
    nestedAll decode tag records = some xs := by
  have hbodies : repeated Payload.delimited? tag records = some (xs.map body) :=
    repeated_of_payloads h fun _ _ => rfl
  rw [nestedAll, hbodies]
  change (xs.map body).mapM (message decode) = some xs
  rw [List.mapM_map]
  exact (mapM_some hread).trans (congrArg some (List.map_id' xs))

theorem packed_of_payloads {values : List ℕ}
    (h : payloads tag records =
      if values = [] then [] else [.delimited (values.flatMap (varint 10))])
    (hvalues : ∀ value ∈ values, value < 2 ^ 64) : packed tag records = some values := by
  by_cases hnil : values = []
  · rw [if_pos hnil] at h
    rw [packed, repeated, h, hnil]
    rfl
  · rw [if_neg hnil] at h
    have hnumbers : numbers (.delimited (values.flatMap (varint 10))) = some values :=
      readAll_write (fun value hvalue => readNumber_write (hvalues value hvalue))
        (varint_length_pos (by decide))
    rw [packed, repeated, h, List.mapM_cons, hnumbers]
    exact congrArg some (List.append_nil values)

theorem chosen_singleton {tags : List ℕ} {body : List UInt8}
    (h : records.filter (fun record => record.tag ∈ tags) = [⟨tag, .delimited body⟩]) :
    chosen tags records = some (some (tag, body)) := by
  rw [chosen, h]
  rfl

end

end Records
