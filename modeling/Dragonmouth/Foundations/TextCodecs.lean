import Mathlib.Data.List.GetD
import Mathlib.Data.List.TakeWhile
import Mathlib.Data.Nat.Digits.Lemmas

/-!
# Text encodings of bytes

Base 58 writes the number that the bytes denote with other digits and keeps the
leading zeros. Base 64 writes three bytes as four digits and fills up the last
group. Both decode to the bytes that were encoded, and the length of a text is
bounded by the number of bytes.

## Main definitions

- `Alphabet`: the characters of the digits
- `rebase`: a number written in another base
- `Base58.encode`, `Base58.decode`
- `Base64.encode`, `Base64.decode`
-/

namespace TextCodecs

-- ════════════════════════════════════════════════════════════════════════
-- Alphabets
-- ════════════════════════════════════════════════════════════════════════

/-- Different characters of one byte each, in the order of the digits. -/
structure Alphabet where
  chars : List Char
  nodup : chars.Nodup
  ascii : ∀ c ∈ chars, c.utf8Size = 1

/-- The characters are looked at one after the other. -/
theorem ascii_of_all {chars : List Char} (h : chars.all fun c => c.utf8Size == 1) :
    ∀ c ∈ chars, c.utf8Size = 1 :=
  fun c hc => beq_iff_eq.mp (List.all_eq_true.mp h c hc)

/-- A text of characters of one byte has as many bytes as characters. -/
theorem utf8ByteSize_ofList {text : List Char} (h : ∀ c ∈ text, c.utf8Size = 1) :
    (String.ofList text).utf8ByteSize = text.length := by
  rw [← String.size_toByteArray, String.toByteArray_ofList]
  induction text with
  | nil => rfl
  | cons c text ih =>
    rw [List.forall_mem_cons] at h
    rw [List.utf8Encode_cons, ByteArray.size_append, ih h.2, List.utf8Encode_singleton,
      List.size_toByteArray, String.length_utf8EncodeChar, h.1, List.length_cons, Nat.add_comm]

namespace Alphabet

variable (alphabet : Alphabet)

def char (digit : ℕ) : Char := alphabet.chars.getD digit ' '

def digit? (c : Char) : Option ℕ :=
  if c ∈ alphabet.chars then some (alphabet.chars.idxOf c) else none

variable {alphabet} {digit : ℕ} {digits : List ℕ}

theorem char_eq (h : digit < alphabet.chars.length) :
    alphabet.char digit = alphabet.chars[digit] :=
  List.getD_eq_getElem _ _ h

theorem char_mem (h : digit < alphabet.chars.length) : alphabet.char digit ∈ alphabet.chars := by
  rw [char_eq h]
  exact List.getElem_mem h

theorem digit?_char (h : digit < alphabet.chars.length) :
    alphabet.digit? (alphabet.char digit) = some digit := by
  rw [digit?, if_pos (char_mem h), char_eq h, alphabet.nodup.idxOf_getElem digit h]

theorem char_ne {c : Char} (hc : c ∉ alphabet.chars) (h : digit < alphabet.chars.length) :
    alphabet.char digit ≠ c :=
  fun heq => hc (heq ▸ char_mem h)

theorem mapM_digit?_char (h : ∀ digit ∈ digits, digit < alphabet.chars.length) :
    (digits.map alphabet.char).mapM alphabet.digit? = some digits := by
  induction digits with
  | nil => rfl
  | cons digit digits ih =>
    rw [List.forall_mem_cons] at h
    rw [List.map_cons, List.mapM_cons, digit?_char h.1, ih h.2]
    rfl

theorem mem_of_digit? {c : Char} (h : alphabet.digit? c = some digit) : c ∈ alphabet.chars := by
  rw [digit?] at h
  split at h
  · assumption
  · cases h

/-- Texts that are digits have no other characters. -/
theorem mem_of_mapM_digit? {text : List Char} (h : text.mapM alphabet.digit? = some digits) :
    ∀ c ∈ text, c ∈ alphabet.chars := by
  induction text generalizing digits with
  | nil => exact fun _ hc => absurd hc List.not_mem_nil
  | cons c text ih =>
    rw [List.mapM_cons] at h
    obtain ⟨digit, hdigit, h⟩ := Option.bind_eq_some_iff.mp h
    obtain ⟨rest, hrest, -⟩ := Option.bind_eq_some_iff.mp h
    exact List.forall_mem_cons.mpr ⟨mem_of_digit? hdigit, ih hrest⟩

theorem map_char_ascii (h : ∀ digit ∈ digits, digit < alphabet.chars.length) :
    ∀ c ∈ digits.map alphabet.char, c.utf8Size = 1 := by
  intro c hc
  obtain ⟨digit, hdigit, rfl⟩ := List.mem_map.mp hc
  exact alphabet.ascii _ (char_mem (h digit hdigit))

end Alphabet

-- ════════════════════════════════════════════════════════════════════════
-- Other bases
-- ════════════════════════════════════════════════════════════════════════

section

variable {b c n : ℕ} {digits : List ℕ}

def isZero (digit : ℕ) : Bool := digit == 0

/-- The zeros in front. -/
def leading (digits : List ℕ) : List ℕ := digits.takeWhile isZero

/-- The digits from the first one that is not zero. -/
def significant (digits : List ℕ) : List ℕ := digits.dropWhile isZero

theorem leading_append_significant : leading digits ++ significant digits = digits :=
  List.takeWhile_append_dropWhile

theorem eq_zero_of_mem_leading {digit : ℕ} (h : digit ∈ leading digits) : digit = 0 := by
  have hzero : isZero digit = true := List.mem_takeWhile_imp h
  exact beq_iff_eq.mp hzero

theorem mem_of_mem_significant {digit : ℕ} (h : digit ∈ significant digits) : digit ∈ digits :=
  (List.dropWhile_sublist _).mem h

theorem head_significant (h : significant digits ≠ []) : (significant digits).head h ≠ 0 := by
  intro hzero
  have hnot : isZero ((significant digits).head h) = false := List.head_dropWhile_not isZero h
  rw [hzero] at hnot
  cases hnot

/-- Zeros before digits of which the first is not zero. -/
theorem leading_significant_append {zeros rest : List ℕ} (hzeros : ∀ digit ∈ zeros, digit = 0)
    (hrest : ∀ h : rest ≠ [], rest.head h ≠ 0) :
    leading (zeros ++ rest) = zeros ∧ significant (zeros ++ rest) = rest := by
  have hall : ∀ digit ∈ zeros, isZero digit = true :=
    fun digit hdigit => beq_iff_eq.mpr (hzeros digit hdigit)
  rw [leading, significant, List.takeWhile_append_of_pos hall, List.dropWhile_append_of_pos hall]
  cases rest with
  | nil => exact ⟨List.append_nil zeros, rfl⟩
  | cons digit rest =>
    have hne : ¬isZero digit = true := fun h => hrest (List.cons_ne_nil _ _) (eq_of_beq h)
    rw [List.takeWhile_cons_of_neg hne, List.dropWhile_cons_of_neg hne]
    exact ⟨List.append_nil zeros, rfl⟩

/-- The number of digits of base `b`, the most significant digit first. -/
def number (b : ℕ) (digits : List ℕ) : ℕ := Nat.ofDigits b digits.reverse

/-- The leading zeros, then the number that the other digits denote in base `b`
written in base `c`. -/
def rebase (b c : ℕ) (digits : List ℕ) : List ℕ :=
  leading digits ++ (Nat.digits c (number b (significant digits))).reverse

theorem rebase_lt (hc : 1 < c) : ∀ digit ∈ rebase b c digits, digit < c := by
  intro digit hdigit
  obtain hzero | hrest := List.mem_append.mp hdigit
  · rw [eq_zero_of_mem_leading hzero]
    exact Nat.lt_of_succ_lt hc
  · exact Nat.digits_lt_base hc (List.mem_reverse.mp hrest)

theorem head_reverse_digits (h : (Nat.digits c n).reverse ≠ []) :
    (Nat.digits c n).reverse.head h ≠ 0 := by
  rw [List.head_reverse]
  apply Nat.getLast_digit_ne_zero c
  intro hn
  rw [hn, Nat.digits_zero] at h
  exact h rfl

theorem digits_number_significant (hb : 1 < b) (h : ∀ digit ∈ digits, digit < b) :
    (Nat.digits b (number b (significant digits))).reverse = significant digits := by
  have hdigits : Nat.digits b (number b (significant digits)) = (significant digits).reverse := by
    apply Nat.digits_ofDigits b hb
    · intro digit hdigit
      exact h digit (mem_of_mem_significant (List.mem_reverse.mp hdigit))
    · intro hne
      rw [List.getLast_reverse]
      exact head_significant _
  rw [hdigits, List.reverse_reverse]

/-- Writing a number in another base and back gives the same digits. -/
theorem rebase_rebase (hb : 1 < b) (h : ∀ digit ∈ digits, digit < b) :
    rebase c b (rebase b c digits) = digits := by
  have hsplit : leading (rebase b c digits) = leading digits ∧
      significant (rebase b c digits) =
        (Nat.digits c (number b (significant digits))).reverse :=
    leading_significant_append (fun _ => eq_zero_of_mem_leading) head_reverse_digits
  have hnumber : number c (Nat.digits c (number b (significant digits))).reverse =
      number b (significant digits) := by
    rw [number, List.reverse_reverse, Nat.ofDigits_digits]
  rw [rebase, hsplit.1, hsplit.2, hnumber, digits_number_significant hb h,
    leading_append_significant]

theorem number_lt (hb : 1 < b) (h : ∀ digit ∈ digits, digit < b) :
    number b digits < b ^ digits.length := by
  rw [number, ← List.length_reverse]
  apply Nat.ofDigits_lt_base_pow_length hb
  intro digit hdigit
  exact h digit (List.mem_reverse.mp hdigit)

/-- If `l` digits of base `b` never need more than `e` further digits in a smaller base
`c`, neither do fewer digits. -/
theorem pow_le_pow_add {l m e : ℕ} (hcb : c ≤ b) (hc : 0 < c) (h : b ^ l ≤ c ^ (l + e))
    (hm : m ≤ l) : b ^ m ≤ c ^ (m + e) := by
  have hexp : m + e + (l - m) = l + e := by omega
  have hstep : b ^ m * b ^ (l - m) ≤ c ^ (m + e) * b ^ (l - m) :=
    calc
      b ^ m * b ^ (l - m) = b ^ l := by rw [← pow_add, Nat.add_sub_cancel' hm]
      _ ≤ c ^ (l + e) := h
      _ = c ^ (m + e) * c ^ (l - m) := by rw [← pow_add, hexp]
      _ ≤ c ^ (m + e) * b ^ (l - m) := Nat.mul_le_mul_left _ (Nat.pow_le_pow_left hcb _)
  exact Nat.le_of_mul_le_mul_right hstep (Nat.pow_pos (Nat.lt_of_lt_of_le hc hcb))

theorem length_rebase_le {l e : ℕ} (hc : 1 < c) (hcb : c ≤ b) (hpow : b ^ l ≤ c ^ (l + e))
    (h : ∀ digit ∈ digits, digit < b) (hlen : digits.length ≤ l) :
    (rebase b c digits).length ≤ digits.length + e := by
  have hsplit : (leading digits).length + (significant digits).length = digits.length := by
    rw [← List.length_append, leading_append_significant]
  have hrest : (Nat.digits c (number b (significant digits))).length ≤
      (significant digits).length + e := by
    rw [Nat.digits_length_le_iff hc]
    exact Nat.lt_of_lt_of_le
      (number_lt (Nat.lt_of_lt_of_le hc hcb) fun _ hdigit => h _ (mem_of_mem_significant hdigit))
      (pow_le_pow_add hcb (Nat.lt_of_succ_lt hc) hpow (by omega))
  rw [rebase, List.length_append, List.length_reverse]
  omega

/-- A number has no fewer digits in a smaller base. -/
theorem length_digits_le (hc : 1 < c) (hcb : c ≤ b) :
    (Nat.digits b n).length ≤ (Nat.digits c n).length := by
  refine Nat.not_lt.mp fun hlt => Nat.lt_irrefl (Nat.digits c n).length ?_
  rw [Nat.lt_digits_length_iff (Nat.lt_of_lt_of_le hc hcb)] at hlt
  rw [Nat.lt_digits_length_iff hc]
  exact (Nat.pow_le_pow_left hcb _).trans hlt

theorem length_le_length_rebase (hc : 1 < c) (hcb : c ≤ b) (h : ∀ digit ∈ digits, digit < b) :
    digits.length ≤ (rebase b c digits).length := by
  have hsplit : (leading digits).length + (significant digits).length = digits.length := by
    rw [← List.length_append, leading_append_significant]
  have hrest : (Nat.digits b (number b (significant digits))).length =
      (significant digits).length := by
    rw [← List.length_reverse, digits_number_significant (Nat.lt_of_lt_of_le hc hcb) h]
  have hle := length_digits_le (n := number b (significant digits)) hc hcb
  rw [rebase, List.length_append, List.length_reverse]
  omega

end

section

variable {data : List UInt8}

theorem toNat_lt_of_mem_map : ∀ digit ∈ data.map UInt8.toNat, digit < 256 := by
  intro digit hdigit
  obtain ⟨byte, -, rfl⟩ := List.mem_map.mp hdigit
  exact byte.toNat_lt

theorem map_ofNat_map_toNat : (data.map UInt8.toNat).map UInt8.ofNat = data := by
  rw [List.map_map]
  exact (List.map_congr_left fun byte _ => UInt8.ofNat_toNat).trans (List.map_id data)

end

-- ════════════════════════════════════════════════════════════════════════
-- Base 58
-- ════════════════════════════════════════════════════════════════════════

namespace Base58

/-- Letters and digits without `0`, `I`, `O` and `l`. -/
def alphabet : Alphabet where
  chars := ['1', '2', '3', '4', '5', '6', '7', '8', '9', 'A', 'B', 'C', 'D', 'E', 'F', 'G', 'H',
    'J', 'K', 'L', 'M', 'N', 'P', 'Q', 'R', 'S', 'T', 'U', 'V', 'W', 'X', 'Y', 'Z', 'a', 'b',
    'c', 'd', 'e', 'f', 'g', 'h', 'i', 'j', 'k', 'm', 'n', 'o', 'p', 'q', 'r', 's', 't', 'u',
    'v', 'w', 'x', 'y', 'z']
  nodup := by decide +kernel
  ascii := ascii_of_all (by decide +kernel)

/-- The bytes as digits of a number, written in base 58. -/
def encode (data : List UInt8) : String :=
  .ofList ((rebase 256 58 (data.map UInt8.toNat)).map alphabet.char)

def decode (text : String) : Option (List UInt8) := do
  let digits ← text.toList.mapM alphabet.digit?
  some ((rebase 58 256 digits).map UInt8.ofNat)

variable {data : List UInt8}

theorem digits_lt :
    ∀ digit ∈ rebase 256 58 (data.map UInt8.toNat), digit < alphabet.chars.length :=
  rebase_lt (by decide)

theorem decode_encode : decode (encode data) = some data := by
  rw [decode, encode, String.toList_ofList, Alphabet.mapM_digit?_char digits_lt]
  simp only [Option.bind_eq_bind, Option.bind_some]
  rw [rebase_rebase (by decide) toNat_lt_of_mem_map, map_ofNat_map_toNat]

/-- 128 bytes need at most 175 digits, and a text of fewer bytes exceeds their number by
no more. -/
theorem utf8ByteSize_encode_le (h : data.length ≤ 128) :
    (encode data).utf8ByteSize ≤ data.length + 47 := by
  have hpow : 256 ^ 128 ≤ 58 ^ (128 + 47) := by decide
  have hlength : (data.map UInt8.toNat).length ≤ 128 := by rwa [List.length_map]
  have hle := length_rebase_le (by decide) (by decide) hpow toNat_lt_of_mem_map hlength
  rw [List.length_map] at hle
  rwa [encode, utf8ByteSize_ofList (Alphabet.map_char_ascii digits_lt), List.length_map]

/-- A text has at least as many characters as it stands for bytes. -/
theorem length_le_utf8ByteSize_encode : data.length ≤ (encode data).utf8ByteSize := by
  have hle := length_le_length_rebase (b := 256) (c := 58) (by decide) (by decide)
    (toNat_lt_of_mem_map : ∀ digit ∈ data.map UInt8.toNat, digit < 256)
  rw [List.length_map] at hle
  rwa [encode, utf8ByteSize_ofList (Alphabet.map_char_ascii digits_lt), List.length_map]

theorem mem_of_decode {text : String} (h : decode text = some data) :
    ∀ c ∈ text.toList, c ∈ alphabet.chars := by
  obtain ⟨digits, hdigits, -⟩ := Option.bind_eq_some_iff.mp h
  exact Alphabet.mem_of_mapM_digit? hdigits

example : encode [0, 0, 255] = "115Q" := by decide +kernel

end Base58

-- ════════════════════════════════════════════════════════════════════════
-- Base 64
-- ════════════════════════════════════════════════════════════════════════

namespace Base64

def alphabet : Alphabet where
  chars := ['A', 'B', 'C', 'D', 'E', 'F', 'G', 'H', 'I', 'J', 'K', 'L', 'M', 'N', 'O', 'P', 'Q',
    'R', 'S', 'T', 'U', 'V', 'W', 'X', 'Y', 'Z', 'a', 'b', 'c', 'd', 'e', 'f', 'g', 'h', 'i',
    'j', 'k', 'l', 'm', 'n', 'o', 'p', 'q', 'r', 's', 't', 'u', 'v', 'w', 'x', 'y', 'z', '0',
    '1', '2', '3', '4', '5', '6', '7', '8', '9', '+', '/']
  nodup := by decide +kernel
  ascii := ascii_of_all (by decide +kernel)

/-- Fills up the last group. -/
def pad : Char := '='

/-- Three bytes are four digits of six bits. -/
def encodeChars : List UInt8 → List Char
  | [] => []
  | [a] => [alphabet.char (a.toNat / 4), alphabet.char (a.toNat % 4 * 16), pad, pad]
  | [a, b] =>
    [alphabet.char (a.toNat / 4), alphabet.char (a.toNat % 4 * 16 + b.toNat / 16),
      alphabet.char (b.toNat % 16 * 4), pad]
  | a :: b :: c :: rest =>
    alphabet.char (a.toNat / 4) :: alphabet.char (a.toNat % 4 * 16 + b.toNat / 16) ::
      alphabet.char (b.toNat % 16 * 4 + c.toNat / 64) :: alphabet.char (c.toNat % 64) ::
        encodeChars rest

/-- One or two bytes; the bits that are left over are zero. -/
def decodePadded (p q r : Char) : Option (List UInt8) := do
  let x ← alphabet.digit? p
  let y ← alphabet.digit? q
  if r = pad then
    if y % 16 = 0 then some [.ofNat (x * 4 + y / 16)] else none
  else
    let z ← alphabet.digit? r
    if z % 4 = 0 then some [.ofNat (x * 4 + y / 16), .ofNat (y % 16 * 16 + z / 4)] else none

def decodeGroup (p q r s : Char) : Option (List UInt8) := do
  let x ← alphabet.digit? p
  let y ← alphabet.digit? q
  let z ← alphabet.digit? r
  let w ← alphabet.digit? s
  some [.ofNat (x * 4 + y / 16), .ofNat (y % 16 * 16 + z / 4), .ofNat (z % 4 * 64 + w)]

def decodeChars : List Char → Option (List UInt8)
  | [] => some []
  | p :: q :: r :: s :: rest =>
    if s = pad ∧ rest = [] then decodePadded p q r
    else do
      let group ← decodeGroup p q r s
      let data ← decodeChars rest
      some (group ++ data)
  | _ => none

def encode (data : List UInt8) : String := .ofList (encodeChars data)

def decode (text : String) : Option (List UInt8) := decodeChars text.toList

section

variable {a b c : UInt8} {x y z w : ℕ}

theorem digit?_char (h : x < 64) : alphabet.digit? (alphabet.char x) = some x :=
  Alphabet.digit?_char h

theorem char_ne_pad (h : x < 64) : alphabet.char x ≠ pad :=
  Alphabet.char_ne (by decide) h

theorem decodePadded_one :
    decodePadded (alphabet.char (a.toNat / 4)) (alphabet.char (a.toNat % 4 * 16)) pad =
      some [a] := by
  have ha := a.toNat_lt
  have hbyte : a.toNat / 4 * 4 + a.toNat % 4 * 16 / 16 = a.toNat := by omega
  rw [decodePadded, digit?_char (by omega), digit?_char (by omega)]
  simp only [Option.bind_eq_bind, Option.bind_some, ↓reduceIte]
  rw [if_pos (by omega), hbyte, UInt8.ofNat_toNat]

theorem decodePadded_two :
    decodePadded (alphabet.char (a.toNat / 4))
        (alphabet.char (a.toNat % 4 * 16 + b.toNat / 16)) (alphabet.char (b.toNat % 16 * 4)) =
      some [a, b] := by
  have ha := a.toNat_lt
  have hb := b.toNat_lt
  have hfirst : a.toNat / 4 * 4 + (a.toNat % 4 * 16 + b.toNat / 16) / 16 = a.toNat := by omega
  have hsecond : (a.toNat % 4 * 16 + b.toNat / 16) % 16 * 16 + b.toNat % 16 * 4 / 4 =
      b.toNat := by omega
  rw [decodePadded, digit?_char (by omega), digit?_char (by omega), digit?_char (by omega)]
  simp only [Option.bind_eq_bind, Option.bind_some]
  rw [if_neg (char_ne_pad (by omega)), if_pos (by omega), hfirst, hsecond, UInt8.ofNat_toNat,
    UInt8.ofNat_toNat]

theorem decodeGroup_eq :
    decodeGroup (alphabet.char (a.toNat / 4))
        (alphabet.char (a.toNat % 4 * 16 + b.toNat / 16))
        (alphabet.char (b.toNat % 16 * 4 + c.toNat / 64)) (alphabet.char (c.toNat % 64)) =
      some [a, b, c] := by
  have ha := a.toNat_lt
  have hb := b.toNat_lt
  have hc := c.toNat_lt
  have hfirst : a.toNat / 4 * 4 + (a.toNat % 4 * 16 + b.toNat / 16) / 16 = a.toNat := by omega
  have hsecond : (a.toNat % 4 * 16 + b.toNat / 16) % 16 * 16 +
      (b.toNat % 16 * 4 + c.toNat / 64) / 4 = b.toNat := by omega
  have hthird : (b.toNat % 16 * 4 + c.toNat / 64) % 4 * 64 + c.toNat % 64 = c.toNat := by omega
  rw [decodeGroup, digit?_char (by omega), digit?_char (by omega), digit?_char (by omega),
    digit?_char (by omega)]
  simp only [Option.bind_eq_bind, Option.bind_some]
  rw [hfirst, hsecond, hthird, UInt8.ofNat_toNat, UInt8.ofNat_toNat, UInt8.ofNat_toNat]

end

variable {data : List UInt8}

theorem decodeChars_encodeChars : decodeChars (encodeChars data) = some data := by
  induction data using encodeChars.induct with
  | case1 => rfl
  | case2 a => rw [encodeChars, decodeChars, if_pos ⟨rfl, rfl⟩, decodePadded_one]
  | case3 a b => rw [encodeChars, decodeChars, if_pos ⟨rfl, rfl⟩, decodePadded_two]
  | case4 a b c rest ih =>
    have hfull : ¬(alphabet.char (c.toNat % 64) = pad ∧ encodeChars rest = []) :=
      fun h => char_ne_pad (Nat.mod_lt _ (by decide)) h.1
    rw [encodeChars, decodeChars, if_neg hfull, decodeGroup_eq, ih]
    rfl

theorem decode_encode : decode (encode data) = some data := by
  rw [decode, encode, String.toList_ofList, decodeChars_encodeChars]

theorem length_encodeChars : (encodeChars data).length = 4 * ((data.length + 2) / 3) := by
  induction data using encodeChars.induct with
  | case1 => rfl
  | case2 a => simp [encodeChars]
  | case3 a b => simp [encodeChars]
  | case4 a b c rest ih =>
    simp only [encodeChars, List.length_cons, ih]
    omega

theorem char_ascii {x : ℕ} (h : x < 64) : (alphabet.char x).utf8Size = 1 :=
  alphabet.ascii _ (Alphabet.char_mem h)

theorem encodeChars_ascii : ∀ char ∈ encodeChars data, char.utf8Size = 1 := by
  have hpad : pad.utf8Size = 1 := rfl
  induction data using encodeChars.induct with
  | case1 => exact fun _ h => absurd h List.not_mem_nil
  | case2 a =>
    have ha := a.toNat_lt
    simp only [encodeChars, List.forall_mem_cons]
    exact ⟨char_ascii (by omega), char_ascii (by omega), hpad, hpad,
      fun _ h => absurd h List.not_mem_nil⟩
  | case3 a b =>
    have ha := a.toNat_lt
    have hb := b.toNat_lt
    simp only [encodeChars, List.forall_mem_cons]
    exact ⟨char_ascii (by omega), char_ascii (by omega), char_ascii (by omega), hpad,
      fun _ h => absurd h List.not_mem_nil⟩
  | case4 a b c rest ih =>
    have ha := a.toNat_lt
    have hb := b.toNat_lt
    have hc := c.toNat_lt
    simp only [encodeChars, List.forall_mem_cons]
    exact ⟨char_ascii (by omega), char_ascii (by omega), char_ascii (by omega),
      char_ascii (by omega), ih⟩

theorem utf8ByteSize_encode : (encode data).utf8ByteSize = 4 * ((data.length + 2) / 3) := by
  rw [encode, utf8ByteSize_ofList encodeChars_ascii, length_encodeChars]

theorem mem_of_decodePadded {p q r : Char} (h : decodePadded p q r = some data) :
    p ∈ alphabet.chars ∧ q ∈ alphabet.chars ∧ (r ∈ alphabet.chars ∨ r = pad) := by
  obtain ⟨x, hx, h⟩ := Option.bind_eq_some_iff.mp h
  obtain ⟨y, hy, h⟩ := Option.bind_eq_some_iff.mp h
  refine ⟨Alphabet.mem_of_digit? hx, Alphabet.mem_of_digit? hy, ?_⟩
  split at h
  · rename_i hpad
    exact .inr hpad
  · obtain ⟨z, hz, -⟩ := Option.bind_eq_some_iff.mp h
    exact .inl (Alphabet.mem_of_digit? hz)

theorem mem_of_decodeGroup {p q r s : Char} (h : decodeGroup p q r s = some data) :
    p ∈ alphabet.chars ∧ q ∈ alphabet.chars ∧ r ∈ alphabet.chars ∧ s ∈ alphabet.chars := by
  obtain ⟨x, hx, h⟩ := Option.bind_eq_some_iff.mp h
  obtain ⟨y, hy, h⟩ := Option.bind_eq_some_iff.mp h
  obtain ⟨z, hz, h⟩ := Option.bind_eq_some_iff.mp h
  obtain ⟨w, hw, -⟩ := Option.bind_eq_some_iff.mp h
  exact ⟨Alphabet.mem_of_digit? hx, Alphabet.mem_of_digit? hy, Alphabet.mem_of_digit? hz,
    Alphabet.mem_of_digit? hw⟩

theorem mem_of_decodeChars {text : List Char} (h : decodeChars text = some data) :
    ∀ c ∈ text, c ∈ alphabet.chars ∨ c = pad := by
  induction text using decodeChars.induct generalizing data with
  | case1 => exact fun _ hc => absurd hc List.not_mem_nil
  | case2 p q r s rest hlast =>
    obtain ⟨rfl, rfl⟩ := hlast
    rw [decodeChars, if_pos ⟨rfl, rfl⟩] at h
    obtain ⟨hp, hq, hr⟩ := mem_of_decodePadded h
    simp [hp, hq, hr]
  | case3 p q r s rest hlast ih =>
    rw [decodeChars, if_neg hlast] at h
    obtain ⟨group, hgroup, h⟩ := Option.bind_eq_some_iff.mp h
    obtain ⟨tail, htail, -⟩ := Option.bind_eq_some_iff.mp h
    obtain ⟨hp, hq, hr, hs⟩ := mem_of_decodeGroup hgroup
    simpa [hp, hq, hr, hs] using ih htail
  | case4 text hnil hgroup =>
    rw [decodeChars] at h
    · cases h
    · exact hnil
    · exact hgroup

theorem mem_of_decode {text : String} (h : decode text = some data) :
    ∀ c ∈ text.toList, c ∈ alphabet.chars ∨ c = pad :=
  mem_of_decodeChars h

example : encode [77, 97] = "TWE=" := by decide

end Base64

end TextCodecs
