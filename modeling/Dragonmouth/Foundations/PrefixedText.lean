import Dragonmouth.Foundations.TextCodecs

/-!
# Texts that name their encoding

A text gives bytes in an encoding that its first seven characters name, or as they
are. A reader that looks for the name slices bytes off the front of the text, which
panics unless the slice ends between two characters.

## Main definitions

- `sliceTo`: the first bytes of a text, if they are characters
- `Boundary`: where a text can be sliced
- `Decoders`: decoders of base 64 and base 58 texts
- `Spelling`: bytes and the text that gives them
-/

namespace TextCodecs

/-- What stops a reader: a slice that does not end between two characters, or an error. -/
inductive TextFault (ε : Type) where
  | slice
  | error (error : ε)
  deriving DecidableEq

/-- The first characters, of `n` bytes together. -/
def takeBytes : List Char → ℕ → Option (List Char)
  | [], n => if n = 0 then some [] else none
  | c :: text, n =>
    if n = 0 then some []
    else if c.utf8Size ≤ n then (takeBytes text (n - c.utf8Size)).map (c :: ·) else none

/-- `&text[0..n]`; `none` where it panics. -/
def sliceTo (text : String) (n : ℕ) : Option String :=
  (takeBytes text.toList n).map .ofList

/-- The first `n` bytes of a text are characters. -/
def Boundary (text : String) (n : ℕ) : Prop :=
  ∃ front rest, text = front ++ rest ∧ front.utf8ByteSize = n

theorem utf8ByteSize_cons (c : Char) (text : List Char) :
    (String.ofList (c :: text)).utf8ByteSize = c.utf8Size + (String.ofList text).utf8ByteSize := by
  rw [← List.singleton_append, String.ofList_append, String.utf8ByteSize_append,
    ← String.singleton_eq_ofList, String.utf8ByteSize_singleton]

theorem takeBytes_zero (text : List Char) : takeBytes text 0 = some [] := by
  cases text <;> rfl

/-- Characters in front are taken by their size: the induction follows them. -/
theorem takeBytes_append (front rest : List Char) :
    takeBytes (front ++ rest) (String.ofList front).utf8ByteSize = some front := by
  induction front with
  | nil => exact takeBytes_zero rest
  | cons c front ih =>
    have hpos := c.utf8Size_pos
    rw [List.cons_append, utf8ByteSize_cons, takeBytes, if_neg (by omega), if_pos (by omega),
      Nat.add_sub_cancel_left, ih, Option.map_some]

/-- The induction follows the text; the first character is taken if it fits. -/
theorem eq_append_of_takeBytes {text front : List Char} {n : ℕ}
    (h : takeBytes text n = some front) :
    ∃ rest, text = front ++ rest ∧ (String.ofList front).utf8ByteSize = n := by
  induction text generalizing front n with
  | nil =>
    rw [takeBytes] at h
    split at h
    · rename_i hn
      obtain rfl := Option.some.inj h
      exact ⟨[], rfl, hn.symm⟩
    · cases h
  | cons c text ih =>
    rw [takeBytes] at h
    split at h
    · rename_i hn
      obtain rfl := Option.some.inj h
      exact ⟨c :: text, rfl, hn.symm⟩
    split at h
    · obtain ⟨front, hfront, rfl⟩ := Option.map_eq_some_iff.mp h
      obtain ⟨rest, rfl, hsize⟩ := ih hfront
      refine ⟨rest, rfl, ?_⟩
      rw [utf8ByteSize_cons]
      omega
    · cases h

theorem takeBytes_eq_some_iff {text front : List Char} {n : ℕ} :
    takeBytes text n = some front ↔
      ∃ rest, text = front ++ rest ∧ (String.ofList front).utf8ByteSize = n := by
  constructor
  · exact eq_append_of_takeBytes
  · rintro ⟨rest, rfl, rfl⟩
    exact takeBytes_append front rest

theorem sliceTo_eq_some_iff {text front : String} {n : ℕ} :
    sliceTo text n = some front ↔ ∃ rest, text = front ++ rest ∧ front.utf8ByteSize = n := by
  rw [sliceTo, Option.map_eq_some_iff]
  constructor
  · rintro ⟨chars, hchars, rfl⟩
    obtain ⟨rest, htext, hsize⟩ := takeBytes_eq_some_iff.mp hchars
    refine ⟨.ofList rest, ?_, hsize⟩
    rw [← String.ofList_append, ← htext, String.ofList_toList]
  · rintro ⟨rest, rfl, hsize⟩
    refine ⟨front.toList, takeBytes_eq_some_iff.mpr ⟨rest.toList, ?_, ?_⟩, String.ofList_toList⟩
    · rw [String.toList_append]
    · rw [String.ofList_toList, hsize]

theorem isPrefix_of_sliceTo {text front : String} {n : ℕ} (h : sliceTo text n = some front) :
    front.toList <+: text.toList := by
  obtain ⟨rest, rfl, -⟩ := sliceTo_eq_some_iff.mp h
  exact ⟨rest.toList, String.toList_append.symm⟩

theorem sliceTo_of_isPrefix {text front : String} {n : ℕ} (h : front.toList <+: text.toList)
    (hsize : front.utf8ByteSize = n) : sliceTo text n = some front := by
  obtain ⟨rest, hrest⟩ := h
  refine sliceTo_eq_some_iff.mpr ⟨.ofList rest, String.toList_inj.mp ?_, hsize⟩
  rw [String.toList_append, String.toList_ofList, hrest]

theorem sliceTo_eq_none_iff {text : String} {n : ℕ} : sliceTo text n = none ↔ ¬Boundary text n := by
  rw [Option.eq_none_iff_forall_ne_some]
  constructor
  · rintro h ⟨front, rest, htext, hsize⟩
    exact h front (sliceTo_eq_some_iff.mpr ⟨rest, htext, hsize⟩)
  · intro h front hfront
    exact h ⟨front, sliceTo_eq_some_iff.mp hfront⟩

/-- Decoders of texts, with the texts of their errors. -/
structure Decoders where
  base64 : String → Except String (List UInt8)
  base58 : String → Except String (List UInt8)

/-- The decoders take the standard encodings back to the data, and what they accept
has no characters but those of the encodings. -/
structure Decoders.Standard (D : Decoders) : Prop where
  base64_encode : ∀ data, D.base64 (Base64.encode data) = .ok data
  base58_encode : ∀ data, D.base58 (Base58.encode data) = .ok data
  base64_chars : ∀ {text data}, D.base64 text = .ok data →
    ∀ c ∈ text.toList, c ∈ Base64.alphabet.chars ∨ c = Base64.pad
  base58_chars : ∀ {text data}, D.base58 text = .ok data →
    ∀ c ∈ text.toList, c ∈ Base58.alphabet.chars

/-- A decoder whose error says nothing. -/
def decoded {α : Type} : Option α → Except String α
  | some a => .ok a
  | none => .error ""

theorem decoded_eq_ok {α : Type} {o : Option α} {a : α} : decoded o = .ok a ↔ o = some a := by
  cases o <;> simp [decoded]

/-- The decoders of the standard encodings. -/
def Decoders.plain : Decoders where
  base64 := fun text => decoded (Base64.decode text)
  base58 := fun text => decoded (Base58.decode text)

theorem Decoders.plain_standard : Decoders.plain.Standard where
  base64_encode := fun _ => decoded_eq_ok.mpr Base64.decode_encode
  base58_encode := fun _ => decoded_eq_ok.mpr Base58.decode_encode
  base64_chars := fun h => Base64.mem_of_decode (decoded_eq_ok.mp h)
  base58_chars := fun h => Base58.mem_of_decode (decoded_eq_ok.mp h)

/-- Bytes and the text that gives them. -/
inductive Spelling where
  | base64 (data : List UInt8)
  | base58 (data : List UInt8)
  | plain (text : String) (h64 : ¬"base64:".toList <+: text.toList)
      (h58 : ¬"base58:".toList <+: text.toList)

namespace Spelling

def text : Spelling → String
  | base64 data => "base64:" ++ Base64.encode data
  | base58 data => "base58:" ++ Base58.encode data
  | plain text _ _ => text

def bytes : Spelling → List UInt8
  | base64 data => data
  | base58 data => data
  | plain text _ _ => text.toUTF8.data.toList

/-- The text stands for its own bytes. -/
def IsPlain : Spelling → Prop
  | plain _ _ _ => True
  | _ => False

end Spelling

end TextCodecs
