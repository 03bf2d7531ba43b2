import Dragonmouth.Foundations.Checks
import Dragonmouth.Foundations.PrefixedText
import Dragonmouth.Proto.Geyser

/-!
# Access tokens in the configuration

`decode_x_token` looks for the name of an encoding in front of a token and then
decodes the token with the name. No alphabet has the colon of the name, so a token
in base 64 or base 58 is refused, and only texts that stand for their own bytes are
read. The slice that looks for the name panics on some of them.

## Main results

- `decodeXToken_eq_ok`: which texts are read, and as what
- `decodeXToken_iff`: which tokens are read as they are meant
-/

namespace Dragonmouth.Transports

open Checks TextCodecs

inductive DecodeXTokenError where
  | base64 (error : String)
  | base58 (error : String)
  deriving DecidableEq

/-- The text of the error is that of the decoder. -/
def DecodeXTokenError.display : DecodeXTokenError → String
  | base64 error => error
  | base58 error => error

/-- `decode_x_token`. -/
def decodeXToken (D : Decoders) (xToken : String) :
    Except (TextFault DecodeXTokenError) Bytes :=
  match sliceTo xToken 7 with
  | none => .error .slice
  | some front =>
    if front = "base64:" then (D.base64 xToken).mapError fun error => .error (.base64 error)
    else if front = "base58:" then (D.base58 xToken).mapError fun error => .error (.base58 error)
    else .ok (strBytes xToken)

/-- `decode_x_token(x_token).map_err(de::Error::custom)`. -/
def decodeXTokenCustom (D : Decoders) (xToken : String) : Except (TextFault String) Bytes :=
  (decodeXToken D xToken).mapError fun
    | .slice => .slice
    | .error error => .error error.display

/-- `deserialize_maybe_x_token`, from the text it reads. -/
def deserializeMaybeXToken (D : Decoders) : Option String → Except (TextFault String) (Option Bytes)
  | some xToken => (decodeXTokenCustom D xToken).map some
  | none => .ok none

/-- `deserialize_x_token_set`, from the texts it reads. -/
def deserializeXTokenSet (D : Decoders) (vec : List String) :
    Except (TextFault String) (Finset Bytes) :=
  (vec.mapM (decodeXTokenCustom D)).map List.toFinset

/-- A text without the name of an encoding, whose seventh byte ends a character. -/
structure Readable (text : String) : Prop where
  boundary : Boundary text 7
  not_base64 : ¬"base64:".toList <+: text.toList
  not_base58 : ¬"base58:".toList <+: text.toList

section

variable {D : Decoders} {text : String} {bytes : Bytes}

/-- No decoder accepts a text with a colon. -/
theorem base64_ne_ok (hD : D.Standard) (h : ':' ∈ text.toList) : D.base64 text ≠ .ok bytes := by
  intro hok
  obtain hmem | hpad := hD.base64_chars hok ':' h
  · revert hmem
    decide
  · revert hpad
    decide

theorem base58_ne_ok (hD : D.Standard) (h : ':' ∈ text.toList) : D.base58 text ≠ .ok bytes := by
  intro hok
  have hmem := hD.base58_chars hok ':' h
  revert hmem
  decide

/-- Only a readable text is read, as its own bytes. -/
theorem decodeXToken_eq_ok (hD : D.Standard) :
    decodeXToken D text = .ok bytes ↔ Readable text ∧ strBytes text = bytes := by
  rw [decodeXToken]
  cases hslice : sliceTo text 7 with
  | none =>
    have hnot := sliceTo_eq_none_iff.mp hslice
    exact iff_of_false (fun h => by cases h) fun h => hnot h.1.boundary
  | some front =>
    have hfront := isPrefix_of_sliceTo hslice
    -- another name in front would be the slice
    have hother : ∀ name : String, name.utf8ByteSize = 7 → front ≠ name →
        ¬name.toList <+: text.toList := by
      intro name hsize hne hname
      exact hne (Option.some.inj (hslice.symm.trans (sliceTo_of_isPrefix hname hsize)))
    dsimp only
    by_cases h64 : front = "base64:"
    · subst h64
      refine iff_of_false (fun h => ?_) fun h => h.1.not_base64 hfront
      exact base64_ne_ok hD (hfront.subset (by decide)) (mapError_eq_ok.mp h)
    by_cases h58 : front = "base58:"
    · subst h58
      refine iff_of_false (fun h => ?_) fun h => h.1.not_base58 hfront
      exact base58_ne_ok hD (hfront.subset (by decide)) (mapError_eq_ok.mp h)
    have hreadable : Readable text :=
      ⟨⟨front, sliceTo_eq_some_iff.mp hslice⟩, hother _ (by decide) h64, hother _ (by decide) h58⟩
    rw [if_neg h64, if_neg h58, and_iff_right hreadable, Except.ok.injEq]

/-- A set of tokens is read if and only if each text is, and has the bytes of the texts. -/
theorem deserializeXTokenSet_eq_ok (hD : D.Standard) {vec : List String} {tokens : Finset Bytes} :
    deserializeXTokenSet D vec = .ok tokens ↔
      (∀ text ∈ vec, Readable text) ∧ (vec.map strBytes).toFinset = tokens := by
  have hcustom : ∀ text bytes, decodeXTokenCustom D text = .ok bytes ↔
      Readable text ∧ strBytes text = bytes := by
    intro text bytes
    rw [decodeXTokenCustom, mapError_eq_ok, decodeXToken_eq_ok hD]
  have hmap : ∀ read, List.Forall₂ (fun text bytes => strBytes text = bytes) vec read ↔
      vec.map strBytes = read := by
    intro read
    have heq : List.Forall₂ (· = ·) (vec.map strBytes) read ↔ vec.map strBytes = read := by
      rw [List.forall₂_eq_eq_eq]
    rw [← heq, List.forall₂_map_left_iff]
  rw [deserializeXTokenSet, map_eq_ok]
  simp only [mapM_eq_ok, hcustom, List.forall₂_and_left, hmap]
  constructor
  · rintro ⟨read, ⟨hreadable, rfl⟩, rfl⟩
    exact ⟨hreadable, rfl⟩
  · rintro ⟨hreadable, rfl⟩
    exact ⟨_, ⟨hreadable, rfl⟩, rfl⟩

end

/-- A token is read as the bytes it is meant to give if and only if it stands for its own
bytes and its seventh byte ends a character. -/
theorem decodeXToken_iff {D : Decoders} (hD : D.Standard) (token : Spelling) :
    decodeXToken D token.text = .ok token.bytes ↔ token.IsPlain ∧ Boundary token.text 7 := by
  rw [decodeXToken_eq_ok hD]
  cases token with
  | base64 data =>
    refine iff_of_false (fun h => h.1.not_base64 ?_) fun h => h.1
    rw [Spelling.text, String.toList_append]
    exact List.prefix_append _ _
  | base58 data =>
    refine iff_of_false (fun h => h.1.not_base58 ?_) fun h => h.1
    rw [Spelling.text, String.toList_append]
    exact List.prefix_append _ _
  | plain text h64 h58 =>
    exact ⟨fun h => ⟨trivial, h.1.boundary⟩, fun h => ⟨⟨h.2, h64, h58⟩, rfl⟩⟩

/-- The decoder is given the name as well, and a short token has no seven bytes. -/
theorem decodeXToken_misreads :
    decodeXToken .plain (Spelling.base64 [104, 105]).text ≠ .ok [104, 105] ∧
      decodeXToken .plain (Spelling.base58 [104, 105]).text ≠ .ok [104, 105] ∧
      decodeXToken .plain "token" = .error .slice := by
  decide +kernel

theorem decodeXToken_iff_secret :
    decodeXToken .plain "secret token" = .ok (strBytes "secret token") := by
  refine (decodeXToken_iff Decoders.plain_standard
    (.plain "secret token" (by decide) (by decide))).mpr ⟨trivial, ?_⟩
  exact ⟨"secret ", "token", rfl, rfl⟩

end Dragonmouth.Transports
