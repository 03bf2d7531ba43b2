import Dragonmouth.Filters.Config
import Dragonmouth.Foundations.PrefixedText

/-!
# Texts of conditions in the configuration

The data of a `Memcmp` condition in a configuration is a text or a list of bytes. The
text is meant to name its encoding, but the seven bytes that are sliced off are compared
with names of six: no text is decoded, and the slice panics on some.

## Main results

- `memcmpData_str_eq_ok`: every text that can be sliced stands for its own bytes
- `deserialize_memcmp_iff`: which texts give the data they are meant to give
-/

namespace Dragonmouth.Filters

open TextCodecs

inductive ConfigMemcmpData where
  | str (data : String)
  | bytes (data : Bytes)
  deriving DecidableEq

/-- The data of a `Memcmp` condition. -/
def ConfigMemcmpData.toBytes (D : Decoders) : ConfigMemcmpData → Except (TextFault String) Bytes
  | str data =>
    match sliceTo data 7 with
    | none => .error .slice
    | some front =>
      if front = "base64" then (D.base64 data).mapError .error
      else if front = "base58" then (D.base58 data).mapError .error
      else .ok (strBytes data)
  | bytes data => .ok data

namespace ConfigFilterAccountsFilter

/-- What is read before texts are turned into bytes. -/
inductive Config where
  | memcmp (offset : ℕ) (data : ConfigMemcmpData)
  | dataSize (size : ℕ)
  | tokenAccountState
  | lamports (value : ConfigFilterAccountsFilterLamports)
  deriving DecidableEq

/-- `Deserialize for ConfigFilterAccountsFilter`, from what `Config::deserialize` returns. -/
def deserialize (D : Decoders) (config : Except String Config) :
    Except (TextFault String) ConfigFilterAccountsFilter := do
  match ← config.mapError .error with
  | .memcmp offset data =>
    let data ← data.toBytes D
    .ok (.memcmp offset data)
  | .dataSize size => .ok (.dataSize size)
  | .tokenAccountState => .ok .tokenAccountState
  | .lamports value => .ok (.lamports value)

end ConfigFilterAccountsFilter

section

variable {D : Decoders} {text : String} {data bytes : Bytes}

theorem length_strBytes : (strBytes text).length = text.utf8ByteSize := by
  rw [strBytes, Array.length_toList, ← String.size_toByteArray]
  rfl

/-- The decoders are never asked. -/
theorem memcmpData_str (D : Decoders) (text : String) :
    (ConfigMemcmpData.str text).toBytes D =
      (sliceTo text 7).elim (.error .slice) fun _ => .ok (strBytes text) := by
  rw [ConfigMemcmpData.toBytes]
  cases hslice : sliceTo text 7 with
  | none => rfl
  | some front =>
    obtain ⟨rest, -, hsize⟩ := sliceTo_eq_some_iff.mp hslice
    -- the slice has seven bytes and the names have six
    have hother : ∀ name : String, name.utf8ByteSize = 6 → front ≠ name := by
      rintro name hname rfl
      omega
    dsimp only
    rw [if_neg (hother _ (by decide)), if_neg (hother _ (by decide))]
    rfl

/-- Every text that can be sliced stands for its own bytes. -/
theorem memcmpData_str_eq_ok :
    (ConfigMemcmpData.str text).toBytes D = .ok bytes ↔
      Boundary text 7 ∧ strBytes text = bytes := by
  rw [memcmpData_str]
  cases hslice : sliceTo text 7 with
  | none =>
    exact iff_of_false (fun h => by cases h) fun h => sliceTo_eq_none_iff.mp hslice h.1
  | some front =>
    have hboundary : Boundary text 7 := ⟨front, sliceTo_eq_some_iff.mp hslice⟩
    rw [and_iff_right hboundary, Option.elim_some, Except.ok.injEq]

theorem deserialize_memcmp_eq_ok {offset : ℕ} {value : ConfigMemcmpData} :
    ConfigFilterAccountsFilter.deserialize D (.ok (.memcmp offset value)) =
        .ok (.memcmp offset bytes) ↔ value.toBytes D = .ok bytes := by
  change (value.toBytes D).bind
      (fun data => .ok (ConfigFilterAccountsFilter.memcmp offset data)) = _ ↔ _
  cases value.toBytes D with
  | error fault => exact iff_of_false (fun h => by cases h) fun h => by cases h
  | ok data => simp [Except.bind]

/-- A text that names an encoding is longer than the data it encodes. -/
theorem strBytes_text_ne (spelling : Spelling) (h : ¬spelling.IsPlain) :
    strBytes spelling.text ≠ spelling.bytes := by
  intro heq
  have hlen := congrArg List.length heq
  rw [length_strBytes] at hlen
  cases spelling with
  | base64 data =>
    rw [Spelling.text, String.utf8ByteSize_append, Base64.utf8ByteSize_encode] at hlen
    have hname : "base64:".utf8ByteSize = 7 := rfl
    simp only [Spelling.bytes] at hlen
    omega
  | base58 data =>
    have hle : data.length ≤ (Base58.encode data).utf8ByteSize :=
      Base58.length_le_utf8ByteSize_encode
    rw [Spelling.text, String.utf8ByteSize_append] at hlen
    have hname : "base58:".utf8ByteSize = 7 := rfl
    simp only [Spelling.bytes] at hlen
    omega
  | plain text h64 h58 => exact h trivial

end

/-- A text gives the data it is meant to give if and only if it stands for its own bytes
and its seventh byte ends a character. -/
theorem deserialize_memcmp_iff (D : Decoders) (offset : ℕ) (spelling : Spelling) :
    ConfigFilterAccountsFilter.deserialize D (.ok (.memcmp offset (.str spelling.text))) =
        .ok (.memcmp offset spelling.bytes) ↔
      spelling.IsPlain ∧ Boundary spelling.text 7 := by
  rw [deserialize_memcmp_eq_ok, memcmpData_str_eq_ok, and_comm]
  refine and_congr_left fun _ => ⟨fun heq => ?_, fun hplain => ?_⟩
  · by_contra hnot
    exact strBytes_text_ne spelling hnot heq
  · cases spelling with
    | base64 data => exact hplain.elim
    | base58 data => exact hplain.elim
    | plain text h64 h58 => rfl

/-- The data of both texts is `[104, 105]`; the third has five bytes. -/
theorem deserialize_memcmp_misreads :
    ConfigFilterAccountsFilter.deserialize .plain
          (.ok (.memcmp 8 (.str (Spelling.base64 [104, 105]).text))) ≠
        .ok (.memcmp 8 [104, 105]) ∧
      ConfigFilterAccountsFilter.deserialize .plain
          (.ok (.memcmp 8 (.str (Spelling.base58 [104, 105]).text))) ≠
        .ok (.memcmp 8 [104, 105]) ∧
      ConfigFilterAccountsFilter.deserialize .plain (.ok (.memcmp 8 (.str "magic"))) =
        .error .slice := by
  decide +kernel

end Dragonmouth.Filters
