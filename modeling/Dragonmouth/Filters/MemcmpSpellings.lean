import Dragonmouth.Filters.Request
import Dragonmouth.Foundations.TextCodecs

/-!
# Spellings of the data of a condition

A request gives the bytes of a `Memcmp` condition as they are, in base 58 or in
base 64. The text is measured before it is decoded, the bytes afterwards. Both
bounds on texts let the encodings of all admissible data pass, so the three
spellings of the same bytes are converted alike.

## Main results

- `memcmp_spellings_agree`: what the three spellings are converted to
-/

namespace Dragonmouth.Filters

open Checks TextCodecs

/-- The decoders take the standard encodings back to the data. -/
structure Strings.Decodes (S : Strings) : Prop where
  base58 : ∀ data, S.base58Decode (Base58.encode data) = some data
  base64 : ∀ data, S.base64Decode (Base64.encode data) = some data

/-- A request for accounts with certain bytes at an offset. -/
def memcmpRequest (offset : ℕ) (data : AccountsFilterMemcmpOneof) :
    SubscribeRequestFilterAccountsFilter where
  filter := some (.memcmp { offset := offset, data := some data })

/-- What a request for `data` is converted to, however the data is spelled. -/
def memcmpResult (offset : ℕ) (data : Bytes) :
    Except ConfigFilterError ConfigFilterAccountsFilter :=
  if data.length ≤ maxDataSize then .ok (.memcmp offset data)
  else .error (.limits .filterDataOverflow)

section

variable {S : Strings} {offset : ℕ} {data : Bytes} {value : AccountsFilterMemcmpOneof}

/-- A spelling that is decoded is measured by its bytes. -/
theorem tryFrom_of_memcmpData_ok (h : memcmpData S value = .ok data) :
    ConfigFilterAccountsFilter.tryFrom S (memcmpRequest offset value) =
      memcmpResult offset data := by
  rw [ConfigFilterAccountsFilter.tryFrom, memcmpResult]
  simp only [memcmpRequest, defined, Except.bind, bind, h]
  by_cases hle : data.length ≤ maxDataSize
  · rw [if_pos hle, check, if_pos (Nat.not_lt.mpr hle)]
  · rw [if_neg hle, check, if_neg fun hnot => hle (Nat.not_lt.mp hnot)]

/-- A spelling may be refused before it is decoded if the data is too long. -/
theorem tryFrom_of_memcmpData_error
    (h : memcmpData S value = .error (.limits .filterDataOverflow))
    (hlong : maxDataSize < data.length) :
    ConfigFilterAccountsFilter.tryFrom S (memcmpRequest offset value) =
      memcmpResult offset data := by
  rw [ConfigFilterAccountsFilter.tryFrom, memcmpResult, if_neg (Nat.not_le.mpr hlong)]
  simp only [memcmpRequest, defined, Except.bind, bind, h]

/-- The bound on base 58 texts lets the encodings of all admissible data pass. -/
theorem base58_size_le (h : data.length ≤ maxDataSize) :
    (Base58.encode data).utf8ByteSize ≤ maxDataBase58Size := by
  have hle := Base58.utf8ByteSize_encode_le h
  have hmax : maxDataSize + 47 = maxDataBase58Size := rfl
  omega

/-- So does the bound on base 64 texts. -/
theorem base64_size_le (h : data.length ≤ maxDataSize) :
    (Base64.encode data).utf8ByteSize ≤ maxDataBase64Size := by
  have hmax : 4 * ((maxDataSize + 2) / 3) = maxDataBase64Size := rfl
  rw [Base64.utf8ByteSize_encode, ← hmax]
  exact Nat.mul_le_mul_left 4 (Nat.div_le_div_right (Nat.add_le_add_right h 2))

theorem tryFrom_base58 (hS : S.Decodes) :
    ConfigFilterAccountsFilter.tryFrom S (memcmpRequest offset (.base58 (Base58.encode data))) =
      memcmpResult offset data := by
  by_cases hsize : (Base58.encode data).utf8ByteSize ≤ maxDataBase58Size
  · apply tryFrom_of_memcmpData_ok
    rw [memcmpData, check, if_pos (Nat.not_lt.mpr hsize), hS.base58]
    rfl
  · apply tryFrom_of_memcmpData_error
    · rw [memcmpData, check, if_neg fun hnot => hsize (Nat.not_lt.mp hnot)]
      rfl
    · exact Nat.lt_of_not_le fun hle => hsize (base58_size_le hle)

theorem tryFrom_base64 (hS : S.Decodes) :
    ConfigFilterAccountsFilter.tryFrom S (memcmpRequest offset (.base64 (Base64.encode data))) =
      memcmpResult offset data := by
  by_cases hsize : (Base64.encode data).utf8ByteSize ≤ maxDataBase64Size
  · apply tryFrom_of_memcmpData_ok
    rw [memcmpData, check, if_pos (Nat.not_lt.mpr hsize), hS.base64]
    rfl
  · apply tryFrom_of_memcmpData_error
    · rw [memcmpData, check, if_neg fun hnot => hsize (Nat.not_lt.mp hnot)]
      rfl
    · exact Nat.lt_of_not_le fun hle => hsize (base64_size_le hle)

end

/-- The same bytes, as they are, in base 58 and in base 64, are converted to the same
condition, or refused as too long; the bounds on texts refuse no admissible data. -/
theorem memcmp_spellings_agree {S : Strings} (hS : S.Decodes) (offset : ℕ) (data : Bytes) :
    ConfigFilterAccountsFilter.tryFrom S (memcmpRequest offset (.bytes data)) =
        memcmpResult offset data ∧
      ConfigFilterAccountsFilter.tryFrom S
          (memcmpRequest offset (.base58 (Base58.encode data))) = memcmpResult offset data ∧
      ConfigFilterAccountsFilter.tryFrom S
          (memcmpRequest offset (.base64 (Base64.encode data))) = memcmpResult offset data ∧
      (data.length ≤ maxDataSize →
        (Base58.encode data).utf8ByteSize ≤ maxDataBase58Size ∧
          (Base64.encode data).utf8ByteSize ≤ maxDataBase64Size) := by
  refine ⟨tryFrom_of_memcmpData_ok rfl, tryFrom_base58 hS, tryFrom_base64 hS, ?_⟩
  intro hle
  exact ⟨base58_size_le hle, base64_size_le hle⟩

/-- The string forms with the standard decoders. -/
def standardDecoders : Strings :=
  { bytewise with
    base58Decode := Base58.decode
    base64Decode := Base64.decode }

theorem standardDecoders_decodes : standardDecoders.Decodes :=
  ⟨fun _ => Base58.decode_encode, fun _ => Base64.decode_encode⟩

theorem memcmp_spellings_agree_zeros :
    ConfigFilterAccountsFilter.tryFrom standardDecoders (memcmpRequest 8 (.bytes [0, 0, 7])) =
        memcmpResult 8 [0, 0, 7] ∧
      ConfigFilterAccountsFilter.tryFrom standardDecoders
          (memcmpRequest 8 (.base58 (Base58.encode [0, 0, 7]))) = memcmpResult 8 [0, 0, 7] ∧
      ConfigFilterAccountsFilter.tryFrom standardDecoders
          (memcmpRequest 8 (.base64 (Base64.encode [0, 0, 7]))) = memcmpResult 8 [0, 0, 7] := by
  obtain ⟨hbytes, hbase58, hbase64, -⟩ :=
    memcmp_spellings_agree standardDecoders_decodes 8 [0, 0, 7]
  exact ⟨hbytes, hbase58, hbase64⟩

end Dragonmouth.Filters
