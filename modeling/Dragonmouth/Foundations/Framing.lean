import Mathlib.Algebra.Group.Nat.Defs
import Mathlib.Data.List.Basic

/-!
# Framed streams

A stream arrives in pieces that have nothing to do with what was written at once. A
reader asks for a number of items and waits for as many pieces as it takes. Frames
that a reader takes one by one are read back from what was written in one go, however
it is cut.

## Main definitions

- `readExact`: read a number of items
- `Repeated`: a reader called until it fails
- `Takes`: a reader takes a frame and nothing else
- `whole`: the frames that are complete when a stream is cut off
- `bigEndian`, `ofBigEndian`: numbers of a fixed width
-/

namespace Framing

variable {α β ε σ : Type}

/-- What arrives until the end of a stream and has not been read, cut anywhere. -/
abbrev Pieces (α : Type) := List (List α)

/-- Read as many items as are asked for; without a result the stream has ended
before. -/
def readExact : ℕ → Pieces α → Option (List α × Pieces α)
  | 0, pieces => some ([], pieces)
  | _ + 1, [] => none
  | n + 1, piece :: pieces =>
    if n + 1 ≤ piece.length then some (piece.take (n + 1), piece.drop (n + 1) :: pieces)
    else do
      let (items, rest) ← readExact (n + 1 - piece.length) pieces
      some (piece ++ items, rest)

section

variable {n : ℕ} {pieces : Pieces α} {front back : List α}

/-- Where the stream is cut makes no difference to what is read. -/
theorem readExact_flatten (h : n ≤ pieces.flatten.length) :
    ∃ rest, readExact n pieces = some (pieces.flatten.take n, rest) ∧
      rest.flatten = pieces.flatten.drop n := by
  induction pieces generalizing n with
  | nil =>
    have hn : n = 0 := Nat.le_zero.mp h
    subst hn
    exact ⟨[], rfl, rfl⟩
  | cons piece pieces ih =>
    cases n with
    | zero => exact ⟨piece :: pieces, rfl, rfl⟩
    | succ n =>
      rw [List.flatten_cons, List.length_append] at h
      rw [readExact, List.flatten_cons]
      by_cases hlen : n + 1 ≤ piece.length
      · rw [if_pos hlen, List.take_append_of_le_length hlen, List.drop_append_of_le_length hlen]
        exact ⟨_, rfl, rfl⟩
      · obtain ⟨rest, hread, hrest⟩ := ih (n := n + 1 - piece.length) (by omega)
        have hshort : piece.length ≤ n + 1 := Nat.le_of_not_le hlen
        have htake : piece.take (n + 1) = piece := List.take_of_length_le hshort
        have hdrop : piece.drop (n + 1) = [] := List.drop_eq_nil_of_le hshort
        refine ⟨rest, ?_, ?_⟩
        · rw [if_neg hlen, hread, List.take_append, htake]
          rfl
        · rw [hrest, List.drop_append, hdrop, List.nil_append]

/-- The beginning of a stream is read as it was written. -/
theorem readExact_append (h : pieces.flatten = front ++ back) :
    ∃ rest, readExact front.length pieces = some (front, rest) ∧ rest.flatten = back := by
  have hle : front.length ≤ pieces.flatten.length := by
    rw [h, List.length_append]
    exact Nat.le_add_right _ _
  obtain ⟨rest, hread, hrest⟩ := readExact_flatten hle
  rw [h, List.take_left' rfl] at hread
  rw [h, List.drop_left' rfl] at hrest
  exact ⟨rest, hread, hrest⟩

/-- Nothing is read from a stream that has ended. -/
theorem readExact_nil (h : pieces.flatten = []) : readExact (n + 1) pieces = none := by
  induction pieces generalizing n with
  | nil => rfl
  | cons piece pieces ih =>
    rw [List.flatten_cons, List.append_eq_nil_iff] at h
    obtain ⟨rfl, hrest⟩ := h
    rw [readExact, List.length_nil, if_neg (Nat.not_succ_le_zero n), Nat.sub_zero, ih hrest]
    rfl

end

/-- `recv` is called on what the call before has left, until it fails. -/
inductive Repeated (recv : σ → Except ε (σ × β)) : σ → List β → ε → Prop where
  | stop {s : σ} {error : ε} (h : recv s = .error error) : Repeated recv s [] error
  | next {s s' : σ} {item : β} {items : List β} {error : ε} (h : recv s = .ok (s', item))
      (rest : Repeated recv s' items error) : Repeated recv s (item :: items) error

/-- There is only one way to go on. -/
theorem Repeated.unique {recv : σ → Except ε (σ × β)} {s : σ} {items items' : List β}
    {error error' : ε} (h : Repeated recv s items error) (h' : Repeated recv s items' error') :
    items = items' ∧ error = error' := by
  induction h generalizing items' with
  | stop hstop =>
    cases h' with
    | stop hstop' =>
      rw [hstop] at hstop'
      exact ⟨rfl, Except.error.inj hstop'⟩
    | next hnext _ =>
      rw [hstop] at hnext
      cases hnext
  | next hnext _ ih =>
    cases h' with
    | stop hstop =>
      rw [hnext] at hstop
      cases hstop
    | next hnext' hrest =>
      rw [hnext] at hnext'
      cases hnext'
      obtain ⟨rfl, rfl⟩ := ih hrest
      exact ⟨rfl, rfl⟩

/-- From a stream that begins with `front`, `recv` takes just that and returns `item`. -/
def Takes (recv : Pieces α → Except ε (Pieces α × β)) (front : List α) (item : β) : Prop :=
  ∀ pieces back, pieces.flatten = front ++ back →
    ∃ rest, recv pieces = .ok (rest, item) ∧ rest.flatten = back

/-- Frames that are taken one by one are read back in order, up to where `recv` fails. -/
theorem repeated_of_takes {recv : Pieces α → Except ε (Pieces α × β)} {bytes : β → List α}
    {items : List β} {back : List α} {error : ε}
    (htakes : ∀ item ∈ items, Takes recv (bytes item) item)
    (hback : ∀ pieces : Pieces α, pieces.flatten = back → recv pieces = .error error)
    {pieces : Pieces α} (h : pieces.flatten = items.flatMap bytes ++ back) :
    Repeated recv pieces items error := by
  induction items generalizing pieces with
  | nil => exact .stop (hback pieces h)
  | cons item items ih =>
    rw [List.forall_mem_cons] at htakes
    rw [List.flatMap_cons, List.append_assoc] at h
    obtain ⟨rest, hrecv, hrest⟩ := htakes.1 pieces _ h
    exact .next hrecv (ih htakes.2 hrest)

/-- Where the stream ends within `front`, `recv` fails with one of the errors. -/
def Breaks (recv : Pieces α → Except ε (Pieces α × β)) (front : List α) (errors : ε → Prop) :
    Prop :=
  ∀ (pieces : Pieces α) (n : ℕ), n < front.length → pieces.flatten = front.take n →
    ∃ error, recv pieces = .error error ∧ errors error

/-- Of a stream that may end anywhere, what is read is the next item. -/
theorem next_of_prefix {recv : Pieces α → Except ε (Pieces α × β)} {bytes : β → List α}
    {items : List β} {back : List α} {errors : ε → Prop}
    (htakes : ∀ item ∈ items, Takes recv (bytes item) item)
    (hbreaks : ∀ item ∈ items, Breaks recv (bytes item) errors)
    (hback : ∀ pieces : Pieces α, pieces.flatten <+: back → ∃ error, recv pieces = .error error)
    {pieces rest : Pieces α} {item : β} (h : pieces.flatten <+: items.flatMap bytes ++ back)
    (hrecv : recv pieces = .ok (rest, item)) :
    ∃ items', items = item :: items' ∧ pieces.flatten = bytes item ++ rest.flatten := by
  cases items with
  | nil =>
    obtain ⟨error, herror⟩ := hback pieces h
    rw [hrecv] at herror
    cases herror
  | cons first items =>
    rw [List.flatMap_cons, List.append_assoc] at h
    by_cases hle : (bytes first).length ≤ pieces.flatten.length
    · obtain ⟨back', hback'⟩ :=
        List.prefix_of_prefix_length_le (List.prefix_append (bytes first) _) h hle
      obtain ⟨rest', hrecv', hrest'⟩ := htakes first List.mem_cons_self pieces back' hback'.symm
      rw [hrecv] at hrecv'
      cases hrecv'
      exact ⟨items, rfl, by rw [hrest', hback']⟩
    · have hlt : pieces.flatten.length < (bytes first).length := Nat.lt_of_not_le hle
      have htake : pieces.flatten = (bytes first).take pieces.flatten.length := by
        have hcut := List.prefix_iff_eq_take.mp h
        rwa [List.take_append_of_le_length (Nat.le_of_lt hlt)] at hcut
      obtain ⟨error, herror, -⟩ :=
        hbreaks first List.mem_cons_self pieces pieces.flatten.length hlt htake
      rw [hrecv] at herror
      cases herror

/-- A stream that is too short for what is asked for. -/
theorem readExact_short {n : ℕ} {pieces : Pieces α} (h : pieces.flatten.length < n) :
    readExact n pieces = none := by
  induction pieces generalizing n with
  | nil =>
    cases n with
    | zero => exact absurd h (Nat.not_lt_zero _)
    | succ n => rfl
  | cons piece pieces ih =>
    cases n with
    | zero => exact absurd h (Nat.not_lt_zero _)
    | succ n =>
      rw [List.flatten_cons, List.length_append] at h
      rw [readExact, if_neg (by omega), ih (by omega)]
      rfl

/-- The last bytes of a number, the most significant first. -/
def bigEndian (width value : ℕ) : List UInt8 :=
  (List.range width).map fun i => UInt8.ofNat (value / 256 ^ (width - 1 - i))

def ofBigEndian (bytes : List UInt8) : ℕ :=
  bytes.foldl (fun value byte => value * 256 + byte.toNat) 0

theorem length_bigEndian (width value : ℕ) : (bigEndian width value).length = width := by
  rw [bigEndian, List.length_map, List.length_range]

theorem bigEndian_succ (width value : ℕ) :
    bigEndian (width + 1) value = bigEndian width (value / 256) ++ [UInt8.ofNat value] := by
  rw [bigEndian, List.range_succ, List.map_append, List.map_singleton, bigEndian]
  congr 1
  · apply List.map_congr_left
    intro i hi
    have hexp : width + 1 - 1 - i = width - 1 - i + 1 := by
      have hlt := List.mem_range.mp hi
      omega
    rw [hexp, Nat.pow_succ', Nat.div_div_eq_div_mul]
  · rw [Nat.add_sub_cancel, Nat.sub_self, Nat.pow_zero, Nat.div_one]

/-- A number that fits is read back. -/
theorem ofBigEndian_bigEndian {width value : ℕ} (h : value < 256 ^ width) :
    ofBigEndian (bigEndian width value) = value := by
  induction width generalizing value with
  | zero =>
    rw [Nat.pow_zero] at h
    exact (Nat.lt_one_iff.mp h).symm
  | succ width ih =>
    have hdiv : value / 256 < 256 ^ width := by
      rw [Nat.pow_succ'] at h
      exact Nat.div_lt_of_lt_mul h
    have hfront := ih hdiv
    rw [ofBigEndian] at hfront
    rw [bigEndian_succ, ofBigEndian, List.foldl_append, hfront, List.foldl_cons, List.foldl_nil,
      UInt8.toNat_ofNat']
    exact Nat.div_add_mod' value 256

end Framing
