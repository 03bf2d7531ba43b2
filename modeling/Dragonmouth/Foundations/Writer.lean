import Mathlib.Algebra.BigOperators.Group.List.Basic

/-!
# Writers and the lengths they announce

A length-prefixed format writes every nested message twice: first its length is
computed, then its contents are written. `Encode` and `Measure` are the two
traversals; both may use and change a scratch buffer of type `σ`. A message pairs
them.

## Main definitions

- `Agree`: a writer and a measure that agree, whatever the buffer
- `Msg.Fixed`: a message whose contents and length are those of a byte string
- `Msg.Denotes`: the same when the contents are written right after the length
- `delimited`: a byte string after its key and its length
-/

namespace Writer

/-- Emit a byte string, with access to a scratch buffer. -/
abbrev Encode (σ β : Type) := σ → List β × σ

/-- Compute a length, with access to a scratch buffer. -/
abbrev Measure (σ : Type) := σ → ℕ × σ

/-- A message: its contents and its length, as two traversals. -/
structure Msg (σ β : Type) where
  encodeRaw : Encode σ β
  encodedLen : Measure σ

variable {σ β ι κ : Type} {w : Encode σ β} {l : Measure σ} {bs bs' : List β}

/-- Emit bytes that do not depend on the buffer. -/
def emit (bs : List β) : Encode σ β := fun s => (bs, s)

/-- A length that does not depend on the buffer. -/
def size (n : ℕ) : Measure σ := fun s => (n, s)

def emitWhen (c : Prop) [Decidable c] (w : Encode σ β) : Encode σ β := if c then w else emit []

def sizeWhen (c : Prop) [Decidable c] (l : Measure σ) : Measure σ := if c then l else size 0

def emitSome (o : Option ι) (w : ι → Encode σ β) : Encode σ β := o.elim (emit []) w

def sizeSome (o : Option ι) (l : ι → Measure σ) : Measure σ := o.elim (size 0) l

/-- Emit one after the other. -/
def seq : List (Encode σ β) → Encode σ β
  | [], s => ([], s)
  | w :: ws, s =>
    let (bytes, s) := w s
    let (rest, s) := seq ws s
    (bytes ++ rest, s)

/-- Sum up from left to right. -/
def total : List (Measure σ) → Measure σ
  | [], s => (0, s)
  | l :: ls, s =>
    let (n, s) := l s
    let (rest, s) := total ls s
    (n + rest, s)

/-- Whatever the buffer, the writer emits `bs` and the measure is its length. -/
structure Agree (w : Encode σ β) (l : Measure σ) (bs : List β) : Prop where
  writes : ∀ s, (w s).1 = bs
  measures : ∀ s, (l s).1 = bs.length

theorem Agree.emit {n : ℕ} (h : bs.length = n) : Agree (emit bs : Encode σ β) (size n) bs :=
  ⟨fun _ => rfl, fun _ => h.symm⟩

theorem Agree.emitWhen {c : Prop} [Decidable c] (h : c → Agree w l bs) (hn : ¬c → bs = []) :
    Agree (emitWhen c w) (sizeWhen c l) bs := by
  by_cases hc : c
  · rw [Writer.emitWhen, sizeWhen, if_pos hc, if_pos hc]
    exact h hc
  · rw [Writer.emitWhen, sizeWhen, if_neg hc, if_neg hc, hn hc]
    exact .emit rfl

theorem Agree.emitSome {o : Option ι} {w : ι → Encode σ β} {l : ι → Measure σ}
    {f : ι → List β} (h : ∀ x, Agree (w x) (l x) (f x)) :
    Agree (emitSome o w) (sizeSome o l) (o.elim [] f) := by
  cases o with
  | none => exact .emit rfl
  | some x => exact h x

theorem Agree.nil : Agree (seq [] : Encode σ β) (total []) [] := ⟨fun _ => rfl, fun _ => rfl⟩

theorem Agree.cons {ws : List (Encode σ β)} {ls : List (Measure σ)} (h : Agree w l bs)
    (hs : Agree (seq ws) (total ls) bs') : Agree (seq (w :: ws)) (total (l :: ls)) (bs ++ bs') := by
  refine ⟨fun s => ?_, fun s => ?_⟩
  · simp [seq, h.writes, hs.writes]
  · simp [total, h.measures, hs.measures]

/-- One writer for each element of a list. -/
theorem Agree.flatMap {xs : List ι} {w : ι → Encode σ β} {l : ι → Measure σ} {f : ι → List β}
    (h : ∀ x, Agree (w x) (l x) (f x)) :
    Agree (seq (xs.map w)) (total (xs.map l)) (xs.flatMap f) := by
  induction xs with
  | nil => exact .nil
  | cons x xs ih => exact .cons (h x) ih

/-- A measure may be replaced by one that computes the same. -/
theorem Agree.of_measure {l' : Measure σ} (h : Agree w l bs) (hl : ∀ s, (l' s).1 = (l s).1) :
    Agree w l' bs :=
  ⟨h.writes, fun s => (hl s).trans (h.measures s)⟩

/-- One writer for each element of a list, all of one length. -/
theorem Agree.flatMap_const {xs : List ι} {w : ι → Encode σ β} {f : ι → List β} {n : ℕ}
    (h : ∀ x, Agree (w x) (size n) (f x)) :
    Agree (seq (xs.map w)) (size (n * xs.length)) (xs.flatMap f) := by
  have hall : Agree (seq (xs.map w)) (total (xs.map fun _ => size n)) (xs.flatMap f) := .flatMap h
  refine hall.of_measure fun s => ?_
  rw [hall.measures, List.length_flatMap]
  have hlen : ∀ x, (f x).length = n := fun x => ((h x).measures s).symm
  simp [size, hlen, Nat.mul_comm]

/-- Whatever the buffer, the message announces the length of `bs` and then, the
buffer being as the announcement has left it, emits `bs`. -/
structure Msg.Denotes (m : Msg σ β) (bs : List β) : Prop where
  measures : ∀ s, (m.encodedLen s).1 = bs.length
  writes : ∀ s, (m.encodeRaw (m.encodedLen s).2).1 = bs

/-- A message whose contents and length are those of `bs`, whatever the buffer before
either traversal. -/
abbrev Msg.Fixed (m : Msg σ β) (bs : List β) : Prop := Agree m.encodeRaw m.encodedLen bs

/-- What a message emits after it has announced its length. -/
def Msg.content (m : Msg σ β) (s : σ) : List β := (m.encodeRaw (m.encodedLen s).2).1

theorem Msg.Denotes.content {m : Msg σ β} (h : m.Denotes bs) (s : σ) : m.content s = bs :=
  h.writes s

theorem Msg.Fixed.denotes {m : Msg σ β} (h : m.Fixed bs) : m.Denotes bs :=
  ⟨h.measures, fun _ => h.writes _⟩

/-- A byte string after its key and its length. -/
def delimited (key : List β) (varint : ℕ → List β) (bs : List β) : List β :=
  key ++ varint bs.length ++ bs

/-- Emit a message after its key and the length it announces. -/
def encodeDelimited (key : List β) (varint : ℕ → List β) (m : Msg σ β) : Encode σ β := fun s =>
  let (n, s) := m.encodedLen s
  let (body, s) := m.encodeRaw s
  (key ++ varint n ++ body, s)

/-- The length of a message with its prefix, for a key of length `k`. -/
def measureDelimited (k : ℕ) (varintLen : ℕ → ℕ) (m : Msg σ β) : Measure σ := fun s =>
  let (n, s) := m.encodedLen s
  (k + varintLen n + n, s)

/-- The length of messages with their prefixes, the keys counted at once. -/
def measureRepeated (k : ℕ) (varintLen : ℕ → ℕ) (ms : List (Msg σ β)) : Measure σ := fun s =>
  let (n, s) := total (ms.map fun m => measureDelimited 0 varintLen m) s
  (k * ms.length + n, s)

variable {key : List β} {varint : ℕ → List β} {varintLen : ℕ → ℕ}

/-- A message that denotes a byte string is written with an exact prefix. -/
theorem Msg.Denotes.agree {m : Msg σ β} {k : ℕ} (h : m.Denotes bs) (hk : key.length = k)
    (hv : ∀ n, (varint n).length = varintLen n) :
    Agree (encodeDelimited key varint m) (measureDelimited k varintLen m)
      (delimited key varint bs) := by
  refine ⟨fun s => ?_, fun s => ?_⟩
  · simp [encodeDelimited, delimited, h.measures, h.writes]
  · simp [measureDelimited, delimited, h.measures, hv, hk, Nat.add_assoc]

theorem total_measureDelimited (k : ℕ) (ms : List (Msg σ β)) (s : σ) :
    (measureRepeated k varintLen ms s).1 =
      (total (ms.map fun m => measureDelimited k varintLen m) s).1 := by
  have hgen : ∀ ms : List (Msg σ β), ∀ s,
      (total (ms.map fun m => measureDelimited k varintLen m) s) =
        (k * ms.length + (total (ms.map fun m => measureDelimited 0 varintLen m) s).1,
          (total (ms.map fun m => measureDelimited 0 varintLen m) s).2) := by
    intro ms
    induction ms with
    | nil => exact fun s => rfl
    | cons m ms ih =>
      intro s
      simp only [List.map_cons, total, measureDelimited, ih, List.length_cons, Nat.mul_succ,
        Prod.mk.injEq, and_true]
      omega
  rw [hgen]
  rfl

/-- Repeated messages are written with exact prefixes. -/
theorem Agree.repeated {xs : List ι} {m : ι → Msg σ β} {f : ι → List β} {k : ℕ}
    (h : ∀ x, (m x).Denotes (f x)) (hk : key.length = k)
    (hv : ∀ n, (varint n).length = varintLen n) :
    Agree (seq ((xs.map m).map (encodeDelimited key varint)))
      (measureRepeated k varintLen (xs.map m))
      ((xs.map f).flatMap (delimited key varint)) := by
  rw [List.map_map, List.flatMap_map]
  refine (Agree.flatMap fun x => (h x).agree hk hv).of_measure fun s => ?_
  rw [total_measureDelimited, List.map_map]
  rfl

end Writer
