import Mathlib.Data.Nat.Bitwise
import Dragonmouth.Foundations.CellWindow
import Dragonmouth.Proto.Geyser

/-!
# The channel of binary messages

`binary::channel` connects the source with the parser. Sender and receiver count on
their own; all they share are cells that are occupied or empty. A position stands
for the cell `pos & (max_messages - 1)`, which leaves cells unused when the size is
no power of two. A panic is a call without a result.

## Main definitions

- `Channel.send`, `Channel.lock`, `Channel.returned`: the steps of both sides
- `Run`: the calls of both sides in any order, with what has been accepted and
  received
-/

namespace Dragonmouth.Richat.Binary

structure Shared where
  mask : ℕ
  buffer : List (Option Bytes)

namespace Shared

def new (maxMessages : ℕ) : Shared where
  mask := (maxMessages - 1) % 2 ^ 64
  buffer := List.replicate maxMessages none

def getIdx (shared : Shared) (pos : ℕ) : ℕ := pos &&& shared.mask

/-- The cell of a position, as `get_locked` reads it. -/
def cell (shared : Shared) (pos : ℕ) : Option (Option Bytes) :=
  shared.buffer[shared.getIdx pos]?

/-- Write the cell of a position. -/
def setCell (shared : Shared) (pos : ℕ) (item : Option Bytes) : Shared :=
  { shared with buffer := shared.buffer.set (shared.getIdx pos) item }

end Shared

/-- Both ends of a channel. `receiving` is what a call of `recv` has taken and not
returned yet. -/
structure Channel where
  shared : Shared
  tail : ℕ
  head : ℕ
  receiving : Option (Option Bytes)

/-- `binary::channel`. -/
def channel (maxMessages : ℕ) : Channel where
  shared := .new maxMessages
  tail := 0
  head := 0
  receiving := none

namespace Channel

/-- `Sender::send`: the item comes back if the cell is occupied. -/
def send (channel : Channel) (item : Bytes) : Option (Option Bytes × Channel) :=
  match channel.shared.cell channel.tail with
  | none => none
  | some (some _) => some (some item, channel)
  | some none =>
    some (none,
      { channel with
        shared := channel.shared.setCell channel.tail (some item)
        tail := (channel.tail + 1) % 2 ^ 64 })

/-- `Receiver::recv` while the cell is locked. -/
def lock (channel : Channel) : Option Channel :=
  match channel.shared.cell channel.head with
  | none => none
  | some item =>
    some { channel with
      shared := channel.shared.setCell channel.head none
      receiving := some item }

/-- The end of `Receiver::recv`. -/
def returned (channel : Channel) (item : Option Bytes) : Channel :=
  { channel with
    head := if item.isSome then (channel.head + 1) % 2 ^ 64 else channel.head
    receiving := none }

/-- How many items a call of `recv` has taken and not returned yet. -/
def inFlight (channel : Channel) : ℕ :=
  match channel.receiving with
  | some (some _) => 1
  | _ => 0

theorem inFlight_idle {channel : Channel} (h : channel.receiving = none) :
    channel.inFlight = 0 := by
  rw [inFlight, h]

theorem inFlight_receiving {channel : Channel} {item : Option Bytes}
    (h : channel.receiving = some item) : channel.inFlight = item.toList.length := by
  cases item with
  | none => rw [inFlight, h]; rfl
  | some item => rw [inFlight, h]; rfl

end Channel

/-- Calls of `send` and `recv` in any order, `send` also while a call of `recv` is
under way. `accepted` and `received` are history variables. -/
inductive Run (maxMessages : ℕ) : Channel → List Bytes → List Bytes → Prop where
  | new : Run maxMessages (channel maxMessages) [] []
  | accept {channel channel' : Channel} {accepted received : List Bytes} {item : Bytes}
      (run : Run maxMessages channel accepted received)
      (h : channel.send item = some (none, channel')) :
      Run maxMessages channel' (accepted ++ [item]) received
  | refuse {channel channel' : Channel} {accepted received : List Bytes} {item item' : Bytes}
      (run : Run maxMessages channel accepted received)
      (h : channel.send item = some (some item', channel')) :
      Run maxMessages channel' accepted received
  | lock {channel channel' : Channel} {accepted received : List Bytes}
      (run : Run maxMessages channel accepted received) (hidle : channel.receiving = none)
      (h : channel.lock = some channel') : Run maxMessages channel' accepted received
  | recv {channel : Channel} {accepted received : List Bytes} {item : Option Bytes}
      (run : Run maxMessages channel accepted received) (h : channel.receiving = some item) :
      Run maxMessages (channel.returned item) accepted (received ++ item.toList)

-- ════════════════════════════════════════════════════════════════════════
-- What the cells hold
-- ════════════════════════════════════════════════════════════════════════

/-- The cells hold the items that have been accepted and not taken; the counters
count what has been accepted and received. -/
structure Holds (maxMessages : ℕ) (channel : Channel) (accepted received : List Bytes) :
    Prop where
  mask : channel.shared.mask = (maxMessages - 1) % 2 ^ 64
  buffer : channel.shared.buffer.length = maxMessages
  tail : channel.tail = accepted.length % 2 ^ 64
  head : channel.head = received.length % 2 ^ 64
  order : received <+: accepted
  window : CellWindow channel.shared.buffer channel.shared.getIdx accepted
    (received.length + channel.inFlight)
  receiving : ∀ item, channel.receiving = some (some item) →
    accepted[received.length]? = some item

namespace Holds

variable {maxMessages : ℕ} {c : Channel} {accepted received : List Bytes}

theorem channel (maxMessages : ℕ) : Holds maxMessages (channel maxMessages) [] [] where
  mask := rfl
  buffer := List.length_replicate
  tail := rfl
  head := rfl
  order := List.prefix_rfl
  window := CellWindow.empty _ _
  receiving _ h := by cases h

/-- Positions are masked alike before and after they wrap. -/
theorem getIdx_mod (h : Holds maxMessages c accepted received) (pos : ℕ) :
    c.shared.getIdx (pos % 2 ^ 64) = c.shared.getIdx pos := by
  have hmask : c.shared.mask % 2 ^ 64 = c.shared.mask := by
    rw [h.mask, Nat.mod_mod]
  have hlt : c.shared.getIdx pos < 2 ^ 64 :=
    Nat.lt_of_le_of_lt Nat.and_le_right (hmask ▸ Nat.mod_lt _ (Nat.two_pow_pos 64))
  calc pos % 2 ^ 64 &&& c.shared.mask
      = pos % 2 ^ 64 &&& c.shared.mask % 2 ^ 64 := by rw [hmask]
    _ = (pos &&& c.shared.mask) % 2 ^ 64 := (Nat.and_mod_two_pow ..).symm
    _ = pos &&& c.shared.mask := Nat.mod_eq_of_lt hlt

/-- Every position has a cell. -/
theorem getIdx_lt (h : Holds maxMessages c accepted received) (hmax : 1 ≤ maxMessages) (pos : ℕ) :
    c.shared.getIdx pos < c.shared.buffer.length := by
  have hmask : c.shared.mask ≤ maxMessages - 1 := h.mask ▸ Nat.mod_le _ _
  have hidx : c.shared.getIdx pos ≤ c.shared.mask := Nat.and_le_right
  rw [h.buffer]
  omega

theorem cell_tail (h : Holds maxMessages c accepted received) :
    c.shared.cell c.tail = c.shared.buffer[c.shared.getIdx accepted.length]? := by
  rw [Shared.cell, h.tail, h.getIdx_mod]

/-- While no call of `recv` is under way, the cell of the receiver holds the next
item, or nothing if there is none. -/
theorem cell_head (h : Holds maxMessages c accepted received) (hmax : 1 ≤ maxMessages)
    (hidle : c.receiving = none) : c.shared.cell c.head = some accepted[received.length]? := by
  have hwindow := h.window
  rw [Channel.inFlight_idle hidle, Nat.add_zero] at hwindow
  rw [Shared.cell, h.head, h.getIdx_mod]
  exact hwindow.read (h.getIdx_lt hmax received.length)

end Holds

/-- What a call of `send` does. -/
theorem send_cases {c c' : Channel} {item : Bytes} {result : Option Bytes}
    (h : c.send item = some (result, c')) :
    (result = some item ∧ c' = c) ∨
    (c.shared.cell c.tail = some none ∧ result = none ∧
      c' = { c with
        shared := c.shared.setCell c.tail (some item)
        tail := (c.tail + 1) % 2 ^ 64 }) := by
  rw [Channel.send] at h
  split at h
  · cases h
  · cases h
    exact .inl ⟨rfl, rfl⟩
  · rename_i hcell
    cases h
    exact .inr ⟨hcell, rfl, rfl⟩

namespace Holds

variable {maxMessages : ℕ} {c c' : Channel} {accepted received : List Bytes}

/-- Accepting an item stores it after those accepted before. -/
theorem accept (h : Holds maxMessages c accepted received) {item : Bytes}
    (hsend : c.send item = some (none, c')) :
    Holds maxMessages c' (accepted ++ [item]) received := by
  obtain ⟨hresult, -⟩ | ⟨hcell, -, rfl⟩ := send_cases hsend
  · cases hresult
  · rw [h.cell_tail] at hcell
    have hidx : c.shared.getIdx c.tail = c.shared.getIdx accepted.length := by
      rw [h.tail, h.getIdx_mod]
    have hwindow := h.window.store hcell item
    constructor
    · exact h.mask
    · exact (List.length_set ..).trans h.buffer
    · change (c.tail + 1) % 2 ^ 64 = _
      rw [h.tail, Nat.mod_add_mod, List.length_append, List.length_singleton]
    · exact h.head
    · exact h.order.trans (List.prefix_append _ _)
    · rw [← hidx] at hwindow
      exact hwindow
    · intro x hx
      have hnext := h.receiving x hx
      rw [List.getElem?_append_left (List.getElem?_eq_some_iff.mp hnext).1]
      exact hnext

/-- Taking the next item empties its cell. -/
theorem lock (h : Holds maxMessages c accepted received) (hmax : 1 ≤ maxMessages)
    (hidle : c.receiving = none) (hlock : c.lock = some c') :
    c'.receiving = some accepted[received.length]? ∧ Holds maxMessages c' accepted received := by
  have hcell := h.cell_head hmax hidle
  have hidx : c.shared.getIdx c.head = c.shared.getIdx received.length := by
    rw [h.head, h.getIdx_mod]
  have hwindow := h.window
  rw [Channel.inFlight_idle hidle, Nat.add_zero] at hwindow
  rw [Channel.lock, hcell] at hlock
  cases hlock
  refine ⟨rfl, h.mask, (List.length_set ..).trans h.buffer, h.tail, h.head, h.order, ?_, ?_⟩
  · rw [Channel.inFlight_receiving rfl]
    change CellWindow (c.shared.buffer.set (c.shared.getIdx c.head) none) _ _ _
    rw [hidx]
    obtain hlt | heq := Nat.lt_or_eq_of_le hwindow.le
    · rw [List.getElem?_eq_getElem hlt]
      exact hwindow.take hlt
    · have hnone : accepted[received.length]? = none := List.getElem?_eq_none heq.ge
      rw [hnone, hwindow.take_nothing hnone (h.getIdx_lt hmax received.length)]
      exact hwindow
  · intro item hitem
    exact Option.some.inj hitem

/-- Returning an item counts it. -/
theorem recv (h : Holds maxMessages c accepted received) {item : Option Bytes}
    (hreceiving : c.receiving = some item) :
    Holds maxMessages (c.returned item) accepted (received ++ item.toList) := by
  cases item with
  | none =>
    rw [Option.toList_none, List.append_nil]
    refine ⟨h.mask, h.buffer, h.tail, h.head, h.order, ?_, fun item hitem => by cases hitem⟩
    have hwindow := h.window
    rw [Channel.inFlight_receiving hreceiving] at hwindow
    exact hwindow
  | some item =>
    have hnext := h.receiving item hreceiving
    have hlength : (received ++ [item]).length = received.length + 1 := by simp
    refine ⟨h.mask, h.buffer, h.tail, ?_, ?_, ?_, fun item hitem => by cases hitem⟩
    · change (c.head + 1) % 2 ^ 64 = _
      rw [h.head, Nat.mod_add_mod, Option.toList_some, hlength]
    · rw [Option.toList_some, List.prefix_iff_eq_take, hlength, List.take_add_one, hnext,
        ← List.prefix_iff_eq_take.mp h.order]
      rfl
    · have hwindow := h.window
      rw [Channel.inFlight_receiving hreceiving] at hwindow
      rw [Option.toList_some, hlength]
      exact hwindow

end Holds

/-- The cells hold what is under way after every run. -/
theorem Run.holds {maxMessages : ℕ} (hmax : 1 ≤ maxMessages) {c : Channel}
    {accepted received : List Bytes} (run : Run maxMessages c accepted received) :
    Holds maxMessages c accepted received := by
  induction run with
  | new => exact .channel maxMessages
  | accept _ h ih => exact ih.accept h
  | refuse _ h ih =>
    obtain ⟨-, rfl⟩ | ⟨-, hresult, -⟩ := send_cases h
    · exact ih
    · cases hresult
  | lock _ hidle h ih => exact (ih.lock hmax hidle h).2
  | recv _ h ih => exact ih.recv h

-- ════════════════════════════════════════════════════════════════════════
-- First in, first out
-- ════════════════════════════════════════════════════════════════════════

/-- What a channel promises after a run. -/
structure Fifo (c : Channel) (accepted received : List Bytes) : Prop where
  /-- Items are received in the order in which they have been accepted, each once. -/
  order : received <+: accepted
  /-- Every call of `send` returns; one that is refused returns its item and changes
  nothing. -/
  send : ∀ item, ∃ result c', c.send item = some (result, c') ∧
    ∀ item', result = some item' → item' = item ∧ c' = c
  /-- Every call of `recv` returns the next item that has been accepted, and nothing
  only if all of them have been received. -/
  recv : c.receiving = none → ∃ result c', c.lock = some c' ∧ c'.receiving = some result ∧
    result = accepted[received.length]? ∧ (result = none → received = accepted)

/-- The channel is first in, first out for every size and every order of calls. -/
theorem run_fifo {maxMessages : ℕ} (hmax : 1 ≤ maxMessages) {c : Channel}
    {accepted received : List Bytes} (run : Run maxMessages c accepted received) :
    Fifo c accepted received := by
  have h := run.holds hmax
  constructor
  · exact h.order
  · intro item
    have hlt := h.getIdx_lt hmax accepted.length
    have hcell := h.cell_tail
    rw [List.getElem?_eq_getElem hlt] at hcell
    cases hvalue : c.shared.buffer[c.shared.getIdx accepted.length] with
    | none =>
      rw [hvalue] at hcell
      exact ⟨none, _, by rw [Channel.send, hcell], fun item' he => by cases he⟩
    | some other =>
      rw [hvalue] at hcell
      refine ⟨some item, c, by rw [Channel.send, hcell], fun item' he => ?_⟩
      cases he
      exact ⟨rfl, rfl⟩
  · intro hidle
    have hcell := h.cell_head hmax hidle
    refine ⟨accepted[received.length]?, _, by rw [Channel.lock, hcell], rfl, rfl, fun hnone => ?_⟩
    exact h.order.eq_of_length_le (List.getElem?_eq_none_iff.mp hnone)

/-- A channel of three cells after two items have been accepted and one received. -/
theorem run_fifo_three : ∃ c, Run 3 c [[1], [2]] [[1]] ∧ Fifo c [[1], [2]] [[1]] := by
  have first : Run 3 _ ([] ++ [[1]]) [] := .accept .new rfl
  have taken : Run 3 _ ([] ++ [[1]]) [] := .lock first rfl rfl
  have received : Run 3 _ ([] ++ [[1]]) ([] ++ Option.toList (some [1])) := .recv taken rfl
  have second : Run 3 _ ([] ++ [[1]] ++ [[2]]) ([] ++ Option.toList (some [1])) :=
    .accept received rfl
  exact ⟨_, second, run_fifo (by decide) second⟩

end Dragonmouth.Richat.Binary
