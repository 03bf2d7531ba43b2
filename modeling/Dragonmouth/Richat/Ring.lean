import Dragonmouth.Foundations.OrderedMap
import Dragonmouth.Foundations.RingLog
import Dragonmouth.Richat.Message

/-!
# A ring of parsed messages

The writing side of a ring, `SenderShared`, and the part it shares with the
readers, `Shared`. The sender keeps the retained window, the bytes and the first
position of each slot; the shared part has the cells, the position readers
compare with, and a second copy of the first positions.

Positions and sizes are natural numbers. Every loop recurses on a bound of its
iterations, spelled out where the loop is run. `SenderShared.writes` is a history
variable that no function reads: the writes readers can observe, in order.
-/

namespace Dragonmouth.Richat

structure Item where
  pos : ℕ
  slot : Slot
  data : Option ParsedMessage

structure SlotHead where
  head : ℕ
  deriving DecidableEq

abbrev SlotHeads := OrderedMap Slot SlotHead

/-- The part of a ring its readers see. -/
structure Shared where
  tail : ℕ
  mask : ℕ
  buffer : ℕ → Item
  slots : SlotHeads

/-- One write to a locked cell or to the position readers compare with. -/
inductive RingWrite where
  | take (pos : ℕ)
  | store (pos : ℕ) (slot : Slot) (message : ParsedMessage)
  | tail (pos : ℕ)
  deriving DecidableEq

structure SenderShared where
  shared : Shared
  head : ℕ
  tail : ℕ
  bytesTotal : ℕ
  slots : SlotHeads
  writes : List RingWrite

/-- The panics of a ring, by the text of the assertion that fails. -/
inductive Panic where
  /-- head overflow tail on remove process by bytes limit -/
  | bytesOverflow
  /-- nothing to remove to keep bytes under limit -/
  | bytesNothing
  /-- nothing to remove to keep slots under limit #1 -/
  | slotsNothing1
  /-- head overflow tail on remove process by slots limit #1 -/
  | slotsOverflow1
  /-- nothing to remove to keep slots under limit #2 -/
  | slotsNothing2
  /-- head overflow tail on remove process by slots limit #2 -/
  | slotsOverflow2
  /-- nothing to remove to keep slots under limit #3 -/
  | slotsNothing3
  /-- attempt to subtract with overflow (checked builds) -/
  | subtractOverflow
  /-- internal error: entered unreachable code -/
  | unreachable
  /-- index out of bounds -/
  | indexOutOfBounds
  deriving DecidableEq

/-- A panic and what it leaves behind. -/
structure Panicked where
  panic : Panic
  sender : SenderShared

abbrev Outcome := Except Panicked SenderShared

namespace Shared

def new (maxMessages : ℕ) : Shared :=
  { tail := maxMessages
    mask := maxMessages - 1
    buffer := fun i => { pos := i, slot := 0, data := none }
    slots := ∅ }

def getIdx (shared : Shared) (pos : ℕ) : ℕ := pos &&& shared.mask

/-- The item of a position. -/
def item (shared : Shared) (pos : ℕ) : Item := shared.buffer (shared.getIdx pos)

/-- Replace the item of a position. -/
def setItem (shared : Shared) (pos : ℕ) (item : Item) : Shared :=
  { shared with buffer := Function.update shared.buffer (shared.getIdx pos) item }

end Shared

inductive RecvError where
  | lagged
  | closed
  deriving DecidableEq

/-- `ReceiverSync::try_recv` on the ring of its commitment. -/
def Shared.tryRecv (shared : Shared) (head : ℕ) : Except RecvError (Option ParsedMessage) :=
  if head < shared.tail then
    if (shared.item head).pos ≠ head then .error .lagged
    else
      match (shared.item head).data with
      | none => .error .lagged
      | some message => .ok (some message)
  else .ok none

namespace SenderShared

def new (shared : Shared) (maxMessages : ℕ) : SenderShared :=
  { shared := shared
    head := maxMessages
    tail := maxMessages
    bytesTotal := 0
    slots := ∅
    writes := [] }

/-- `self.bytes_total -= len`. -/
def subBytes (sender : SenderShared) (len : ℕ) : Outcome :=
  if sender.bytesTotal < len then .error ⟨.subtractOverflow, sender⟩
  else .ok { sender with bytesTotal := sender.bytesTotal - len }

/-- Remove the entry of a slot from both copies of the first positions. -/
def forget (sender : SenderShared) (slot : Slot) : SenderShared :=
  if slot ∈ sender.slots then
    { sender with
      slots := sender.slots.erase slot
      shared := { sender.shared with slots := sender.shared.slots.erase slot } }
  else sender

/-- Leave the message at `head`. -/
def advanceHead (sender : SenderShared) : SenderShared :=
  { sender with head := sender.head + 1 }

/-- Take the message out of the cell of a position. -/
def takeItem (sender : SenderShared) (pos : ℕ) : SenderShared :=
  { sender with
    shared := sender.shared.setItem pos { sender.shared.item pos with data := none }
    writes := sender.writes ++ [.take pos] }

/-- Lock and fill the cell of a position. -/
def storeItem (sender : SenderShared) (pos : ℕ) (slot : Slot) (message : ParsedMessage) :
    SenderShared :=
  { sender with
    shared := sender.shared.setItem pos { pos := pos, slot := slot, data := some message }
    writes := sender.writes ++ [.store pos slot message] }

/-- Store the new position for receivers. -/
def storeTail (sender : SenderShared) (pos : ℕ) : SenderShared :=
  { sender with
    shared := { sender.shared with tail := pos }
    writes := sender.writes ++ [.tail pos] }

/-- Update the slot head info of both copies. -/
def insertSlot (sender : SenderShared) (slot : Slot) (pos : ℕ) : SenderShared :=
  if slot ∈ sender.slots then sender
  else
    { sender with
      slots := sender.slots.insert slot { head := pos }
      shared := { sender.shared with slots := sender.shared.slots.insert slot { head := pos } } }

/-- Drop the message the cell of the new position still holds. -/
def dropExisted (sender : SenderShared) (pos : ℕ) : Outcome :=
  match (sender.shared.item pos).data with
  | some message => do
    let item := sender.shared.item pos
    let sender ← sender.advanceHead.subBytes message.size
    .ok (sender.forget item.slot)
  | none => .ok sender

/-- `SenderShared::push`. -/
def push (sender : SenderShared) (slot : Slot) (message : ParsedMessage) : Outcome := do
  let pos := sender.tail
  let sender := { sender with tail := sender.tail + 1 }
  let sender ← sender.dropExisted pos
  let sender := { sender with bytesTotal := sender.bytesTotal + message.size }
  .ok (((sender.storeItem pos slot message).storeTail pos).insertSlot slot pos)

/-- Take the message at `head`, advance `head` and give back the bytes: the
beginning all eviction loops share. -/
def evictHead (sender : SenderShared) (onEmpty : Panic) : Outcome :=
  match (sender.shared.item sender.head).data with
  | none => .error ⟨onEmpty, sender⟩
  | some message => ((sender.takeItem sender.head).advanceHead).subBytes message.size

/-- Drop messages by extra bytes. Run with `tail - head`: when nothing is left
of it, the assertion fails. -/
def dropBytes (bytesMax : ℕ) : ℕ → SenderShared → Outcome
  | 0, sender =>
    if sender.bytesTotal > bytesMax then .error ⟨.bytesOverflow, sender⟩ else .ok sender
  | n + 1, sender =>
    if sender.bytesTotal > bytesMax then
      if sender.head < sender.tail then do
        let item := sender.shared.item sender.head
        let sender ← sender.evictHead .bytesNothing
        dropBytes bytesMax n (sender.forget item.slot)
      else .error ⟨.bytesOverflow, sender⟩
    else .ok sender

/-- Remove everything up to the beginning of the removed slot (messages from
geyser are not ordered). Run with `slotHead - head`. -/
def dropUpTo (slotHead : ℕ) : ℕ → SenderShared → Outcome
  | 0, sender => .ok sender
  | n + 1, sender =>
    if sender.head < slotHead then
      if sender.head < sender.tail then do
        let item := sender.shared.item sender.head
        let sender ← sender.evictHead .slotsNothing2
        dropUpTo slotHead n (sender.forget item.slot)
      else .error ⟨.slotsOverflow1, sender⟩
    else .ok sender

/-- Remove messages while the slot is the same. Run with `tail - head`: when
nothing is left of it, the assertion fails. -/
def dropSame (slotMin : Slot) : ℕ → SenderShared → Outcome
  | 0, sender => .error ⟨.slotsOverflow2, sender⟩
  | n + 1, sender =>
    if sender.head < sender.tail then
      if slotMin ≠ (sender.shared.item sender.head).slot then .ok sender
      else do
        let sender ← sender.evictHead .slotsNothing3
        dropSame slotMin n sender
    else .error ⟨.slotsOverflow2, sender⟩

/-- The messages that go with a slot whose entry has been removed: those before
its first one, then its own. -/
def dropSlot (slotMin : Slot) (slotHead : ℕ) (sender : SenderShared) : Outcome := do
  let sender ← dropUpTo slotHead (slotHead - sender.head) sender
  dropSame slotMin (sender.tail - sender.head) sender

/-- Drop messages by extra slots. The removed slot's entry goes from the sender's
own copy only. Run with the number of slots. -/
def dropSlots (slotsMax : ℕ) : ℕ → SenderShared → Outcome
  | 0, sender => .ok sender
  | n + 1, sender =>
    if sender.slots.len > slotsMax then
      match sender.slots.popFirst with
      | none => .error ⟨.slotsNothing1, sender⟩
      | some ((slotMin, slotInfo), slots) => do
        let sender ← dropSlot slotMin slotInfo.head { sender with slots := slots }
        dropSlots slotsMax n sender
    else .ok sender

/-- `SenderShared::try_clear`. -/
def tryClear (sender : SenderShared) (bytesMax slotsMax : ℕ) : Outcome := do
  let sender ← dropBytes bytesMax (sender.tail - sender.head) sender
  dropSlots slotsMax sender.slots.len sender

end SenderShared

end Dragonmouth.Richat
