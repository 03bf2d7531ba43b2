import Dragonmouth.Foundations.OrderedMap
import Dragonmouth.Foundations.RingLog
import Dragonmouth.Plugin.Message

/-!
# The message channel of the plugin

A broadcast ring: the validator pushes messages, subscribers read them. The
state behind the mutex tracks the retained window of the ring, the first
position of each slot, and the retained bytes.

Positions and byte counts are natural numbers; the source's `wrapping_add` on
`u64` is `+ 1`, which differs only after `2 ^ 64` messages. Every loop recurses
on a bound of its iterations; each bound is spelled out where the loop is run.

`Shared.writes` is a history variable that no function reads: the writes to the
locked cells, in order. It lets readers be interleaved with a push.
-/

namespace Dragonmouth.Plugin

/-- The encoded bytes of a message, shared with every receiver. -/
abbrev RecvItem := Bytes

structure ConfigChannel where
  maxMessages : ℕ
  maxSlots : ℕ
  maxBytes : ℕ

structure Item where
  pos : ℕ
  slot : Slot
  data : Option (PluginNotification × RecvItem)
  closed : Bool

structure SlotInfo where
  head : ℕ
  parentSlot : Option Slot
  confirmed : Bool
  finalized : Bool

/-- The state behind the mutex; a waker is the number of its receiver. -/
structure State where
  head : ℕ
  tail : ℕ
  slots : OrderedMap Slot SlotInfo
  slotsMax : ℕ
  bytesTotal : ℕ
  bytesMax : ℕ
  wakers : List ℕ

/-- What one critical section on a cell does to it. -/
inductive CellWrite where
  | take (pos : ℕ)
  | store (pos : ℕ) (slot : Slot) (data : PluginNotification × RecvItem)
  deriving DecidableEq

/-- The position whose cell is written. -/
def CellWrite.pos : CellWrite → ℕ
  | take pos => pos
  | store pos _ _ => pos

def CellWrite.apply (item : Item) : CellWrite → Item
  | take _ => { item with data := none }
  | store pos slot data => { item with pos := pos, slot := slot, data := some data }

/-- Write the cell of a position. -/
def writeItem (mask : ℕ) (buffer : ℕ → Item) (w : CellWrite) : ℕ → Item :=
  Function.update buffer (w.pos &&& mask) (w.apply (buffer (w.pos &&& mask)))

structure Shared where
  state : State
  mask : ℕ
  buffer : ℕ → Item
  writes : List CellWrite

/-- The panics of a push, by the text of the assertion that fails. -/
inductive Panic where
  /-- nothing to remove to keep slots under limit #1 -/
  | slotsNothing1
  /-- head overflow tail on remove process by slots limit #1 -/
  | slotsOverflow1
  /-- nothing to remove to keep slots under limit #2 -/
  | slotsNothing2
  /-- head overflow tail on remove process by slots limit #2 -/
  | slotsOverflow2
  /-- nothing to remove to keep slots under limit #3 -/
  | slotsNothing3
  /-- head overflow tail on remove process by bytes limit -/
  | bytesOverflow
  /-- nothing to remove to keep bytes under limit -/
  | bytesNothing
  /-- attempt to subtract with overflow (checked builds) -/
  | subtractOverflow
  deriving DecidableEq

/-- A panic and what it leaves behind. -/
structure Panicked where
  panic : Panic
  shared : Shared

/-- The result of an operation under the mutex. -/
abbrev Outcome := Except Panicked Shared

namespace Shared

def getIdx (sh : Shared) (pos : ℕ) : ℕ := pos &&& sh.mask

def write (sh : Shared) (w : CellWrite) : Shared :=
  { sh with buffer := writeItem sh.mask sh.buffer w, writes := sh.writes ++ [w] }

end Shared

/-- `Sender::new`. -/
def Sender.new (config : ConfigChannel) : Shared :=
  let maxMessages := config.maxMessages.nextPowerOfTwo
  { state :=
      { head := maxMessages
        tail := maxMessages
        slots := ∅
        slotsMax := config.maxSlots
        bytesTotal := 0
        bytesMax := config.maxBytes
        wakers := [] }
    mask := maxMessages - 1
    buffer := fun i => { pos := i, slot := 0, data := none, closed := false }
    writes := [] }

/-- The loop of `State::remove_slots`. Every iteration but the first removes
the first key, so one more than the number of slots bounds the iterations. -/
def removeSlotsLoop (removeUpto : Slot) :
    ℕ → Slot → OrderedMap Slot SlotInfo → OrderedMap Slot SlotInfo
  | 0, _, slots => slots
  | n + 1, slot, slots =>
    if slot ≤ removeUpto then
      let slots := slots.erase slot
      match slots.firstKey with
      | some slot => removeSlotsLoop removeUpto n slot slots
      | none => slots
    else slots

/-- `State::remove_slots`, which reads and writes the slots only. -/
def removeSlots (slots : OrderedMap Slot SlotInfo) (firstSlot : Option Slot)
    (removeUpto : Slot) : OrderedMap Slot SlotInfo :=
  match firstSlot <|> slots.firstKey with
  | some slot => removeSlotsLoop removeUpto (slots.len + 1) slot slots
  | none => slots

namespace Shared

/-- `state.bytes_total -= len`. -/
def subBytes (sh : Shared) (len : ℕ) : Outcome :=
  if sh.state.bytesTotal < len then .error ⟨.subtractOverflow, sh⟩
  else .ok { sh with state := { sh.state with bytesTotal := sh.state.bytesTotal - len } }

/-- Advance `head` past a message of the given slot and let `forget` update
the slots. -/
def advanceHead (sh : Shared) (forget : Slot → OrderedMap Slot SlotInfo → OrderedMap Slot SlotInfo)
    (slot : Slot) : Shared :=
  { sh with
    state := { sh.state with head := sh.state.head + 1, slots := forget slot sh.state.slots } }

/-- The body the eviction loops share: take the message at `head`, advance
`head`, update the slots, and give back the bytes. -/
def evictHead (sh : Shared) (onEmpty : Panic)
    (forget : Slot → OrderedMap Slot SlotInfo → OrderedMap Slot SlotInfo) : Outcome :=
  let item := sh.buffer (sh.getIdx sh.state.head)
  match item.data with
  | none => .error ⟨onEmpty, sh⟩
  | some message =>
    ((sh.write (.take sh.state.head)).advanceHead forget item.slot).subBytes message.2.length

/-- Remove everything up to the beginning of the removed slot (messages from
geyser are not ordered). Run with `slotHead - head`. -/
def dropUpTo (slot : Slot) (slotHead : ℕ) : ℕ → Shared → Outcome
  | 0, sh => .ok sh
  | n + 1, sh =>
    if sh.state.head < slotHead then
      if sh.state.head < sh.state.tail then do
        -- at the largest slot `slot + 1` wraps to 0, but no other slot is left then
        let sh ← sh.evictHead .slotsNothing2 fun itemSlot slots =>
          removeSlots slots (some (slot + 1)) itemSlot
        dropUpTo slot slotHead n sh
      else .error ⟨.slotsOverflow1, sh⟩
    else .ok sh

/-- Remove messages while the slot is the same. Run with `tail - head`: when
nothing is left of it, the assertion fails. -/
def dropSame (slot : Slot) : ℕ → Shared → Outcome
  | 0, sh => .error ⟨.slotsOverflow2, sh⟩
  | n + 1, sh =>
    if sh.state.head < sh.state.tail then
      if slot ≠ (sh.buffer (sh.getIdx sh.state.head)).slot then .ok sh
      else do
        let sh ← sh.evictHead .slotsNothing3 fun _ slots => slots
        dropSame slot n sh
    else .error ⟨.slotsOverflow2, sh⟩

/-- The messages that go with a slot taken out of the index: those before its
first one, then its own. -/
def dropSlot (slot : Slot) (slotHead : ℕ) (sh : Shared) : Outcome := do
  let sh ← dropUpTo slot slotHead (slotHead - sh.state.head) sh
  dropSame slot (sh.state.tail - sh.state.head) sh

/-- Drop extra messages by extra slots. Run with the number of slots. -/
def dropSlots : ℕ → Shared → Outcome
  | 0, sh => .ok sh
  | n + 1, sh =>
    if sh.state.slots.len > sh.state.slotsMax then
      match sh.state.slots.popFirst with
      | none => .error ⟨.slotsNothing1, sh⟩
      | some ((slot, slotInfo), slots) => do
        let sh := { sh with state := { sh.state with slots := slots } }
        let sh ← dropSlot slot slotInfo.head sh
        dropSlots n sh
    else .ok sh

/-- Drop extra messages by max bytes. Run with `tail - head`: when nothing is
left of it, the assertion fails. -/
def dropBytes : ℕ → Shared → Outcome
  | 0, sh =>
    if sh.state.bytesTotal > sh.state.bytesMax then .error ⟨.bytesOverflow, sh⟩ else .ok sh
  | n + 1, sh =>
    if sh.state.bytesTotal > sh.state.bytesMax then
      if sh.state.head < sh.state.tail then do
        let sh ← sh.evictHead .bytesNothing fun itemSlot slots => removeSlots slots none itemSlot
        dropBytes n sh
      else .error ⟨.bytesOverflow, sh⟩
    else .ok sh

/-- Lock and update the item of `pos`, dropping the message of the lap before. -/
def storeItem (sh : Shared) (pos : ℕ) (slot : Slot) (data : PluginNotification × RecvItem) :
    Outcome := do
  let item := sh.buffer (sh.getIdx pos)
  let sh ← match item.data with
    | some message =>
      (sh.advanceHead (fun itemSlot slots => removeSlots slots none itemSlot)
        item.slot).subBytes message.2.length
    | none => .ok sh
  .ok (sh.write (.store pos slot data))

end Shared

/-- What a message changes in the info of its slot. -/
def SlotInfo.update (entry : SlotInfo) : ProtobufMessage → SlotInfo
  | .slot _ parent status =>
    let entry :=
      match parent with
      | some parent => { entry with parentSlot := some parent }
      | none => entry
    if status = .confirmed then { entry with confirmed := true }
    else if status = .rooted then { entry with finalized := true }
    else entry
  | _ => entry

namespace Shared

/-- Update slots info: find or insert the entry of the message's slot. -/
def updateSlot (sh : Shared) (pos : ℕ) (message : ProtobufMessage) : Shared :=
  let slot := message.getSlot
  let entry := (sh.state.slots.lookup slot).getD
    { head := pos, parentSlot := none, confirmed := false, finalized := false }
  { sh with state := { sh.state with slots := sh.state.slots.insert slot (entry.update message) } }

/-- `Sender::push_msg`. -/
def pushMsg (sh : Shared) (message : ProtobufMessage) (data : Bytes) : Outcome := do
  let pos := sh.state.tail
  let slot := message.getSlot
  let sh := sh.updateSlot pos message
  let sh ← dropSlots sh.state.slots.len sh
  let sh := { sh with state := { sh.state with bytesTotal := sh.state.bytesTotal + data.length } }
  let sh ← dropBytes (sh.state.tail - sh.state.head) sh
  let sh := { sh with state := { sh.state with tail := sh.state.tail + 1 } }
  sh.storeItem pos slot (message.getPluginNotification, data)

end Shared

/-- The entry has not seen this status yet, although its child has. -/
def SlotInfo.missed (entry : SlotInfo) (status : SlotStatus) : Bool :=
  (status == .confirmed && !entry.confirmed) || (status == .rooted && !entry.finalized)

/-- The loop that makes up for missed slot statuses: it walks the parent links
from `slot` while the status is missing. `none` stands for a loop that has not
ended within the given number of iterations. -/
def backfill (slots : OrderedMap Slot SlotInfo) (status : SlotStatus) :
    ℕ → Slot → Option (List ProtobufMessage)
  | 0, _ => none
  | n + 1, slot =>
    match (slots.lookup slot).bind SlotInfo.parentSlot with
    | none => some []
    | some parent =>
      match slots.lookup parent with
      | none => some []
      | some entry =>
        if entry.missed status then
          (backfill slots status n parent).map fun messages =>
            .slot parent entry.parentSlot status :: messages
        else some []

namespace Shared

/-- The messages handed to `push_msg`, in that order. A walk along the parent
links that is longer than the number of slots has entered a cycle, so one more
iteration than that tells whether the loop ends. -/
def batch (sh : Shared) (message : ProtobufMessage) : Option (List ProtobufMessage) :=
  match message with
  | .slot slot _ status =>
    (backfill sh.state.slots status (sh.state.slots.len + 1) slot).map fun missed =>
      (message :: missed).reverse
  | _ => some [message]

/-- Push the messages of a batch one after the other. -/
def pushBatch (encode : ProtobufMessage → Bytes) :
    Shared → List ProtobufMessage → Outcome
  | sh, [] => .ok sh
  | sh, message :: messages => do
    let sh ← sh.pushMsg message (encode message)
    pushBatch encode sh messages

/-- `Sender::push`. `encode` is the encoder at the time of the call; `none`
means that the call never returns. -/
def push (sh : Shared) (encode : ProtobufMessage → Bytes) (message : ProtobufMessage) :
    Option Outcome :=
  (sh.batch message).map fun messages => do
    let sh ← pushBatch encode sh messages
    .ok { sh with state := { sh.state with wakers := [] } }

end Shared

/-- The filter of a subscription. -/
structure RichatFilter where
  disableAccounts : Bool
  disableTransactions : Bool
  disableEntries : Bool

inductive SubscribeError where
  | notInitialized
  | slotNotAvailable (firstAvailable : Slot)

structure Receiver where
  next : ℕ
  finished : Bool
  enableNotificationsAccounts : Bool
  enableNotificationsTransactions : Bool
  enableNotificationsEntries : Bool

/-- `Sender::subscribe`; without a filter nothing is disabled. -/
def Shared.subscribe (sh : Shared) (replayFromSlot : Option Slot) (filter : RichatFilter) :
    Except SubscribeError Receiver := do
  let next ←
    match replayFromSlot with
    | some slot =>
      match sh.state.slots.lookup slot with
      | some s => .ok s.head
      | none =>
        match sh.state.slots.firstKey with
        | some key => .error (.slotNotAvailable key)
        | none => .error .notInitialized
    | none => .ok sh.state.tail
  .ok
    { next := next
      finished := false
      enableNotificationsAccounts := !filter.disableAccounts
      enableNotificationsTransactions := !filter.disableTransactions
      enableNotificationsEntries := !filter.disableEntries }

end Dragonmouth.Plugin
