import Dragonmouth.Filters.Parse
import Dragonmouth.Richat.BlockAssembly
import Dragonmouth.Richat.CommitmentStreams

/-!
# Pushing what has been parsed

`Sender::push` parses a buffer and gives the message to the slot it belongs to. The
parser accepts six kinds of updates; a slot stores five of them, and a sixth, the
block, is only expected after the block of the slot has been created. The decoder of
updates is a parameter.

## Main definitions

- `Message.parse`: a buffer to a message
- `Sender.receiveBuffer`: `push` up to `get_block_message`
- `Sender.Completes`: it returns an error or a message

## Main results

- `Sender.push_completes_iff`: which buffers can be pushed
-/

namespace Dragonmouth.Richat

open Checks
open Filters (Geyser SubscribeUpdate UpdateOneof)

section

variable (decode : Bytes → Except String SubscribeUpdate) (G : Geyser)
  (capacity : Finset Pubkey → ℕ)

/-- `Message::parse` with `MessageParserEncoding::Prost`. -/
def Message.parse (buffer : Bytes) : Except MessageParseError ParsedMessage := do
  let update ← (decode buffer).mapError .prost
  Filters.MessageParserProst.parse G capacity update (some buffer.length)

/-- The buffer is an update with a block of a slot, and nothing of it is refused. -/
def ParsesToBlock (buffer : Bytes) (slot : Slot) : Prop :=
  ∃ update message, decode buffer = .ok update ∧ update.updateOneof = some (.block message) ∧
    message.slot = slot ∧ ∃ parsed, Message.parse decode G capacity buffer = .ok parsed

end

namespace Sender

/-- `Sender::push` up to `get_block_message`: parse, get or create slot info, and give
it the message. -/
def receiveBuffer (sender : Sender) (parsed : Except MessageParseError ParsedMessage) :
    Except Panic (Sender × Except MessageParseError (ParsedMessage × Option ParsedMessage)) :=
  match parsed with
  | .error e => .ok (sender, .error e)
  | .ok message => do
    let (slotInfo, messageBlock) ← sender.receive message
    .ok ({ sender with slots := sender.slots.insert message.slotOf slotInfo },
      .ok (message, messageBlock))

/-- The rest of `push`: push messages. -/
def pushReceived (sender : Sender) (message : ParsedMessage)
    (messageBlock : Option ParsedMessage) : Except Panic Sender := do
  let sender ← sender.pushEach message.slotOf (message :: messageBlock.toList)
  let processed ← (sender.processed.tryClear sender.bytesMax sender.slotsMax).lift
  .ok { sender with processed := processed }

/-- `push` begins with `receiveBuffer`. -/
theorem push_eq (sender : Sender) (parsed : Except MessageParseError ParsedMessage) :
    sender.push parsed = (do
      let (sender, result) ← sender.receiveBuffer parsed
      match result with
      | .error e => .ok (sender, .error e)
      | .ok (message, messageBlock) => do
        let sender ← sender.pushReceived message messageBlock
        .ok (sender, .ok ())) := by
  cases parsed with
  | error e => rfl
  | ok message =>
    rw [push, pushParsed, receiveBuffer]
    cases sender.receive message with
    | error e => rfl
    | ok received => rfl

/-- The beginning of `push` returns an error of the parser and changes nothing, or
returns a message; it does not panic. -/
def Completes (sender : Sender) (parsed : Except MessageParseError ParsedMessage) : Prop :=
  (∃ e, sender.receiveBuffer parsed = .ok (sender, .error e)) ∨
    ∃ sender' received, sender.receiveBuffer parsed = .ok (sender', .ok received)

variable {sender : Sender} {message : ParsedMessage}

theorem completes_error (e : MessageParseError) : sender.Completes (.error e) :=
  .inl ⟨e, rfl⟩

theorem completes_ok_iff :
    sender.Completes (.ok message) ↔ ∃ received, sender.receive message = .ok received := by
  rw [Completes, receiveBuffer]
  cases sender.receive message with
  | error e =>
    refine iff_of_false ?_ (fun ⟨received, h⟩ => by cases h)
    rintro (⟨e, h⟩ | ⟨sender', received, h⟩)
    · cases h
    · cases h
  | ok received => exact iff_of_true (.inr ⟨_, _, rfl⟩) ⟨received, rfl⟩

/-- A slot takes a block only after its own has been created. -/
theorem getBlockMessage_block_iff {info : SlotInfo} {block : MessageBlock} :
    (∃ received, info.getBlockMessage (.block block) = .ok received) ↔
      info.blockCreated = true := by
  obtain ⟨landed, hlanded⟩ := SlotInfo.markLanded_eq info (.block block)
  rw [SlotInfo.getBlockMessage, hlanded]
  by_cases hcreated : info.blockCreated = true
  · exact iff_of_true ⟨_, if_pos hcreated⟩ hcreated
  · refine iff_of_false ?_ hcreated
    rintro ⟨received, hrun⟩
    have hstore := (if_neg hcreated).symm.trans hrun
    cases hstore

theorem receive_iff (hwf : sender.WellFormed) :
    (∃ received, sender.receive message = .ok received) ↔
      ∀ block, message = .block block → sender.created message.slotOf = true := by
  rw [receive, created]
  have hinfo : ((sender.slots.lookup message.slotOf).getD (.new message.slotOf)).Deduped ∧
      ((sender.slots.lookup message.slotOf).map SlotInfo.blockCreated).getD false =
        ((sender.slots.lookup message.slotOf).getD (.new message.slotOf)).blockCreated := by
    cases hl : sender.slots.lookup message.slotOf with
    | none => exact ⟨(SlotInfo.WellFormed.new _).deduped, rfl⟩
    | some info => exact ⟨(hwf _ _ hl).deduped, rfl⟩
  rw [hinfo.2]
  by_cases hblock : ∃ block, message = .block block
  · obtain ⟨block, rfl⟩ := hblock
    rw [getBlockMessage_block_iff]
    exact ⟨fun h _ _ => h, fun h => h block rfl⟩
  · obtain ⟨info', result, hrun⟩ :=
      SlotInfo.getBlockMessage_ok hinfo.1 fun block he => hblock ⟨block, he⟩
    exact iff_of_true ⟨_, hrun⟩ fun block he => absurd ⟨block, he⟩ hblock

end Sender

-- ════════════════════════════════════════════════════════════════════════
-- What the parser accepts
-- ════════════════════════════════════════════════════════════════════════

section

variable {decode : Bytes → Except String SubscribeUpdate} {G : Geyser}
  {capacity : Finset Pubkey → ℕ} {parsed : ParsedMessage} {slot : Slot}

theorem parseBlock_slot {message : Filters.SubscribeUpdateBlock} {createdAt : Proto.Timestamp}
    {encodedLen : ℕ} {block : MessageBlock}
    (h : Filters.MessageParserProst.parseBlock G capacity message createdAt encodedLen =
      .ok block) : block.slot = message.slot := by
  obtain ⟨accounts, -, h⟩ := bind_eq_ok.mp h
  obtain ⟨transactions, -, h⟩ := bind_eq_ok.mp h
  cases h
  rfl

/-- An update and a message of other kinds. -/
theorem neither_block {updateOneof : UpdateOneof}
    (hupdate : ∀ message, updateOneof ≠ .block message) (hparsed : ∀ block, parsed ≠ .block block) :
    (∃ message, updateOneof = .block message ∧ message.slot = slot) ↔
      ∃ block, parsed = .block block ∧ block.slot = slot := by
  constructor
  · rintro ⟨message, he, -⟩
    exact absurd he (hupdate message)
  · rintro ⟨block, he, -⟩
    exact absurd he (hparsed block)

/-- Of the kinds of updates only a block becomes a block. -/
theorem parses_block_iff {createdAt : Proto.Timestamp} {encodedLen : ℕ}
    {updateOneof : UpdateOneof}
    (h : Filters.MessageParserProst.Parses G capacity createdAt encodedLen updateOneof parsed) :
    (∃ message, updateOneof = .block message ∧ message.slot = slot) ↔
      ∃ block, parsed = .block block ∧ block.slot = slot := by
  cases h with
  | @block message block hblock =>
    have hslot := parseBlock_slot hblock
    constructor
    · rintro ⟨message', he, rfl⟩
      cases he
      exact ⟨block, rfl, hslot⟩
    · rintro ⟨block', he, rfl⟩
      cases he
      exact ⟨message, rfl, hslot.symm⟩
  | slot | account | transaction | entry | blockMeta => exact neither_block (by simp) (by simp)

theorem parsesToBlock_iff {buffer : Bytes}
    (h : Message.parse decode G capacity buffer = .ok parsed) :
    ParsesToBlock decode G capacity buffer slot ↔
      ∃ block, parsed = .block block ∧ block.slot = slot := by
  have hparsed := h
  obtain ⟨update, hdecode, h⟩ := bind_eq_ok.mp h
  obtain ⟨createdAt, updateOneof, -, honeof, hparses⟩ :=
    Filters.MessageParserProst.parse_eq_ok.mp h
  rw [mapError_eq_ok] at hdecode
  rw [← parses_block_iff hparses]
  constructor
  · rintro ⟨update', message, hdecode', honeof', hslot, -⟩
    cases hdecode.symm.trans hdecode'
    exact ⟨message, Option.some.inj (honeof.symm.trans honeof'), hslot⟩
  · rintro ⟨message, rfl, hslot⟩
    exact ⟨update, message, hdecode, honeof, hslot, parsed, hparsed⟩

end

namespace Sender

/-- From every reachable state, the beginning of `push` returns an error of the parser or
a message, unless the buffer is a block of a slot whose block has not been created. -/
theorem push_completes_iff (decode : Bytes → Except String SubscribeUpdate) (G : Geyser)
    (capacity : Finset Pubkey → ℕ) (config : ConfigChannelInner) (grpc : Bool)
    {buffers : List Bytes} {sender : Sender}
    (hrun : (Messages.new config grpc).toSender.pushAll
      (buffers.map (Message.parse decode G capacity)) = .ok sender) (buffer : Bytes) :
    sender.Completes (Message.parse decode G capacity buffer) ↔
      ¬∃ slot, ParsesToBlock decode G capacity buffer slot ∧ sender.created slot = false := by
  have hwf := pushAll_wellFormed (toSender_wellFormed _) hrun
  cases hparse : Message.parse decode G capacity buffer with
  | error e =>
    refine iff_of_true (completes_error e) ?_
    rintro ⟨slot, ⟨update, message, -, -, -, parsed, hparsed⟩, -⟩
    cases hparse.symm.trans hparsed
  | ok parsed =>
    rw [completes_ok_iff, receive_iff hwf]
    simp only [parsesToBlock_iff hparse]
    constructor
    · rintro h ⟨slot, ⟨block, rfl, rfl⟩, hnone⟩
      exact absurd ((h block rfl).symm.trans hnone) (by decide)
    · rintro h block rfl
      by_contra hnone
      exact h ⟨block.slot, ⟨block, rfl, rfl⟩, Bool.eq_false_of_not_eq_true hnone⟩

/-- A block of slot 5 without contents. -/
def blockUpdate : SubscribeUpdate where
  filters := []
  updateOneof := some (.block
    { slot := 5
      blockhash := ""
      rewards := none
      blockTime := none
      blockHeight := none
      parentSlot := 0
      parentBlockhash := ""
      executedTransactionCount := 0
      transactions := []
      updatedAccountCount := 0
      accounts := []
      entriesCount := 0
      entries := [] })
  createdAt := some ⟨0, 0⟩

/-- The processed status of slot 5. -/
def slotUpdate : SubscribeUpdate where
  filters := []
  updateOneof := some (.slot { slot := 5, parent := none, status := 0, deadError := none })
  createdAt := some ⟨0, 0⟩

def blockBuffer : Bytes := [42, 2, 8, 5, 90, 0]

def slotBuffer : Bytes := [26, 2, 8, 5, 90, 0]

example : Encoding.generatedBytes ((Filters.geyser Encoding.wire).update blockUpdate) =
    blockBuffer := by decide

/-- The decoder on both buffers. -/
def decodeBoth (buffer : Bytes) : Except String SubscribeUpdate :=
  if buffer = blockBuffer then .ok blockUpdate
  else if buffer = slotBuffer then .ok slotUpdate
  else .error "invalid wire type"

/-- The parser on both buffers. -/
def parseBoth (buffer : Bytes) : Except MessageParseError ParsedMessage :=
  Message.parse decodeBoth (Filters.geyser Encoding.wire) Finset.card buffer

/-- A status is pushed again. -/
theorem push_completes_status : ∃ sender,
    (Messages.new ⟨4, 2, 10⟩ false).toSender.pushAll ([slotBuffer].map parseBoth) = .ok sender ∧
      sender.Completes (parseBoth slotBuffer) := by
  have hrun : ((Messages.new ⟨4, 2, 10⟩ false).toSender.pushAll
      ([slotBuffer].map parseBoth)).toOption.map (fun sender => sender.processed.tail) =
        some 5 := by
    decide +kernel
  obtain ⟨sender, hok, -⟩ := exists_of_toOption hrun
  refine ⟨sender, hok, (push_completes_iff decodeBoth _ _ _ _ hok slotBuffer).mpr ?_⟩
  rintro ⟨slot, ⟨update, message, hdecode, honeof, -⟩, -⟩
  cases (show decodeBoth slotBuffer = .ok slotUpdate from rfl).symm.trans hdecode
  cases honeof

/-- A block is not pushed: the first update of a slot may be one. -/
theorem block_update_panics :
    (Messages.new ⟨4, 2, 10⟩ false).toSender.receiveBuffer (parseBoth blockBuffer) =
        .error .unreachable ∧
      ¬(Messages.new ⟨4, 2, 10⟩ false).toSender.Completes (parseBoth blockBuffer) := by
  have hpanic : (Messages.new ⟨4, 2, 10⟩ false).toSender.receiveBuffer (parseBoth blockBuffer) =
      .error .unreachable := rfl
  refine ⟨hpanic, ?_⟩
  rintro (⟨e, h⟩ | ⟨sender', received, h⟩)
  · cases hpanic.symm.trans h
  · cases hpanic.symm.trans h

end Sender

end Dragonmouth.Richat
