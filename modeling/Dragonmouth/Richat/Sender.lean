import Dragonmouth.Richat.RingRetained
import Dragonmouth.Richat.SlotInfo

/-!
# The sender and its three rings

`Sender::push` stores a message with its slot, copies status updates and the
messages of confirmed and finalized slots to their rings, and pushes the message
and the block it completes to the processed ring. Parsing is not part of the
model: a run is given by what the parser returns.

## Main definitions

- `Messages`, `Messages.getCurrentTail`: the channel as its readers see it
- `Sender.push`, `Sender.pushAll`: one buffer, and a run of buffers
- `Sender.ringOps`: the operations `push` performs on one ring
-/

namespace Dragonmouth.Richat

/-- The commitment levels a reader chooses from. -/
inductive CommitmentLevel where
  | processed
  | confirmed
  | finalized
  deriving DecidableEq

inductive MessageParseError where
  | prost (description : String)
  | fieldNotDefined (field : String)
  | invalidEnumValue (value : ℤ)
  | invalidPubkey
  | invalidSignature
  | invalidUpdateMessage (kind : String)
  | incompatibleEncoding
  deriving DecidableEq

structure ConfigChannelInner where
  maxMessages : ℕ
  maxSlots : ℕ
  maxBytes : ℕ

structure Messages where
  grpc : Bool
  sharedProcessed : Shared
  sharedConfirmed : Shared
  sharedFinalized : Shared
  maxMessages : ℕ
  maxSlots : ℕ
  maxBytes : ℕ

structure Sender where
  slotsMax : ℕ
  bytesMax : ℕ
  slots : OrderedMap Slot SlotInfo
  grpc : Bool
  processed : SenderShared
  confirmed : SenderShared
  finalized : SenderShared

namespace Messages

def new (config : ConfigChannelInner) (grpc : Bool) : Messages :=
  let maxMessages := config.maxMessages.nextPowerOfTwo
  { grpc := grpc
    sharedProcessed := .new maxMessages
    sharedConfirmed := .new (if grpc then maxMessages else 0)
    sharedFinalized := .new (if grpc then maxMessages else 0)
    maxMessages := maxMessages
    maxSlots := config.maxSlots
    maxBytes := config.maxBytes }

def toSender (messages : Messages) : Sender :=
  { slotsMax := messages.maxSlots
    bytesMax := messages.maxBytes
    slots := ∅
    grpc := messages.grpc
    processed := .new messages.sharedProcessed messages.maxMessages
    confirmed := .new messages.sharedConfirmed messages.maxMessages
    finalized := .new messages.sharedFinalized messages.maxMessages }

def shared (messages : Messages) : CommitmentLevel → Shared
  | .processed => messages.sharedProcessed
  | .confirmed => messages.sharedConfirmed
  | .finalized => messages.sharedFinalized

def getCurrentTail (messages : Messages) (commitment : CommitmentLevel)
    (replayFromSlot : Option Slot) : Option ℕ :=
  match replayFromSlot with
  | some slot => ((messages.shared commitment).slots.lookup slot).map SlotHead.head
  | none => some (messages.shared commitment).tail

end Messages

/-- Push the messages of a slot one after the other. -/
def SenderShared.pushMessages (slot : Slot) : SenderShared → List ParsedMessage → Outcome
  | ring, [] => .ok ring
  | ring, message :: messages => do
    let ring ← ring.push slot message
    pushMessages slot ring messages

/-- The result of a ring operation within a push of the sender. -/
def Outcome.lift (outcome : Outcome) : Except Panic SenderShared :=
  Except.mapError Panicked.panic outcome

namespace Sender

/-- The part of the channel shared with the readers, as the sender has left it. -/
def share (sender : Sender) (messages : Messages) : Messages :=
  { messages with
    sharedProcessed := sender.processed.shared
    sharedConfirmed := sender.confirmed.shared
    sharedFinalized := sender.finalized.shared }

def ring (sender : Sender) : CommitmentLevel → SenderShared
  | .processed => sender.processed
  | .confirmed => sender.confirmed
  | .finalized => sender.finalized

/-- Copy the messages of a slot to a ring and clear it. -/
def copyMessages (sender : Sender) (slot : Slot) (ring : SenderShared) :
    Except Panic SenderShared :=
  match sender.slots.lookup slot with
  | some slotInfo => do
    let ring ← (ring.pushMessages slot slotInfo.getMessages).lift
    (ring.tryClear sender.bytesMax sender.slotsMax).lift
  | none => .ok ring

/-- Remove slot info: the loop over the keys up to a slot. Run with their number. -/
def removeSlots (slot : Slot) : ℕ → OrderedMap Slot SlotInfo → OrderedMap Slot SlotInfo
  | 0, slots => slots
  | n + 1, slots =>
    match slots.firstKey with
    | some slotMin =>
      if slotMin ≤ slot then removeSlots slot n (slots.erase slotMin) else slots
    | none => slots

/-- Push a status to confirmed / finalized, and the messages of the slot to the
ring of its level. -/
def pushStatus (sender : Sender) (slot : Slot) (msg : MessageSlot) : Except Panic Sender := do
  let confirmed ← (sender.confirmed.push slot (.slot msg)).lift
  let finalized ← (sender.finalized.push slot (.slot msg)).lift
  let sender := { sender with confirmed := confirmed, finalized := finalized }
  match msg.commitment with
  | .confirmed => do
    let confirmed ← sender.copyMessages slot sender.confirmed
    .ok { sender with confirmed := confirmed }
  | .finalized => do
    let finalized ← sender.copyMessages slot sender.finalized
    .ok { sender with
      finalized := finalized
      slots := removeSlots slot sender.slots.len sender.slots }
  | _ => .ok sender

/-- Push messages to confirmed / finalized. -/
def pushCommitted (sender : Sender) (slot : Slot) (message : ParsedMessage) :
    Except Panic Sender :=
  if sender.grpc then
    match message with
    | .slot msg => sender.pushStatus slot msg
    | _ => .ok sender
  else .ok sender

/-- One message of a push: to confirmed / finalized, then to processed. -/
def pushMessage (sender : Sender) (slot : Slot) (message : ParsedMessage) :
    Except Panic Sender := do
  let sender ← sender.pushCommitted slot message
  let processed ← (sender.processed.push slot message).lift
  .ok { sender with processed := processed }

/-- Push messages. -/
def pushEach (slot : Slot) : Sender → List ParsedMessage → Except Panic Sender
  | sender, [] => .ok sender
  | sender, message :: messages => do
    let sender ← sender.pushMessage slot message
    pushEach slot sender messages

/-- Get or create slot info, and the block the message completes. -/
def receive (sender : Sender) (message : ParsedMessage) :
    Except Panic (SlotInfo × Option ParsedMessage) :=
  ((sender.slots.lookup message.slotOf).getD (SlotInfo.new message.slotOf)).getBlockMessage message

/-- `Sender::push` of a parsed message. -/
def pushParsed (sender : Sender) (message : ParsedMessage) : Except Panic Sender := do
  let slot := message.slotOf
  let (slotInfo, messageBlock) ← sender.receive message
  let sender := { sender with slots := sender.slots.insert slot slotInfo }
  let sender ← sender.pushEach slot (message :: messageBlock.toList)
  let processed ← (sender.processed.tryClear sender.bytesMax sender.slotsMax).lift
  .ok { sender with processed := processed }

/-- `Sender::push`. A buffer that does not parse changes nothing. -/
def push (sender : Sender) (parsed : Except MessageParseError ParsedMessage) :
    Except Panic (Sender × Except MessageParseError Unit) :=
  match parsed with
  | .error e => .ok (sender, .error e)
  | .ok message => do
    let sender ← sender.pushParsed message
    .ok (sender, .ok ())

/-- A run of pushes, up to a panic. -/
def pushAll : Sender → List (Except MessageParseError ParsedMessage) → Except Panic Sender
  | sender, [] => .ok sender
  | sender, parsed :: rest => do
    let (sender, _) ← sender.push parsed
    sender.pushAll rest

-- ════════════════════════════════════════════════════════════════════════
-- The operations on one ring
-- ════════════════════════════════════════════════════════════════════════

end Sender

/-- The status that announces a commitment level. -/
def CommitmentLevel.status : CommitmentLevel → Proto.CommitmentLevel
  | .processed => .processed
  | .confirmed => .confirmed
  | .finalized => .finalized

/-- Pushes of messages to one slot. -/
def pushOps (slot : Slot) (messages : List ParsedMessage) : List RingOp :=
  messages.map fun message => .push (slot, message)

namespace Sender

/-- The operations on the ring of a confirmed or finalized level: a copy of every
status, then at the status of the level the messages of the slot. -/
def committedOps (sender : Sender) (level : CommitmentLevel) (stored : List ParsedMessage) :
    ParsedMessage → List RingOp
  | .slot msg =>
    .push (msg.slot, .slot msg) ::
      if msg.commitment = level.status then
        pushOps msg.slot stored ++ [.clear sender.bytesMax sender.slotsMax]
      else []
  | _ => []

/-- The operations a push performs on the ring of a level. -/
def ringOps (sender : Sender) (message : ParsedMessage) (level : CommitmentLevel) :
    List RingOp :=
  match sender.receive message with
  | .error _ => []
  | .ok (slotInfo, messageBlock) =>
    match level with
    | .processed =>
      pushOps message.slotOf (message :: messageBlock.toList) ++
        [.clear sender.bytesMax sender.slotsMax]
    | level =>
      if sender.grpc then sender.committedOps level slotInfo.getMessages message else []

/-- The operations a run performs on the ring of a level. -/
def ringOpsAll (level : CommitmentLevel) :
    Sender → List (Except MessageParseError ParsedMessage) → List RingOp
  | _, [] => []
  | sender, .error _ :: rest => ringOpsAll level sender rest
  | sender, .ok message :: rest =>
    sender.ringOps message level ++
      match sender.pushParsed message with
      | .error _ => []
      | .ok sender' => ringOpsAll level sender' rest

variable {sender sender' : Sender} {level : CommitmentLevel}

theorem exists_of_bind {ε α β : Type} {x : Except ε α} {f : α → Except ε β} {b : β}
    (h : x >>= f = .ok b) : ∃ a, x = .ok a ∧ f a = .ok b := by
  cases x with
  | error e => cases h
  | ok a => exact ⟨a, rfl, h⟩

theorem lift_eq_ok {outcome : Outcome} {ring : SenderShared} :
    outcome.lift = .ok ring ↔ outcome = .ok ring := by
  cases outcome <;> simp [Outcome.lift, Except.mapError]

theorem runOps_append {ring : SenderShared} (ops ops' : List RingOp) :
    ring.runOps (ops ++ ops') = ring.runOps ops >>= fun ring => ring.runOps ops' := by
  induction ops generalizing ring with
  | nil => rfl
  | cons op ops ih =>
    simp only [List.cons_append, SenderShared.runOps, bind_assoc, ih]

theorem pushMessages_eq (slot : Slot) (ring : SenderShared) (messages : List ParsedMessage) :
    ring.pushMessages slot messages = ring.runOps (pushOps slot messages) := by
  induction messages generalizing ring with
  | nil => rfl
  | cons message messages ih =>
    simp only [SenderShared.pushMessages, pushOps, List.map_cons, SenderShared.runOps, RingOp.run,
      ih]

theorem runOps_singleton (ring : SenderShared) (op : RingOp) :
    ring.runOps [op] = op.run ring := by
  simp only [SenderShared.runOps]
  cases op.run ring <;> rfl

theorem copyMessages_ok {ring ring' : SenderShared} {slot : Slot} {slotInfo : SlotInfo}
    (hl : sender.slots.lookup slot = some slotInfo)
    (hok : sender.copyMessages slot ring = .ok ring') :
    ring.runOps (pushOps slot slotInfo.getMessages ++
      [.clear sender.bytesMax sender.slotsMax]) = .ok ring' := by
  simp only [copyMessages, hl] at hok
  obtain ⟨ring₁, hpush, hclear⟩ := exists_of_bind hok
  rw [lift_eq_ok, pushMessages_eq] at hpush
  rw [lift_eq_ok] at hclear
  rw [runOps_append, hpush]
  exact (runOps_singleton _ _).trans hclear

theorem removeSlots_lookup {slot : Slot} {n : ℕ} {slots : OrderedMap Slot SlotInfo}
    (hn : slots.len ≤ n) (k : Slot) : (removeSlots slot n slots).lookup k =
      if k ≤ slot then none else slots.lookup k := by
  induction n generalizing slots with
  | zero =>
    have hnone : slots.firstKey = none := Finmap.firstKey_eq_none.mpr (by omega)
    rw [removeSlots, Finmap.lookup_eq_none.mpr (Finmap.notMem_of_firstKey hnone k), ite_self]
  | succ n ih =>
    rw [removeSlots]
    cases hf : slots.firstKey with
    | none =>
      rw [Finmap.lookup_eq_none.mpr (Finmap.notMem_of_firstKey hf k), ite_self]
    | some slotMin =>
      have hmem := Finmap.mem_of_firstKey hf
      have hlen := Finmap.len_erase_of_mem hmem
      by_cases hle : slotMin ≤ slot
      · simp only [if_pos hle]
        rw [ih (by omega)]
        by_cases hk : k = slotMin
        · rw [if_pos (hk ▸ hle), if_pos (hk ▸ hle)]
        · rw [Finmap.lookup_erase_ne hk]
      · simp only [if_neg hle]
        split
        · rename_i hk
          refine Finmap.lookup_eq_none.mpr fun hkm => hle ?_
          exact (Finmap.firstKey_le hf hkm).trans hk
        · rfl

/-- The entries left of a slot after a message of a slot. -/
def slotsAfter (sender : Sender) (message : ParsedMessage) : Slot → Option SlotInfo :=
  fun k => match message with
    | .slot msg =>
      if sender.grpc = true ∧ msg.commitment = .finalized ∧ k ≤ msg.slot then none
      else sender.slots.lookup k
    | _ => sender.slots.lookup k

/-- What one message of a push changes. -/
structure PushesMessage (sender : Sender) (message : ParsedMessage) (stored : List ParsedMessage)
    (sender' : Sender) : Prop where
  grpc : sender'.grpc = sender.grpc
  bytesMax : sender'.bytesMax = sender.bytesMax
  slotsMax : sender'.slotsMax = sender.slotsMax
  slots : ∀ k, sender'.slots.lookup k = sender.slotsAfter message k
  committed : ∀ level, level ≠ .processed → (sender.ring level).runOps
    (if sender.grpc then sender.committedOps level stored message else []) =
      .ok (sender'.ring level)

theorem pushStatus_ok {slotInfo : SlotInfo} {msg : MessageSlot} (hg : sender.grpc = true)
    (hl : sender.slots.lookup msg.slot = some slotInfo)
    (hok : sender.pushStatus msg.slot msg = .ok sender') :
    sender.PushesMessage (.slot msg) slotInfo.getMessages sender' ∧
      sender'.processed = sender.processed := by
  obtain ⟨confirmed, hc, hok⟩ := exists_of_bind hok
  obtain ⟨finalized, hf, hok⟩ := exists_of_bind hok
  rw [lift_eq_ok] at hc hf
  have hstatus : ∀ level, msg.commitment ≠ level.status →
      (sender.ring level).runOps (sender.committedOps level slotInfo.getMessages (.slot msg)) =
        (sender.ring level).push msg.slot (.slot msg) := by
    intro level hne
    rw [committedOps, if_neg hne]
    exact runOps_singleton _ _
  have hcopied : ∀ level ring ring', (sender.ring level).push msg.slot (.slot msg) = .ok ring →
      msg.commitment = level.status →
      ring.runOps (pushOps msg.slot slotInfo.getMessages ++
        [.clear sender.bytesMax sender.slotsMax]) = .ok ring' →
      (sender.ring level).runOps (sender.committedOps level slotInfo.getMessages (.slot msg)) =
        .ok ring' := by
    intro level ring ring' hpush he hrun
    rw [committedOps, if_pos he, SenderShared.runOps, RingOp.run, hpush]
    exact hrun
  cases hcm : msg.commitment with
  | confirmed =>
    simp only [hcm] at hok
    obtain ⟨confirmed', hcopy, hok⟩ := exists_of_bind hok
    cases hok
    refine ⟨⟨rfl, rfl, rfl, fun k => by simp [slotsAfter, hcm], fun level hne => ?_⟩, rfl⟩
    rw [if_pos hg]
    cases level with
    | processed => exact absurd rfl hne
    | confirmed => exact hcopied .confirmed _ _ hc hcm (copyMessages_ok hl hcopy)
    | finalized => exact (hstatus .finalized (by simp [hcm, CommitmentLevel.status])).trans hf
  | finalized =>
    simp only [hcm] at hok
    obtain ⟨finalized', hcopy, hok⟩ := exists_of_bind hok
    cases hok
    refine ⟨⟨rfl, rfl, rfl, fun k => ?_, fun level hne => ?_⟩, rfl⟩
    · rw [removeSlots_lookup le_rfl]
      simp [slotsAfter, hcm, hg]
    · rw [if_pos hg]
      cases level with
      | processed => exact absurd rfl hne
      | confirmed => exact (hstatus .confirmed (by simp [hcm, CommitmentLevel.status])).trans hc
      | finalized => exact hcopied .finalized _ _ hf hcm (copyMessages_ok hl hcopy)
  | _ =>
    simp only [hcm] at hok
    cases hok
    refine ⟨⟨rfl, rfl, rfl, fun k => by simp [slotsAfter, hcm], fun level hne => ?_⟩, rfl⟩
    rw [if_pos hg]
    cases level with
    | processed => exact absurd rfl hne
    | confirmed => exact (hstatus .confirmed (by simp [hcm, CommitmentLevel.status])).trans hc
    | finalized => exact (hstatus .finalized (by simp [hcm, CommitmentLevel.status])).trans hf

/-- The stored messages a status finds. -/
def Finds (sender : Sender) (slot : Slot) (message : ParsedMessage)
    (stored : List ParsedMessage) : Prop :=
  ∀ msg, message = .slot msg → msg.slot = slot ∧
    ∃ slotInfo, sender.slots.lookup slot = some slotInfo ∧ stored = slotInfo.getMessages

theorem pushCommitted_ok {stored : List ParsedMessage} {message : ParsedMessage} {slot : Slot}
    (hs : sender.Finds slot message stored)
    (hok : sender.pushCommitted slot message = .ok sender') :
    sender.PushesMessage message stored sender' ∧ sender'.processed = sender.processed := by
  unfold pushCommitted at hok
  cases hg : sender.grpc with
  | true =>
    rw [hg, if_pos rfl] at hok
    cases message with
    | slot msg =>
      obtain ⟨rfl, slotInfo, hl, rfl⟩ := hs msg rfl
      exact pushStatus_ok hg hl hok
    | _ =>
      cases hok
      refine ⟨⟨rfl, rfl, rfl, fun _ => rfl, fun level _ => ?_⟩, rfl⟩
      rw [if_pos hg]
      rfl
  | false =>
    rw [hg, if_neg Bool.false_ne_true] at hok
    cases hok
    refine ⟨⟨rfl, rfl, rfl, fun k => ?_, fun level _ => ?_⟩, rfl⟩
    · cases message <;> simp [slotsAfter, hg]
    · rw [hg, if_neg Bool.false_ne_true]
      rfl

theorem pushMessage_ok {stored : List ParsedMessage} {message : ParsedMessage} {slot : Slot}
    (hs : sender.Finds slot message stored) (hok : sender.pushMessage slot message = .ok sender') :
    sender.PushesMessage message stored sender' ∧
      sender.processed.push slot message = .ok sender'.processed := by
  obtain ⟨sender₁, hc, hok⟩ := exists_of_bind hok
  obtain ⟨processed, hp, hok⟩ := exists_of_bind hok
  rw [lift_eq_ok] at hp
  cases hok
  obtain ⟨hpm, hproc⟩ := pushCommitted_ok hs hc
  refine ⟨⟨hpm.grpc, hpm.bytesMax, hpm.slotsMax, hpm.slots, fun level hne => ?_⟩, hproc ▸ hp⟩
  have hrun := hpm.committed level hne
  cases level with
  | processed => exact absurd rfl hne
  | _ => exact hrun

/-- A push of messages of which only the first may be a status. -/
theorem pushEach_ok {stored : List ParsedMessage} {message : ParsedMessage} {slot : Slot}
    {messageBlock : Option ParsedMessage} (hs : sender.Finds slot message stored)
    (hb : ∀ b, messageBlock = some b → ∃ msg, b = .block msg)
    (hok : sender.pushEach slot (message :: messageBlock.toList) = .ok sender') :
    sender.PushesMessage message stored sender' ∧
      sender.processed.runOps (pushOps slot (message :: messageBlock.toList)) =
        .ok sender'.processed := by
  obtain ⟨sender₁, hfirst, hrest⟩ := exists_of_bind hok
  obtain ⟨hpm, hp⟩ := pushMessage_ok hs hfirst
  rw [pushOps, List.map_cons, SenderShared.runOps, RingOp.run, hp]
  cases messageBlock with
  | none =>
    cases hrest
    exact ⟨hpm, rfl⟩
  | some b =>
    obtain ⟨msg, rfl⟩ := hb b rfl
    obtain ⟨sender₂, hsecond, hrest⟩ := exists_of_bind hrest
    cases hrest
    have hnone : sender₁.Finds slot (.block msg) [] := fun _ h => by cases h
    obtain ⟨hpm₂, hp₂⟩ := pushMessage_ok hnone hsecond
    refine ⟨⟨hpm₂.grpc.trans hpm.grpc, hpm₂.bytesMax.trans hpm.bytesMax,
      hpm₂.slotsMax.trans hpm.slotsMax, fun k => (hpm₂.slots k).trans (hpm.slots k),
      fun level hne => ?_⟩, (runOps_singleton _ _).trans hp₂⟩
    have hsame := hpm₂.committed level hne
    simp only [committedOps, ite_self, SenderShared.runOps, Except.ok.injEq] at hsame
    rw [← hsame]
    exact hpm.committed level hne

/-- What a push changes: the slots, and each ring by its operations. -/
structure Pushes (sender : Sender) (message : ParsedMessage) (slotInfo : SlotInfo)
    (messageBlock : Option ParsedMessage) (sender' : Sender) : Prop where
  received : sender.receive message = .ok (slotInfo, messageBlock)
  grpc : sender'.grpc = sender.grpc
  bytesMax : sender'.bytesMax = sender.bytesMax
  slotsMax : sender'.slotsMax = sender.slotsMax
  slots : ∀ k, sender'.slots.lookup k =
    { sender with slots := sender.slots.insert message.slotOf slotInfo }.slotsAfter message k
  ring : ∀ level, (sender.ring level).runOps (sender.ringOps message level) =
    .ok (sender'.ring level)

/-- A push that returns performs the operations of each ring. -/
theorem pushParsed_ok {message : ParsedMessage} (hok : sender.pushParsed message = .ok sender') :
    ∃ slotInfo messageBlock, sender.Pushes message slotInfo messageBlock sender' := by
  obtain ⟨⟨slotInfo, messageBlock⟩, hr, hok⟩ := exists_of_bind hok
  obtain ⟨sender₁, heach, hok⟩ := exists_of_bind hok
  obtain ⟨processed, hclear, hok⟩ := exists_of_bind hok
  rw [lift_eq_ok] at hclear
  cases hok
  have hfinds : { sender with slots := sender.slots.insert message.slotOf slotInfo }.Finds
      message.slotOf message slotInfo.getMessages := by
    rintro msg rfl
    exact ⟨rfl, slotInfo, Finmap.lookup_insert _, rfl⟩
  have hblock : ∀ b, messageBlock = some b → ∃ msg, b = .block msg := by
    rintro b rfl
    exact SlotInfo.getBlockMessage_block hr
  obtain ⟨hpm, hp⟩ := pushEach_ok hfinds hblock heach
  refine ⟨slotInfo, messageBlock, hr, hpm.grpc, hpm.bytesMax, hpm.slotsMax, hpm.slots,
    fun level => ?_⟩
  rw [ringOps, hr]
  cases level with
  | processed =>
    change (sender.processed.runOps _) = _
    rw [runOps_append, hp, ← hpm.bytesMax, ← hpm.slotsMax]
    exact (runOps_singleton _ _).trans hclear
  | confirmed => exact hpm.committed .confirmed (by decide)
  | finalized => exact hpm.committed .finalized (by decide)

/-- A run that returns performs the operations of each ring. -/
theorem pushAll_ring {run : List (Except MessageParseError ParsedMessage)}
    (hok : sender.pushAll run = .ok sender') (level : CommitmentLevel) :
    (sender.ring level).runOps (ringOpsAll level sender run) = .ok (sender'.ring level) := by
  induction run generalizing sender with
  | nil =>
    cases hok
    rfl
  | cons parsed run ih =>
    obtain ⟨⟨sender₁, result⟩, hpush, hrest⟩ := exists_of_bind hok
    cases parsed with
    | error e =>
      cases hpush
      exact ih hrest
    | ok message =>
      obtain ⟨sender₂, hparsed, hres⟩ := exists_of_bind hpush
      cases hres
      obtain ⟨slotInfo, messageBlock, hp⟩ := pushParsed_ok hparsed
      rw [ringOpsAll, hparsed, runOps_append, hp.ring level]
      exact ih hrest

end Sender

end Dragonmouth.Richat
