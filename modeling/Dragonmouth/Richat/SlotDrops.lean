import Dragonmouth.Richat.SlotRelease
import Dragonmouth.Richat.SlotReports

/-!
# The slots a sender releases

The sender keeps what it stores of a slot until a finalized status removes it, or until
the sender itself ends. Along every run the slot has been given the messages received
since it was last removed, and its reports are those due for these.

## Main definitions

- `Sender.sinceRemoved`: what a slot has been given since it was removed
- `Sender.Drops`: the two ways a slot is released

## Main results

- `Sender.dropped_accounted`: every slot a sender releases is reported as it is due
-/

namespace Dragonmouth.Richat.Sender

/-- What a slot has been given, after one more buffer: with grpc a finalized status
removes the slots up to its own, else a message is given to its slot. -/
def sinceRemoved (grpc : Bool) (slot : Slot) (received : List ParsedMessage) :
    Except MessageParseError ParsedMessage → List ParsedMessage
  | .error _ => received
  | .ok message =>
    if grpc = true ∧ message.discards slot = true then []
    else if slot = message.slotOf then received ++ [message] else received

/-- What a run has given to a slot since it was last removed. -/
def givenIn (grpc : Bool) (slot : Slot) (run : List (Except MessageParseError ParsedMessage)) :
    List ParsedMessage :=
  run.foldl (sinceRemoved grpc slot) []

/-- The last message, if it is one of the slot. -/
def lastOf (slot : Slot) (last : Option ParsedMessage) : List ParsedMessage :=
  (last.filter fun message => slot = message.slotOf).toList

/-- The entry of a slot, as `push` gets or creates it. -/
def slotInfo (sender : Sender) (slot : Slot) : SlotInfo :=
  (sender.slots.lookup slot).getD (.new slot)

/-- The sender releases a slot: a push removes it after its message has been given, or
the sender ends. -/
inductive Drops (sender : Sender) (slot : Slot) (info : SlotInfo) :
    Option ParsedMessage → Prop where
  | removed {message : ParsedMessage} {sender' : Sender} {result : Except MessageParseError Unit}
      {slotInfo : SlotInfo} {messageBlock : Option ParsedMessage}
      (pushed : sender.push (.ok message) = .ok (sender', result))
      (received : sender.receive message = .ok (slotInfo, messageBlock))
      (held : (sender.slots.insert message.slotOf slotInfo).lookup slot = some info)
      (gone : sender'.slots.lookup slot = none) : Drops sender slot info (some message)
  | ended (held : sender.slots.lookup slot = some info) : Drops sender slot info none

/-- The sender stores a slot that has been given messages, and no other one. -/
structure Keeps (sender : Sender) (slot : Slot) (received : List ParsedMessage) : Prop where
  given : Given slot received (sender.slotInfo slot)
  stored : sender.slots.lookup slot = none ↔ received = []

variable {sender sender' : Sender} {slot : Slot} {info slotInfo : SlotInfo}
  {message : ParsedMessage} {messageBlock : Option ParsedMessage} {received : List ParsedMessage}
  {run : List (Except MessageParseError ParsedMessage)}

theorem slotInfo_of_lookup (h : sender.slots.lookup slot = some info) :
    sender.slotInfo slot = info := by
  rw [Sender.slotInfo, h, Option.getD_some]

/-- A slot is given the message a push receives for it. -/
theorem Keeps.receive (h : sender.Keeps slot received) (hslot : slot = message.slotOf)
    (hblock : message.NoBlock) (hreceive : sender.receive message = .ok (slotInfo, messageBlock)) :
    Given slot (received ++ [message]) slotInfo := by
  subst hslot
  exact h.given.message hblock hreceive

/-- A push gives its message to one slot, and may remove slots. -/
theorem Keeps.push (h : sender.Keeps slot received) (hblock : message.NoBlock)
    (hpush : sender.Pushes message slotInfo messageBlock sender') :
    sender'.Keeps slot (sinceRemoved sender.grpc slot received (.ok message)) := by
  have hlookup := hpush.lookup_eq slot
  rw [sinceRemoved]
  by_cases hremoved : sender.grpc = true ∧ message.discards slot = true
  · rw [if_pos hremoved] at hlookup ⊢
    refine ⟨?_, iff_of_true hlookup rfl⟩
    rw [Sender.slotInfo, hlookup]
    exact .new
  · rw [if_neg hremoved] at hlookup ⊢
    by_cases hslot : slot = message.slotOf
    · rw [if_pos hslot] at hlookup ⊢
      refine ⟨?_, iff_of_false (by simp [hlookup]) (by simp)⟩
      rw [slotInfo_of_lookup hlookup]
      exact h.receive hslot hblock hpush.received
    · rw [if_neg hslot] at hlookup ⊢
      refine ⟨?_, by rw [hlookup, h.stored]⟩
      rw [Sender.slotInfo, hlookup]
      exact h.given

/-- Along a run a slot is given what is received since it was last removed. -/
theorem Keeps.pushAll (h : sender.Keeps slot received)
    (hblocks : ∀ message, .ok message ∈ run → message.NoBlock)
    (hok : sender.pushAll run = .ok sender') :
    sender'.Keeps slot (run.foldl (sinceRemoved sender.grpc slot) received) := by
  induction run generalizing sender received with
  | nil =>
    cases hok
    exact h
  | cons parsed run ih =>
    have hrest : ∀ message, .ok message ∈ run → message.NoBlock :=
      fun message hmessage => hblocks message (List.mem_cons_of_mem _ hmessage)
    cases parsed with
    | error e => exact ih h hrest hok
    | ok message =>
      obtain ⟨sender₁, hpush, hok⟩ := pushAll_ok_cons hok
      obtain ⟨slotInfo, messageBlock, hp⟩ := pushParsed_ok hpush
      have hfirst := h.push (hblocks message List.mem_cons_self) hp
      rw [List.foldl_cons, ← hp.grpc]
      exact ih (hp.grpc ▸ hfirst) hrest hok

theorem Keeps.drops {last : Option ParsedMessage} (h : sender.Keeps slot received)
    (hlast : ∀ message ∈ last, message.NoBlock) (hdrops : sender.Drops slot info last) :
    Given slot (received ++ lastOf slot last) info := by
  cases hdrops with
  | @removed message sender' result slotInfo messageBlock pushed hreceive held gone =>
    rw [Finmap.lookup_insert_eq] at held
    by_cases hslot : slot = message.slotOf
    · rw [if_pos hslot] at held
      cases held
      have hlastOf : lastOf slot (some message) = [message] := by simp [lastOf, hslot]
      rw [hlastOf]
      exact h.receive hslot (hlast message rfl) hreceive
    · rw [if_neg hslot] at held
      have hlastOf : lastOf slot (some message) = [] := by simp [lastOf, hslot]
      rw [hlastOf, List.append_nil, ← slotInfo_of_lookup held]
      exact h.given
  | ended held =>
    rw [lastOf, Option.filter_none, Option.toList_none, List.append_nil,
      ← slotInfo_of_lookup held]
    exact h.given

theorem toSender_keeps (messages : Messages) (slot : Slot) : messages.toSender.Keeps slot [] :=
  ⟨.new, iff_of_true rfl rfl⟩

/-- After every run without blocks among its updates, the slots with messages since they
were last removed are stored, and whenever one is released, it has been given these
messages and is reported as is due for them. -/
theorem dropped_accounted (config : ConfigChannelInner) (grpc : Bool)
    (hblocks : ∀ message, .ok message ∈ run → message.NoBlock)
    (hrun : (Messages.new config grpc).toSender.pushAll run = .ok sender) (slot : Slot) :
    (sender.slots.lookup slot = none ↔ givenIn grpc slot run = []) ∧
    ∀ info last, (∀ message ∈ last, message.NoBlock) → sender.Drops slot info last →
      Given slot (givenIn grpc slot run ++ lastOf slot last) info ∧
      Accounted (givenIn grpc slot run ++ lastOf slot last) info.release.reports ∧
      info.release.reports.length ≤ 1 := by
  have hkeeps : sender.Keeps slot (givenIn grpc slot run) :=
    (toSender_keeps _ slot).pushAll hblocks hrun
  refine ⟨hkeeps.stored, fun info last hlast hdrops => ?_⟩
  have given := hkeeps.drops hlast hdrops
  exact ⟨given, given.accounted, given.accounted.length_le.1⟩

/-- A finalized slot whose entry never came: the push that removes it reports it. -/
theorem dropped_accounted_entry : ∃ sender info,
    (Messages.new ⟨8, 4, 100⟩ true).toSender.pushAll [.ok oneEntryMeta] = .ok sender ∧
    sender.Drops 5 info (some (.slot (finalizedOf 5))) ∧
    info.release.reports = [[.mismatchEntries]] ∧
    Accounted [oneEntryMeta, .slot (finalizedOf 5)] info.release.reports := by
  have hrun : ((Messages.new ⟨8, 4, 100⟩ true).toSender.pushAll
      [.ok oneEntryMeta]).toOption.map (fun sender =>
        ((sender.push (.ok (.slot (finalizedOf 5)))).toOption.map fun pushed =>
            (pushed.1.slots.lookup 5).isNone,
          (sender.receive (.slot (finalizedOf 5))).toOption.map fun received =>
            received.1.release.reports)) =
        some (some true, some [[.mismatchEntries]]) := by
    decide +kernel
  obtain ⟨sender, hok, hrest⟩ := exists_of_toOption hrun
  obtain ⟨hpushed, hreceived⟩ := Prod.mk.inj hrest
  obtain ⟨⟨sender', result⟩, hpush, hgone⟩ := exists_of_toOption hpushed
  obtain ⟨⟨info, messageBlock⟩, hreceive, hreports⟩ := exists_of_toOption hreceived
  have hdrops : sender.Drops 5 info (some (.slot (finalizedOf 5))) :=
    .removed hpush hreceive (Finmap.lookup_insert _) (Option.isNone_iff_eq_none.mp hgone)
  refine ⟨sender, info, hok, hdrops, hreports, ?_⟩
  have haccounted := dropped_accounted ⟨8, 4, 100⟩ true
    (fun message hmessage block hblock => by
      cases List.mem_singleton.mp hmessage
      cases hblock) hok 5
  exact (haccounted.2 info _ (fun message hmessage block hblock => by
    cases hmessage
    cases hblock) hdrops).2.1

end Dragonmouth.Richat.Sender
