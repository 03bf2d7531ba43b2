import Dragonmouth.Richat.ReplayIndex

/-!
# What the rings of confirmed and finalized messages deliver

At the status of a level the messages stored for the slot are copied to the ring
of the level. Every message of the slot arrives there exactly once if nothing of
the slot follows the status, what precedes it is still stored, and a repeated
status finds nothing stored.

## Main definitions

- `Watch`: what has happened to a slot so far, with regard to a level
- `Sender.Delivers`: a message that keeps the delivery exact
- `Sender.Exact`: the invariant of a slot along a run
-/

namespace Dragonmouth.Richat

/-- The contents of a slot among the messages pushed to a ring, in order. -/
def contentsOf (slot : Slot) (log : List Pushed) : List ParsedMessage :=
  (log.filter fun x => x.1 = slot ∧ x.2.isContent).map Prod.snd

/-- The message is the status of a level for a slot. -/
def ParsedMessage.isStatus (level : CommitmentLevel) (slot : Slot) : ParsedMessage → Bool
  | .slot msg => msg.slot = slot ∧ msg.commitment = level.status
  | _ => false

/-- The message makes the sender discard what it stores of a slot. -/
def ParsedMessage.discards (slot : Slot) : ParsedMessage → Bool
  | .slot msg => msg.commitment = .finalized ∧ slot ≤ msg.slot
  | _ => false

/-- What has happened to a slot so far, with regard to a level. -/
structure Watch where
  /-- The status of the level has been received. -/
  announced : Bool
  /-- Contents of the slot have been received. -/
  received : Bool
  /-- Some of them have been received after the block, or have been discarded. -/
  missed : Bool

namespace Sender

/-- The block of a slot has been created. -/
def created (sender : Sender) (slot : Slot) : Bool :=
  ((sender.slots.lookup slot).map SlotInfo.blockCreated).getD false

/-- The contents stored of a slot. -/
def stored (sender : Sender) (slot : Slot) : List ParsedMessage :=
  ((sender.slots.lookup slot).map SlotInfo.contents).getD []

end Sender

namespace Watch

def start : Watch := ⟨false, false, false⟩

/-- Record a message. -/
def next (w : Watch) (level : CommitmentLevel) (slot : Slot) (sender : Sender)
    (message : ParsedMessage) : Watch :=
  { announced := w.announced || message.isStatus level slot
    received := w.received || (message.slotOf = slot ∧ message.isContent)
    missed := w.missed || (message.discards slot && w.received) ||
      (message.slotOf = slot ∧ message.isContent ∧ sender.created slot) }

end Watch

namespace Sender

/-- The message keeps the delivery exact: contents come before the status, the
status when nothing has been missed, and again only when nothing is stored. -/
def Delivers (sender : Sender) (level : CommitmentLevel) (slot : Slot) (w : Watch)
    (message : ParsedMessage) : Prop :=
  (message.slotOf = slot → message.isContent → ¬w.announced) ∧
    (message.isStatus level slot → if w.announced then sender.stored slot = [] else ¬w.missed)

instance (sender : Sender) (level : CommitmentLevel) (slot : Slot) (w : Watch)
    (message : ParsedMessage) : Decidable (sender.Delivers level slot w message) :=
  inferInstanceAs (Decidable (_ ∧ _))

/-- Every message of a run keeps the delivery exact when its turn comes. -/
def DeliversAll (level : CommitmentLevel) (slot : Slot) :
    Sender → Watch → List (Except MessageParseError ParsedMessage) → Prop
  | _, _, [] => True
  | sender, w, .error _ :: run => DeliversAll level slot sender w run
  | sender, w, .ok message :: run => sender.Delivers level slot w message ∧
      ∀ sender', sender.pushParsed message = .ok sender' →
        DeliversAll level slot sender' (w.next level slot sender message) run

instance decidableDeliversAll (level : CommitmentLevel) (slot : Slot) :
    (run : List (Except MessageParseError ParsedMessage)) → (sender : Sender) → (w : Watch) →
    Decidable (DeliversAll level slot sender w run)
  | [], _, _ => .isTrue trivial
  | .error _ :: run, sender, w => decidableDeliversAll level slot run sender w
  | .ok message :: run, sender, w =>
    match hrun : sender.pushParsed message with
    | .error e => decidable_of_iff (sender.Delivers level slot w message)
        (by simp [DeliversAll, hrun])
    | .ok sender' =>
      have := decidableDeliversAll level slot run sender' (w.next level slot sender message)
      decidable_of_iff (sender.Delivers level slot w message ∧
        DeliversAll level slot sender' (w.next level slot sender message) run)
        (by simp [DeliversAll, hrun])

/-- The slots of a sender are good. -/
def WellFormed (sender : Sender) : Prop :=
  ∀ k slotInfo, sender.slots.lookup k = some slotInfo → slotInfo.WellFormed

/-- What has been delivered of a slot, `delivered`, against what has been pushed
to the processed ring, `pushed`. -/
structure Exact (sender : Sender) (slot : Slot) (w : Watch)
    (delivered pushed : List ParsedMessage) : Prop where
  received : w.received = false → pushed = []
  before : w.announced = false →
    delivered = [] ∧ (w.missed = false → sender.stored slot = pushed)
  after : w.announced = true → delivered = pushed

variable {sender sender' : Sender} {level : CommitmentLevel} {slot : Slot} {w : Watch}
  {message : ParsedMessage} {slotInfo : SlotInfo} {messageBlock : Option ParsedMessage}
  {delivered pushed : List ParsedMessage}

-- ════════════════════════════════════════════════════════════════════════
-- One push
-- ════════════════════════════════════════════════════════════════════════

theorem contentsOf_append (slot : Slot) (log log' : List Pushed) :
    contentsOf slot (log ++ log') = contentsOf slot log ++ contentsOf slot log' := by
  simp [contentsOf]

theorem contentsOf_pushOps (slot k : Slot) (messages : List ParsedMessage) :
    contentsOf slot (pushedBy (pushOps k messages)) =
      if k = slot then messages.filter ParsedMessage.isContent else [] := by
  have hpushed : pushedBy (pushOps k messages) = messages.map fun message => (k, message) := by
    simp [pushedBy, pushOps, RingOp.pushed, List.filterMap_map, Function.comp_def]
  rw [hpushed, contentsOf, List.filter_map, List.map_map]
  by_cases hk : k = slot
  · simp [hk, Function.comp_def]
  · simp [hk, Function.comp_def]

/-- A push of a slot the sender has not seen starts with an empty one. -/
theorem Pushes.of_slot (h : sender.Pushes message slotInfo messageBlock sender')
    (hwf : sender.WellFormed) : ∃ info : SlotInfo, info.Received message slotInfo messageBlock ∧
      info.contents = sender.stored message.slotOf ∧
      info.blockCreated = sender.created message.slotOf := by
  have hr := h.received
  rw [receive] at hr
  cases hl : sender.slots.lookup message.slotOf with
  | none =>
    rw [hl, Option.getD_none] at hr
    refine ⟨_, SlotInfo.getBlockMessage_spec (.new _) hr, ?_, ?_⟩
    · rw [Sender.stored, hl]
      rfl
    · rw [created, hl]
      rfl
  | some info =>
    rw [hl, Option.getD_some] at hr
    refine ⟨_, SlotInfo.getBlockMessage_spec (hwf _ _ hl) hr, ?_, ?_⟩
    · rw [Sender.stored, hl]
      rfl
    · rw [created, hl]
      rfl

/-- The slots after a push: with grpc a finalized status removes those up to its own. -/
theorem Pushes.lookup_eq (h : sender.Pushes message slotInfo messageBlock sender') (k : Slot) :
    sender'.slots.lookup k =
      if sender.grpc = true ∧ message.discards k = true then none
      else if k = message.slotOf then some slotInfo else sender.slots.lookup k := by
  rw [h.slots]
  cases message with
  | slot msg =>
    simp only [slotsAfter, ParsedMessage.discards, decide_eq_true_eq, Finmap.lookup_insert_eq]
  | _ =>
    simp only [slotsAfter, ParsedMessage.discards, Bool.false_eq_true, and_false, if_false,
      Finmap.lookup_insert_eq]

/-- The slots after a push with grpc. -/
theorem Pushes.lookup (h : sender.Pushes message slotInfo messageBlock sender')
    (hg : sender.grpc = true) (k : Slot) : sender'.slots.lookup k =
      if message.discards k then none
      else if k = message.slotOf then some slotInfo else sender.slots.lookup k := by
  simp only [h.lookup_eq, hg, true_and]

/-- What is stored of a slot after a push. -/
theorem Pushes.stored (h : sender.Pushes message slotInfo messageBlock sender')
    (hg : sender.grpc = true) (k : Slot) : sender'.stored k =
      if message.discards k then []
      else if k = message.slotOf then slotInfo.contents else sender.stored k := by
  rw [Sender.stored, h.lookup hg]
  split
  · rfl
  · split <;> rfl

theorem slotsAfter_some {k : Slot} {info : SlotInfo}
    (h : sender.slotsAfter message k = some info) : sender.slots.lookup k = some info := by
  cases message with
  | slot msg =>
    rw [slotsAfter] at h
    split at h
    · cases h
    · exact h
  | _ => exact h

/-- A slot after a push is the one pushed to, or as it was before. -/
theorem Pushes.lookup_some (h : sender.Pushes message slotInfo messageBlock sender') {k : Slot}
    {info : SlotInfo} (hk : sender'.slots.lookup k = some info) :
    info = slotInfo ∨ sender.slots.lookup k = some info := by
  rw [h.slots] at hk
  have hinsert := slotsAfter_some hk
  rw [Finmap.lookup_insert_eq] at hinsert
  split at hinsert
  · exact .inl (Option.some.inj hinsert).symm
  · exact .inr hinsert

theorem Pushes.wellFormed (h : sender.Pushes message slotInfo messageBlock sender')
    (hwf : sender.WellFormed) : sender'.WellFormed := by
  intro k info hk
  obtain rfl | hbefore := h.lookup_some hk
  · obtain ⟨_, hrec, -⟩ := h.of_slot hwf
    exact hrec.wellFormed
  · exact hwf k info hbefore

/-- What a push adds to the processed ring. -/
theorem Pushes.processed (h : sender.Pushes message slotInfo messageBlock sender') :
    contentsOf slot (pushedBy (sender.ringOps message .processed)) =
      if message.slotOf = slot then
        (message :: messageBlock.toList).filter ParsedMessage.isContent else [] := by
  rw [ringOps, h.received]
  simp only [pushedBy, List.filterMap_append, contentsOf_append]
  rw [show List.filterMap RingOp.pushed [.clear sender.bytesMax sender.slotsMax] = [] from rfl]
  exact (List.append_nil _).trans (contentsOf_pushOps _ _ _)

/-- What a push adds to the ring of a level: what is stored, at the status. -/
theorem Pushes.committed (h : sender.Pushes message slotInfo messageBlock sender')
    (hg : sender.grpc = true) (hl : level ≠ .processed) :
    contentsOf slot (pushedBy (sender.ringOps message level)) =
      if message.isStatus level slot then slotInfo.contents else [] := by
  have hops : sender.ringOps message level =
      sender.committedOps level slotInfo.getMessages message := by
    rw [ringOps, h.received]
    cases level with
    | processed => exact absurd rfl hl
    | _ => simp [hg]
  rw [hops]
  cases message with
  | slot msg =>
    have hcons : contentsOf slot (pushedBy (.push (msg.slot, .slot msg) ::
        if msg.commitment = level.status then pushOps msg.slot slotInfo.getMessages ++
          [.clear sender.bytesMax sender.slotsMax] else [])) =
        contentsOf slot (pushedBy (if msg.commitment = level.status then
          pushOps msg.slot slotInfo.getMessages ++
            [.clear sender.bytesMax sender.slotsMax] else [])) := by
      simp [pushedBy, RingOp.pushed, contentsOf, ParsedMessage.isContent]
    rw [committedOps, hcons]
    by_cases hc : msg.commitment = level.status
    · simp only [hc, if_true, pushedBy, List.filterMap_append, contentsOf_append]
      rw [show List.filterMap RingOp.pushed [.clear sender.bytesMax sender.slotsMax] = [] from rfl]
      refine (List.append_nil _).trans ((contentsOf_pushOps _ _ _).trans ?_)
      simp [ParsedMessage.isStatus, hc, SlotInfo.contents]
    · simp [hc, ParsedMessage.isStatus, pushedBy, contentsOf]
  | _ => rfl

/-- A push that adds nothing of the slot may at most discard what is stored. -/
theorem Exact.keep {discards : Bool} (he : sender.Exact slot w delivered pushed)
    (hs : sender'.stored slot = if discards then [] else sender.stored slot) :
    sender'.Exact slot ⟨w.announced, w.received, w.missed || (discards && w.received)⟩
      delivered pushed := by
  refine ⟨he.received, fun ha => ⟨(he.before ha).1, fun hm => ?_⟩, he.after⟩
  obtain ⟨hm, hdr⟩ := Bool.or_eq_false_iff.mp hm
  rw [hs]
  cases hdis : discards with
  | false => exact (he.before ha).2 hm
  | true =>
    rw [hdis, Bool.true_and] at hdr
    exact (he.received hdr).symm

/-- The contents a push adds while nothing has been announced. -/
theorem Exact.add (created : Bool) (added : List ParsedMessage)
    (he : sender.Exact slot w delivered pushed) (ha : w.announced = false)
    (hs : created = false → sender'.stored slot = sender.stored slot ++ added) :
    sender'.Exact slot ⟨false, true, w.missed || created⟩ delivered (pushed ++ added) := by
  refine ⟨fun hr => (by cases hr), fun _ => ⟨(he.before ha).1, fun hm => ?_⟩,
    fun hn => (by cases hn)⟩
  obtain ⟨hm, hc⟩ := Bool.or_eq_false_iff.mp hm
  rw [hs hc, (he.before ha).2 hm]

/-- A status delivers what is stored. -/
theorem Exact.announce {missed : Bool} (he : sender.Exact slot w delivered pushed)
    (hd : if w.announced then sender.stored slot = [] else ¬w.missed) :
    sender'.Exact slot ⟨true, w.received, missed⟩ (delivered ++ sender.stored slot) pushed := by
  refine ⟨he.received, fun hn => (by cases hn), fun _ => ?_⟩
  cases ha : w.announced with
  | true =>
    rw [ha, if_pos rfl] at hd
    rw [hd, List.append_nil, he.after ha]
  | false =>
    rw [ha, if_neg Bool.false_ne_true, Bool.not_eq_true] at hd
    obtain ⟨hnil, hstored⟩ := he.before ha
    rw [hnil, hstored hd, List.nil_append]

/-- Contents are neither a status nor do they discard anything. -/
theorem isContent_only (h : message.isContent = true) (level : CommitmentLevel) (slot : Slot) :
    message.isStatus level slot = false ∧ message.discards slot = false := by
  cases message with
  | slot msg => cases h
  | account msg => cases h
  | _ => exact ⟨rfl, rfl⟩

theorem slotOf_of_isStatus (h : message.isStatus level slot = true) : message.slotOf = slot := by
  cases message with
  | slot msg => exact (of_decide_eq_true h).1
  | _ => cases h

/-- A push that delivers keeps the delivery exact. -/
theorem Pushes.exact (h : sender.Pushes message slotInfo messageBlock sender')
    (hg : sender.grpc = true) (hl : level ≠ .processed) (hwf : sender.WellFormed)
    (he : sender.Exact slot w delivered pushed) (hd : sender.Delivers level slot w message) :
    sender'.Exact slot (w.next level slot sender message)
      (delivered ++ contentsOf slot (pushedBy (sender.ringOps message level)))
      (pushed ++ contentsOf slot (pushedBy (sender.ringOps message .processed))) := by
  rw [h.processed, h.committed hg hl]
  obtain ⟨info, hrec, hcont, hcreated⟩ := h.of_slot hwf
  have hstored := h.stored hg slot
  by_cases hslot : message.slotOf = slot
  · subst hslot
    rw [if_pos rfl] at hstored
    rw [if_pos rfl]
    cases hc : message.isContent with
    | true =>
      -- contents precede the status
      have ha : w.announced = false := Bool.not_eq_true _ ▸ hd.1 rfl hc
      obtain ⟨hstatus, hdis⟩ := isContent_only hc level message.slotOf
      rw [hdis, if_neg Bool.false_ne_true] at hstored
      have hadd := Exact.add (sender.created message.slotOf)
        ((message :: messageBlock.toList).filter ParsedMessage.isContent) he ha fun hcr => by
          rw [hstored, hrec.stored (hcreated.trans hcr), hcont]
      simpa [Watch.next, hstatus, hdis, ha, hc] using hadd
    | false =>
      have hnone : (message :: messageBlock.toList).filter ParsedMessage.isContent = [] := by
        rw [hrec.trigger hc]
        simp [hc]
      have hsame : slotInfo.contents = sender.stored message.slotOf := by
        rw [← hcont]
        cases hcr : info.blockCreated with
        | true => exact (hrec.extra hcr).1
        | false => rw [hrec.stored hcr, hnone, List.append_nil]
      rw [hnone, List.append_nil, hsame]
      cases hst : message.isStatus level message.slotOf with
      | true => simpa [Watch.next, hst, hc] using he.announce (hd.2 hst)
      | false =>
        rw [hsame] at hstored
        simpa [Watch.next, hst, hc] using he.keep hstored
  · have hst : message.isStatus level slot = false :=
      Bool.eq_false_iff.mpr fun hs => hslot (slotOf_of_isStatus hs)
    rw [if_neg (Ne.symm hslot)] at hstored
    simpa [Watch.next, hst, hslot] using he.keep hstored

-- ════════════════════════════════════════════════════════════════════════
-- Runs
-- ════════════════════════════════════════════════════════════════════════

/-- What has happened to a slot after a run. -/
def watchAll (level : CommitmentLevel) (slot : Slot) :
    Sender → Watch → List (Except MessageParseError ParsedMessage) → Watch
  | _, w, [] => w
  | sender, w, .error _ :: run => watchAll level slot sender w run
  | sender, w, .ok message :: run =>
    match sender.pushParsed message with
    | .error _ => w
    | .ok sender' => watchAll level slot sender' (w.next level slot sender message) run

variable {run : List (Except MessageParseError ParsedMessage)}

theorem pushAll_ok_cons (hok : sender.pushAll (.ok message :: run) = .ok sender') :
    ∃ sender₁, sender.pushParsed message = .ok sender₁ ∧ sender₁.pushAll run = .ok sender' := by
  obtain ⟨⟨sender₁, result⟩, hpush, hrest⟩ := exists_of_bind hok
  obtain ⟨sender₂, hparsed, hres⟩ := exists_of_bind hpush
  cases hres
  exact ⟨sender₁, hparsed, hrest⟩

theorem toSender_wellFormed (messages : Messages) : messages.toSender.WellFormed :=
  fun _ _ hk => by cases hk

theorem pushAll_wellFormed (hwf : sender.WellFormed) (hok : sender.pushAll run = .ok sender') :
    sender'.WellFormed := by
  induction run generalizing sender with
  | nil =>
    cases hok
    exact hwf
  | cons parsed run ih =>
    cases parsed with
    | error e => exact ih hwf hok
    | ok message =>
      obtain ⟨sender₁, hrun, hrest⟩ := pushAll_ok_cons hok
      obtain ⟨slotInfo, messageBlock, hp⟩ := pushParsed_ok hrun
      exact ih (hp.wellFormed hwf) hrest

/-- A run that delivers keeps the delivery exact. -/
theorem pushAll_exact (hg : sender.grpc = true) (hl : level ≠ .processed) (hwf : sender.WellFormed)
    (he : sender.Exact slot w delivered pushed) (hd : DeliversAll level slot sender w run)
    (hok : sender.pushAll run = .ok sender') :
    sender'.Exact slot (watchAll level slot sender w run)
      (delivered ++ contentsOf slot (pushedBy (ringOpsAll level sender run)))
      (pushed ++ contentsOf slot (pushedBy (ringOpsAll .processed sender run))) := by
  induction run generalizing sender w delivered pushed with
  | nil =>
    cases hok
    simpa [watchAll, ringOpsAll, pushedBy, contentsOf] using he
  | cons parsed run ih =>
    cases parsed with
    | error e => exact ih hg hwf he hd hok
    | ok message =>
      obtain ⟨sender₁, hrun, hrest⟩ := pushAll_ok_cons hok
      obtain ⟨slotInfo, messageBlock, hp⟩ := pushParsed_ok hrun
      have he₁ := hp.exact hg hl hwf he hd.1
      have hrec := ih (hp.grpc.trans hg) (hp.wellFormed hwf) he₁ (hd.2 sender₁ hrun) hrest
      simp only [watchAll, ringOpsAll, hrun]
      simp only [pushedBy, List.filterMap_append, contentsOf_append, ← List.append_assoc]
      exact hrec

/-- A status received is remembered. -/
theorem watchAll_announced (hok : sender.pushAll run = .ok sender')
    (h : w.announced = true ∨ ∃ message, .ok message ∈ run ∧ message.isStatus level slot = true) :
    (watchAll level slot sender w run).announced = true := by
  induction run generalizing sender w with
  | nil =>
    rcases h with ha | ⟨message, hm, -⟩
    · exact ha
    · cases hm
  | cons parsed run ih =>
    cases parsed with
    | error e =>
      refine ih hok (h.imp_right ?_)
      rintro ⟨message, hm, hs⟩
      rcases List.mem_cons.mp hm with hm | hm
      · cases hm
      · exact ⟨message, hm, hs⟩
    | ok message =>
      obtain ⟨sender₁, hrun, hrest⟩ := pushAll_ok_cons hok
      simp only [watchAll, hrun]
      refine ih hrest ?_
      rcases h with ha | ⟨message', hm, hs⟩
      · exact .inl (by simp [Watch.next, ha])
      · rcases List.mem_cons.mp hm with hm | hm
        · cases hm
          exact .inl (by simp [Watch.next, hs])
        · exact .inr ⟨message', hm, hs⟩

theorem Exact.start (config : ConfigChannelInner) (slot : Slot) :
    (Messages.new config true).toSender.Exact slot .start [] [] :=
  ⟨fun _ => rfl, fun _ => ⟨rfl, fun _ => rfl⟩, fun _ => rfl⟩

theorem count_eq_of_contentsOf {log log' : List Pushed}
    (h : contentsOf slot log = contentsOf slot log')
    (hc : message.isContent = true) : log.count (slot, message) = log'.count (slot, message) := by
  have hcount : ∀ l : List Pushed, l.count (slot, message) = (contentsOf slot l).count message := by
    intro l
    induction l with
    | nil => rfl
    | cons x l ih =>
      obtain ⟨k, m⟩ := x
      by_cases hk : k = slot
      · by_cases hm : m = message
        · simp_all [contentsOf]
        · by_cases hmc : m.isContent = true
          · simp_all [contentsOf]
          · simp_all [contentsOf]
      · simp_all [contentsOf]
  rw [hcount, hcount, h]

/-- After a run that delivers, with at least one status of the level for the slot,
every content of the slot pushed to the processed ring has been pushed to the ring
of the level exactly as often. -/
theorem committed_exactly_once (config : ConfigChannelInner) (level : CommitmentLevel)
    (hl : level ≠ .processed) (slot : Slot)
    (hok : (Messages.new config true).toSender.pushAll run = .ok sender)
    (hd : DeliversAll level slot (Messages.new config true).toSender .start run)
    (hstatus : ∃ message, .ok message ∈ run ∧ message.isStatus level slot = true)
    (message : ParsedMessage) (hc : message.isContent = true) :
    (pushedBy (ringOpsAll level (Messages.new config true).toSender run)).count (slot, message) =
      (pushedBy (ringOpsAll .processed (Messages.new config true).toSender run)).count
        (slot, message) := by
  have he := pushAll_exact rfl hl (toSender_wellFormed _) (.start config slot) hd hok
  exact count_eq_of_contentsOf (he.after (watchAll_announced hok (.inr hstatus))) hc

/-- An entry of a slot. -/
def entryOf (slot : Slot) : ParsedMessage :=
  .entry ⟨⟨slot, 0, 1, [], 0, 0⟩, ⟨0, 0⟩, 3⟩

/-- A confirmed status of a slot. -/
def confirmedOf (slot : Slot) : ParsedMessage :=
  .slot ⟨slot, none, .confirmed, none, ⟨0, 0⟩, 3⟩

/-- Entries of two slots, of which one is confirmed: its entry is in both rings. -/
theorem committed_exactly_once_entry : ∃ log log' : List Pushed,
    log = [(5, confirmedOf 5), (5, entryOf 5)] ∧
    log' = [(5, entryOf 5), (6, entryOf 6), (5, confirmedOf 5), (6, entryOf 6)] ∧
    log.count (5, entryOf 5) = log'.count (5, entryOf 5) := by
  have hrun : ((Messages.new ⟨8, 4, 100⟩ true).toSender.pushAll
      [.ok (entryOf 5), .ok (entryOf 6), .ok (confirmedOf 5), .ok (entryOf 6)]).toOption.map
      (fun sender => sender.processed.tail) = some 12 := by
    decide +kernel
  obtain ⟨sender, hok, -⟩ := exists_of_toOption hrun
  refine ⟨_, _, ?_, ?_, committed_exactly_once ⟨8, 4, 100⟩ .confirmed (by decide) 5 hok ?_
    ⟨confirmedOf 5, by simp, by decide⟩ (entryOf 5) rfl⟩
  · decide +kernel
  · decide +kernel
  · decide +kernel

/-- An entry that follows its slot's status is not delivered. -/
theorem late_entry_missing : ¬∀ (config : ConfigChannelInner) (level : CommitmentLevel)
    (slot : Slot) (run : List (Except MessageParseError ParsedMessage)) (sender : Sender),
    level ≠ .processed → (Messages.new config true).toSender.pushAll run = .ok sender →
    (∃ message, .ok message ∈ run ∧ message.isStatus level slot = true) →
    ∀ message : ParsedMessage, message.isContent = true →
    (pushedBy (ringOpsAll level (Messages.new config true).toSender run)).count (slot, message) =
      (pushedBy (ringOpsAll .processed (Messages.new config true).toSender run)).count
        (slot, message) := by
  intro hall
  have hrun : ((Messages.new ⟨8, 4, 100⟩ true).toSender.pushAll
      [.ok (confirmedOf 5), .ok (entryOf 5)]).toOption.map
      (fun sender => sender.processed.tail) = some 10 := by
    decide +kernel
  obtain ⟨sender, hok, -⟩ := exists_of_toOption hrun
  have hcount := hall ⟨8, 4, 100⟩ .confirmed 5 _ sender (by decide) hok
    ⟨confirmedOf 5, by simp, by decide⟩ (entryOf 5) rfl
  revert hcount
  decide +kernel

end Sender

end Dragonmouth.Richat
