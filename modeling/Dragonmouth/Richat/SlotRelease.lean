import Dragonmouth.Richat.CommitmentStreams

/-!
# Releasing what is stored of a slot

At the finalized status of a slot `push` removes what the sender stores of it and of
all slots before. The loop stands inside the branch that copies messages to the
confirmed and finalized rings, so a sender without grpc never removes anything: every
message of every slot stays with it.

## Main definitions

- `Sender.Releases`: what a finalized status leaves behind

## Main results

- `Sender.finalized_releases_iff`: which senders release their slots
-/

namespace Dragonmouth.Richat.Sender

variable {sender sender' : Sender} {run : List (Except MessageParseError ParsedMessage)}
  {msg : MessageSlot}

/-- Nothing is stored of the slots up to the finalized one, and what is stored of the
others is left alone. -/
def Releases (sender : Sender) (slot : Slot) (sender' : Sender) : Prop :=
  (∀ k, k ≤ slot → sender'.slots.lookup k = none) ∧
    ∀ k, slot < k → sender'.slots.lookup k = sender.slots.lookup k

theorem pushAll_grpc (hok : sender.pushAll run = .ok sender') : sender'.grpc = sender.grpc := by
  induction run generalizing sender with
  | nil =>
    cases hok
    rfl
  | cons parsed run ih =>
    cases parsed with
    | error e => exact ih hok
    | ok message =>
      obtain ⟨sender₁, hrun, hrest⟩ := pushAll_ok_cons hok
      obtain ⟨slotInfo, messageBlock, hp⟩ := pushParsed_ok hrun
      exact (ih hrest).trans hp.grpc

/-- A parsed message is pushed if the call returns. -/
theorem pushParsed_of_push {message : ParsedMessage} {result : Except MessageParseError Unit}
    (h : sender.push (.ok message) = .ok (sender', result)) :
    sender.pushParsed message = .ok sender' := by
  obtain ⟨sender₁, hparsed, hres⟩ := exists_of_bind h
  cases hres
  exact hparsed

/-- With grpc the slots up to the finalized one are removed. -/
theorem releases_of_grpc (hg : sender.grpc = true) (hfinal : msg.commitment = .finalized)
    (hpush : sender.pushParsed (.slot msg) = .ok sender') :
    sender.Releases msg.slot sender' := by
  obtain ⟨slotInfo, messageBlock, hp⟩ := pushParsed_ok hpush
  constructor
  · intro k hk
    rw [hp.lookup hg, if_pos]
    exact decide_eq_true ⟨hfinal, hk⟩
  · intro k hk
    have hkeep : ¬(ParsedMessage.slot msg).discards k = true :=
      fun h => Nat.not_le.mpr hk (of_decide_eq_true h).2
    have hother : ¬k = (ParsedMessage.slot msg).slotOf := Nat.ne_of_gt hk
    rw [hp.lookup hg, if_neg hkeep, if_neg hother]

/-- Without grpc the slot is stored after its finalized status. -/
theorem lookup_of_not_grpc (hg : sender.grpc = false)
    (hpush : sender.pushParsed (.slot msg) = .ok sender') :
    ∃ slotInfo, sender'.slots.lookup msg.slot = some slotInfo := by
  obtain ⟨slotInfo, messageBlock, hp⟩ := pushParsed_ok hpush
  refine ⟨slotInfo, ?_⟩
  rw [hp.slots, slotsAfter, if_neg fun h => absurd (hg.symm.trans h.1) (by decide)]
  exact Finmap.lookup_insert _

/-- After every run, a finalized status releases the slots exactly if grpc is enabled. -/
theorem finalized_releases_iff (config : ConfigChannelInner) (grpc : Bool)
    (hrun : (Messages.new config grpc).toSender.pushAll run = .ok sender)
    (hfinal : msg.commitment = .finalized) {result : Except MessageParseError Unit}
    (hpush : sender.push (.ok (.slot msg)) = .ok (sender', result)) :
    sender.Releases msg.slot sender' ↔ grpc = true := by
  have hgrpc : sender.grpc = grpc := pushAll_grpc hrun
  have hparsed := pushParsed_of_push hpush
  constructor
  · intro h
    by_contra hg
    obtain ⟨slotInfo, hstored⟩ :=
      lookup_of_not_grpc (hgrpc.trans (Bool.eq_false_of_not_eq_true hg)) hparsed
    cases hstored.symm.trans (h.1 msg.slot (Nat.le_refl _))
  · intro hg
    exact releases_of_grpc (hgrpc.trans hg) hfinal hparsed

/-- The finalized status of a slot. -/
def finalizedOf (slot : Slot) : MessageSlot := ⟨slot, none, .finalized, none, ⟨0, 0⟩, 3⟩

/-- Entries of two slots, and the finalized status of the first one. -/
theorem finalized_releases_first : ∃ sender sender' result,
    (Messages.new ⟨8, 4, 100⟩ true).toSender.pushAll [.ok (entryOf 5), .ok (entryOf 6)] =
        .ok sender ∧
      sender.push (.ok (.slot (finalizedOf 5))) = .ok (sender', result) ∧
      sender.Releases 5 sender' := by
  have hrun : ((Messages.new ⟨8, 4, 100⟩ true).toSender.pushAll
      [.ok (entryOf 5), .ok (entryOf 6)]).toOption.map
      (fun sender => (sender.push (.ok (.slot (finalizedOf 5)))).toOption.isSome) =
        some true := by
    decide +kernel
  obtain ⟨sender, hok, hsome⟩ := exists_of_toOption hrun
  obtain ⟨pushed, hpushed⟩ := Option.isSome_iff_exists.mp hsome
  obtain ⟨⟨sender', result⟩, hpush, -⟩ := exists_of_toOption (congrArg (Option.map id) hpushed)
  exact ⟨sender, sender', result, hok, hpush,
    (finalized_releases_iff ⟨8, 4, 100⟩ true hok rfl hpush).mpr rfl⟩

/-- Without grpc the slot is not released. -/
theorem finalized_keeps_without_grpc : ∃ sender sender' result,
    (Messages.new ⟨8, 4, 100⟩ false).toSender.pushAll [.ok (entryOf 5)] = .ok sender ∧
      sender.push (.ok (.slot (finalizedOf 5))) = .ok (sender', result) ∧
      ¬sender.Releases 5 sender' := by
  have hrun : ((Messages.new ⟨8, 4, 100⟩ false).toSender.pushAll [.ok (entryOf 5)]).toOption.map
      (fun sender => (sender.push (.ok (.slot (finalizedOf 5)))).toOption.map
        fun pushed => (pushed.1.slots.lookup 5).isSome) = some (some true) := by
    decide +kernel
  obtain ⟨sender, hok, hpushed⟩ := exists_of_toOption hrun
  obtain ⟨⟨sender', result⟩, hpush, hstored⟩ := exists_of_toOption hpushed
  refine ⟨sender, sender', result, hok, hpush, fun h => ?_⟩
  rw [h.1 5 (Nat.le_refl 5)] at hstored
  cases hstored

end Dragonmouth.Richat.Sender
