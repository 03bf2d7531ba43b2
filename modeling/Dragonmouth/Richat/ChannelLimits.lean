import Mathlib.Data.Finset.Card
import Dragonmouth.Richat.ReplayIndex

/-!
# The limits of the three rings

The processed ring is cleared at the end of every push. A status is also pushed
to the other two rings, but each of these is cleared only at the statuses of its
own level: the limits hold after every push exactly if every status that clears
a ring of another level only still fits in the ring it is pushed to.

## Main definitions

- `SenderShared.Within`: a ring keeps its limits
- `SenderShared.Fits`: there is room for a message in a ring
- `Sender.StatusesFit`: the condition along a run
-/

namespace Dragonmouth.Richat

open RingLog

namespace SenderShared

variable {sender sender' : SenderShared} {log : List Pushed} {x : Pushed} {bytesMax slotsMax : ℕ}

/-- The ring retains and indexes no more than it may. -/
def Within (sender : SenderShared) (bytesMax slotsMax : ℕ) : Prop :=
  sender.bytesTotal ≤ bytesMax ∧ sender.slots.len ≤ slotsMax

/-- The size of the message the next push overwrites. -/
def overwrittenSize (sender : SenderShared) : ℕ :=
  if sender.tail = sender.head + sender.ringSize then
    ((sender.shared.item sender.head).data.map ParsedMessage.size).getD 0
  else 0

/-- The slots indexed besides that of the message the next push overwrites. -/
def slotsKept (sender : SenderShared) : Finset Slot :=
  sender.slots.keys.filter fun s => ¬sender.Overwrites s

/-- The message fits without a clearing. -/
def Fits (sender : SenderShared) (bytesMax slotsMax : ℕ) (x : Pushed) : Prop :=
  sender.bytesTotal - sender.overwrittenSize + x.size ≤ bytesMax ∧
    (insert x.1 sender.slotsKept).card ≤ slotsMax

instance (sender : SenderShared) (bytesMax slotsMax : ℕ) (x : Pushed) :
    Decidable (sender.Fits bytesMax slotsMax x) :=
  inferInstanceAs (Decidable (_ ∧ _))

/-- The bytes after a push. -/
theorem push_bytesTotal (h : sender.Core log) (hok : sender.push x.1 x.2 = .ok sender') :
    sender'.bytesTotal = sender.bytesTotal - sender.overwrittenSize + x.size := by
  have hstored : ∀ s : SenderShared, (s.bumped.stored sender.tail x).bytesTotal =
      s.bytesTotal + x.size := fun s => by simp [stored, storeTail, storeItem, bumped]
  rcases push_eq h x with ⟨hlt, hrun⟩ | ⟨hfull, y, hy, hrun⟩
  · rw [hrun, Except.ok.injEq] at hok
    rw [← hok, hstored, overwrittenSize, if_neg (by omega), Nat.sub_zero]
  · rw [hrun, Except.ok.injEq] at hok
    have hlt : sender.head < sender.tail := by
      have : 0 < sender.ringSize := Nat.succ_pos _
      omega
    obtain ⟨z, hz, -, -, hdata⟩ := h.item le_rfl hlt
    rw [hy, Option.some.injEq] at hz
    subst hz
    rw [← hok, hstored, (left_fields sender y).2.2.2.2, overwrittenSize, if_pos hfull, hdata]
    rfl

/-- The slots after a push. -/
theorem push_keys (h : sender.Core log) (hok : sender.push x.1 x.2 = .ok sender') :
    sender'.slots.keys = insert x.1 sender.slotsKept := by
  ext k
  have hk := push_mem_slots h hok k
  rw [Finmap.mem_keys, Finset.mem_insert, slotsKept, Finset.mem_filter, Finmap.mem_keys]
  by_cases hx : k = x.1
  · rw [if_pos hx] at hk
    have hmem : k ∈ sender'.slots := by
      by_contra hn
      rw [headOf_eq_none.mpr hn] at hk
      cases hk
    exact ⟨fun _ => .inl hx, fun _ => hmem⟩
  · rw [if_neg hx] at hk
    by_cases hov : sender.Overwrites k
    · rw [if_pos hov, headOf_eq_none] at hk
      exact ⟨fun hm => absurd hm hk, fun hm => absurd hov (hm.resolve_left hx).2⟩
    · rw [if_neg hov] at hk
      have hiff : k ∈ sender'.slots ↔ k ∈ sender.slots := by
        rw [← not_iff_not, ← headOf_eq_none, hk, headOf_eq_none]
      rw [hiff]
      exact ⟨fun hm => .inr ⟨hm, hov⟩, fun hm => (hm.resolve_left hx).1⟩

/-- After a push the limits hold exactly if the message fitted. -/
theorem push_within_iff (h : sender.Core log) (hok : sender.push x.1 x.2 = .ok sender') :
    sender'.Within bytesMax slotsMax ↔ sender.Fits bytesMax slotsMax x := by
  rw [Within, Fits, push_bytesTotal h hok, Finmap.len, push_keys h hok]

/-- Operations that end with a clearing leave the limits kept. -/
theorem runOps_within {ops : List RingOp} (h : sender.Inv log) (hb : sender.TailBehind log)
    (hok : sender.runOps (ops ++ [.clear bytesMax slotsMax]) = .ok sender') :
    sender'.Within bytesMax slotsMax := by
  rw [Sender.runOps_append] at hok
  obtain ⟨s₁, hrun, hclear⟩ := Sender.exists_of_bind hok
  obtain ⟨hi, -, -⟩ := runOps_inv h hb hrun
  rw [Sender.runOps_singleton, RingOp.run] at hclear
  rcases tryClear_spec hi bytesMax slotsMax with ⟨s₂, hok₂, -, hlim⟩ | ⟨s₂, herr⟩
  · rw [hok₂, Except.ok.injEq] at hclear
    exact hclear ▸ hlim
  · rw [herr] at hclear
    cases hclear

end SenderShared

namespace Sender

variable {sender sender' : Sender} {message : ParsedMessage}
  {run : List (Except MessageParseError ParsedMessage)}

/-- All rings keep the limits. -/
def Within (sender : Sender) (bytesMax slotsMax : ℕ) : Prop :=
  ∀ level, (sender.ring level).Within bytesMax slotsMax

/-- A status fits in the ring of every level whose clearing it does not cause. -/
def StatusFits (sender : Sender) : ParsedMessage → Prop
  | .slot msg =>
    (msg.commitment ≠ .confirmed →
      sender.confirmed.Fits sender.bytesMax sender.slotsMax (msg.slot, .slot msg)) ∧
    (msg.commitment ≠ .finalized →
      sender.finalized.Fits sender.bytesMax sender.slotsMax (msg.slot, .slot msg))
  | _ => True

instance (sender : Sender) : (message : ParsedMessage) → Decidable (sender.StatusFits message)
  | .slot _ => inferInstanceAs (Decidable (_ ∧ _))
  | .account _ | .transaction _ | .entry _ | .blockMeta _ | .block _ => .isTrue trivial

/-- Every status of a run fits when its turn comes. -/
def StatusesFit : Sender → List (Except MessageParseError ParsedMessage) → Prop
  | _, [] => True
  | sender, .error _ :: run => sender.StatusesFit run
  | sender, .ok message :: run => sender.StatusFits message ∧
      ∀ sender', sender.pushParsed message = .ok sender' → sender'.StatusesFit run

instance decidableStatusesFit : (run : List (Except MessageParseError ParsedMessage)) →
    (sender : Sender) → Decidable (sender.StatusesFit run)
  | [], _ => .isTrue trivial
  | .error _ :: run, sender => decidableStatusesFit run sender
  | .ok message :: run, sender =>
    match hpush : sender.pushParsed message with
    | .error e => decidable_of_iff (sender.StatusFits message) (by simp [StatusesFit, hpush])
    | .ok sender' =>
      have := decidableStatusesFit run sender'
      decidable_of_iff (sender.StatusFits message ∧ sender'.StatusesFit run)
        (by simp [StatusesFit, hpush])

/-- A sender with grpc enabled, its limits, and rings that are sound. -/
structure Sound (sender : Sender) (bytesMax slotsMax : ℕ) : Prop where
  grpc : sender.grpc = true
  bytesMax : sender.bytesMax = bytesMax
  slotsMax : sender.slotsMax = slotsMax
  rings : ∀ level, ∃ log, (sender.ring level).Inv log ∧ (sender.ring level).TailBehind log

variable {level : CommitmentLevel} {bytesMax slotsMax : ℕ} {slotInfo : SlotInfo}
  {messageBlock : Option ParsedMessage}

theorem Pushes.sound (h : sender.Pushes message slotInfo messageBlock sender')
    (hs : sender.Sound bytesMax slotsMax) : sender'.Sound bytesMax slotsMax := by
  refine ⟨h.grpc.trans hs.grpc, h.bytesMax.trans hs.bytesMax, h.slotsMax.trans hs.slotsMax,
    fun level => ?_⟩
  obtain ⟨log, hi, hb⟩ := hs.rings level
  obtain ⟨hi', -, hb'⟩ := SenderShared.runOps_inv hi hb (h.ring level)
  exact ⟨_, hi', hb'⟩

/-- The processed ring keeps its limits. -/
theorem Pushes.processed_within (h : sender.Pushes message slotInfo messageBlock sender')
    (hs : sender.Sound bytesMax slotsMax) : sender'.processed.Within bytesMax slotsMax := by
  obtain ⟨log, hi, hb⟩ := hs.rings .processed
  have hrun := h.ring .processed
  rw [ringOps, h.received, hs.bytesMax, hs.slotsMax] at hrun
  exact SenderShared.runOps_within hi hb hrun

/-- Another ring keeps its limits exactly if it has been cleared, or has received
nothing, or what it has received fitted. -/
theorem Pushes.committed_within (h : sender.Pushes message slotInfo messageBlock sender')
    (hs : sender.Sound bytesMax slotsMax) (hl : level ≠ .processed)
    (hw : (sender.ring level).Within bytesMax slotsMax) :
    (sender'.ring level).Within bytesMax slotsMax ↔
      ∀ msg, message = .slot msg → msg.commitment ≠ level.status →
        (sender.ring level).Fits bytesMax slotsMax (msg.slot, .slot msg) := by
  obtain ⟨log, hi, hb⟩ := hs.rings level
  have hrun : (sender.ring level).runOps
      (sender.committedOps level slotInfo.getMessages message) = .ok (sender'.ring level) := by
    have hr := h.ring level
    rw [ringOps, h.received] at hr
    cases level with
    | processed => exact absurd rfl hl
    | _ => simpa [hs.grpc] using hr
  cases message with
  | slot msg =>
    rw [committedOps, hs.bytesMax, hs.slotsMax] at hrun
    by_cases hc : msg.commitment = level.status
    · rw [if_pos hc, ← List.cons_append] at hrun
      refine ⟨fun _ msg' he hne => ?_, fun _ => SenderShared.runOps_within hi hb hrun⟩
      cases he
      exact absurd hc hne
    · rw [if_neg hc, runOps_singleton] at hrun
      rw [SenderShared.push_within_iff hi.core hrun]
      refine ⟨fun hf msg' he _ => ?_, fun hf => hf msg rfl hc⟩
      cases he
      exact hf
  | _ =>
    simp only [committedOps, SenderShared.runOps, Except.ok.injEq] at hrun
    rw [← hrun]
    refine ⟨fun _ msg he => ?_, fun _ => hw⟩
    cases he

/-- After a push all limits hold exactly if the status fitted where it had to. -/
theorem Pushes.within_iff (h : sender.Pushes message slotInfo messageBlock sender')
    (hs : sender.Sound bytesMax slotsMax) (hw : sender.Within bytesMax slotsMax) :
    sender'.Within bytesMax slotsMax ↔ sender.StatusFits message := by
  have hp := h.processed_within hs
  have hc := h.committed_within hs (show CommitmentLevel.confirmed ≠ .processed by decide)
    (hw .confirmed)
  have hf := h.committed_within hs (show CommitmentLevel.finalized ≠ .processed by decide)
    (hw .finalized)
  have hall : sender'.Within bytesMax slotsMax ↔
      (sender'.ring .confirmed).Within bytesMax slotsMax ∧
        (sender'.ring .finalized).Within bytesMax slotsMax := by
    refine ⟨fun hw' => ⟨hw' .confirmed, hw' .finalized⟩, fun ⟨hcon, hfin⟩ level => ?_⟩
    cases level with
    | processed => exact hp
    | confirmed => exact hcon
    | finalized => exact hfin
  rw [hall, hc, hf]
  cases message with
  | slot msg =>
    rw [StatusFits, hs.bytesMax, hs.slotsMax]
    constructor
    · rintro ⟨hcon, hfin⟩
      exact ⟨hcon msg rfl, hfin msg rfl⟩
    · rintro ⟨hcon, hfin⟩
      refine ⟨fun msg' he => ?_, fun msg' he => ?_⟩
      · cases he
        exact hcon
      · cases he
        exact hfin
  | _ =>
    exact ⟨fun _ => trivial, fun _ => ⟨fun msg he => (nomatch he), fun msg he => (nomatch he)⟩⟩

-- ════════════════════════════════════════════════════════════════════════
-- Runs
-- ════════════════════════════════════════════════════════════════════════

/-- All limits hold after every push of a run. -/
def WithinAfter (sender : Sender) (run : List (Except MessageParseError ParsedMessage))
    (bytesMax slotsMax : ℕ) : Prop :=
  ∀ run' sender', run' <+: run → sender.pushAll run' = .ok sender' →
    sender'.Within bytesMax slotsMax

theorem withinAfter_cons {parsed : Except MessageParseError ParsedMessage}
    {result : Except MessageParseError Unit} (hpush : sender.push parsed = .ok (sender', result))
    (hw : sender.Within bytesMax slotsMax) :
    sender.WithinAfter (parsed :: run) bytesMax slotsMax ↔
      sender'.WithinAfter run bytesMax slotsMax := by
  have hcons : ∀ run', sender.pushAll (parsed :: run') = sender'.pushAll run' := fun run' => by
    rw [pushAll, hpush]
    rfl
  constructor
  · intro h run' s hpre hok
    exact h (parsed :: run') s ((List.prefix_cons_inj parsed).mpr hpre) (by rw [hcons, hok])
  · intro h run' s hpre hok
    cases run' with
    | nil =>
      cases hok
      exact hw
    | cons parsed' run' =>
      obtain ⟨rfl, hpre'⟩ := List.cons_prefix_cons.mp hpre
      rw [hcons] at hok
      exact h run' s hpre' hok

theorem withinAfter_iff_of_sound (hs : sender.Sound bytesMax slotsMax)
    (hw : sender.Within bytesMax slotsMax) (hok : sender.pushAll run = .ok sender') :
    sender.WithinAfter run bytesMax slotsMax ↔ sender.StatusesFit run := by
  induction run generalizing sender with
  | nil =>
    refine ⟨fun _ => trivial, fun _ run' s hpre hrun => ?_⟩
    rw [List.prefix_nil.mp hpre] at hrun
    cases hrun
    exact hw
  | cons parsed run ih =>
    obtain ⟨⟨s₁, result⟩, hpush, hrest⟩ := exists_of_bind hok
    rw [withinAfter_cons hpush hw]
    cases parsed with
    | error e =>
      cases hpush
      exact ih hs hw hrest
    | ok message =>
      obtain ⟨s₂, hparsed, hres⟩ := exists_of_bind hpush
      cases hres
      obtain ⟨slotInfo, messageBlock, hp⟩ := pushParsed_ok hparsed
      have hstep := hp.within_iff hs hw
      have hunfold : sender.StatusesFit (.ok message :: run) ↔
          sender.StatusFits message ∧ s₁.StatusesFit run := by
        rw [StatusesFit, hparsed]
        exact and_congr_right fun _ =>
          ⟨fun h => h s₁ rfl, fun h s he => by rwa [← Except.ok.inj he]⟩
      rw [hunfold]
      constructor
      · intro h
        have hw₁ : s₁.Within bytesMax slotsMax := h [] s₁ (List.nil_prefix) rfl
        exact ⟨hstep.mp hw₁, (ih (hp.sound hs) hw₁ hrest).mp h⟩
      · rintro ⟨hfit, hfits⟩
        exact (ih (hp.sound hs) (hstep.mpr hfit) hrest).mpr hfits

theorem Sound.toSender (config : ConfigChannelInner) :
    (Messages.new config true).toSender.Sound config.maxBytes config.maxSlots := by
  refine ⟨rfl, rfl, rfl, fun level => ⟨[], ?_, fun hne => absurd rfl hne⟩⟩
  rw [toSender_ring config (.inl rfl)]
  exact .fresh (Nat.isPowerOfTwo_nextPowerOfTwo config.maxMessages)

/-- In a run that does not panic, the limits of all rings hold after every push
exactly if every status fits in the rings it does not clear. -/
theorem within_iff_statusesFit (config : ConfigChannelInner)
    (hok : (Messages.new config true).toSender.pushAll run = .ok sender) :
    (Messages.new config true).toSender.WithinAfter run config.maxBytes config.maxSlots ↔
      (Messages.new config true).toSender.StatusesFit run := by
  refine withinAfter_iff_of_sound (.toSender config) (fun level => ?_) hok
  rw [toSender_ring config (.inl rfl)]
  exact ⟨Nat.zero_le _, by simp [SenderShared.fresh, SenderShared.new]⟩

/-- Two statuses of two slots fit in rings for two slots. -/
theorem within_iff_statusesFit_two :
    (Messages.new ⟨4, 2, 100⟩ true).toSender.WithinAfter (statusRun [1, 2]) 100 2 := by
  have hrun : ((Messages.new ⟨4, 2, 100⟩ true).toSender.pushAll (statusRun [1, 2])).toOption.map
      (fun sender => sender.confirmed.bytesTotal) = some 6 := by
    decide +kernel
  obtain ⟨sender, hok, -⟩ := exists_of_toOption hrun
  exact (within_iff_statusesFit ⟨4, 2, 100⟩ hok).mpr (by decide +kernel)

/-- A second processed status exceeds the slots of the confirmed ring. -/
theorem second_status_exceeds : ¬∀ (config : ConfigChannelInner)
    (run : List (Except MessageParseError ParsedMessage)) (sender : Sender),
    1 ≤ config.maxSlots → (Messages.new config true).toSender.pushAll run = .ok sender →
    (Messages.new config true).toSender.WithinAfter run config.maxBytes config.maxSlots := by
  intro hall
  have hrun : ((Messages.new ⟨4, 1, 100⟩ true).toSender.pushAll (statusRun [1, 2])).toOption.map
      (fun sender => sender.confirmed.slots.len) = some 2 := by
    decide +kernel
  obtain ⟨sender, hok, hlen⟩ := exists_of_toOption hrun
  have hle : sender.confirmed.slots.len ≤ 1 :=
    (hall ⟨4, 1, 100⟩ _ sender le_rfl hok _ sender List.prefix_rfl hok .confirmed).2
  omega

end Sender

end Dragonmouth.Richat
