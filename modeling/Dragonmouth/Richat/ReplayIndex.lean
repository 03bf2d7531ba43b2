import Mathlib.Data.Finset.Filter
import Mathlib.Order.Interval.Finset.Nat
import Dragonmouth.Richat.RingIndex
import Dragonmouth.Richat.Sender

/-!
# Where a replay starts

Readers look up the start of a replay in the shared copy of the first positions.
It is right as long as two things do not happen: the loop over extra slots, which
updates the sender's own copy only, and a message of a slot that has lost its
entry, which makes a second one.

## Main definitions

- `SenderShared.Replayable`: both copies agree and every entry is a first position
- `SenderShared.Tidy`: an operation that does neither of the two
-/

namespace Dragonmouth.Richat

open RingLog

namespace SenderShared

variable {sender sender' : SenderShared} {log : List Pushed}

/-- The indexed slots no message of which exceeds the bytes. -/
def slotsWithin (sender : SenderShared) (bytesMax : ℕ) : Finset Slot :=
  sender.slots.keys.filter fun s => ∀ p ∈ Finset.Ico sender.head sender.tail,
    (sender.shared.item p).slot = s → sender.bytesFrom p ≤ bytesMax

/-- A push that makes no second entry for its slot; a clearing after whose bytes
loop no slot is left over. -/
def Tidy (sender : SenderShared) (log : List Pushed) : RingOp → Prop
  | .push x => (x.1 ∈ sender.slots ∧ ¬sender.Overwrites x.1) ∨ ∀ y ∈ log, y.1 ≠ x.1
  | .clear bytesMax slotsMax => (sender.slotsWithin bytesMax).card ≤ slotsMax

instance (sender : SenderShared) (log : List Pushed) :
    (op : RingOp) → Decidable (sender.Tidy log op)
  | .push _ => inferInstanceAs (Decidable (_ ∨ _))
  | .clear _ _ => inferInstanceAs (Decidable (_ ≤ _))

/-- Every operation of a run is tidy when its turn comes. -/
def TidyAll : SenderShared → List Pushed → List RingOp → Prop
  | _, _, [] => True
  | sender, log, op :: ops => sender.Tidy log op ∧ ∀ sender', op.run sender = .ok sender' →
      TidyAll sender' (log ++ op.pushed.toList) ops

instance decidableTidyAll : (ops : List RingOp) → (sender : SenderShared) → (log : List Pushed) →
    Decidable (sender.TidyAll log ops)
  | [], _, _ => .isTrue trivial
  | op :: ops, sender, log =>
    match hrun : op.run sender with
    | .error e => decidable_of_iff (sender.Tidy log op) (by simp [TidyAll, hrun])
    | .ok sender' =>
      have := decidableTidyAll ops sender' (log ++ op.pushed.toList)
      decidable_of_iff (sender.Tidy log op ∧ sender'.TidyAll (log ++ op.pushed.toList) ops)
        (by simp [TidyAll, hrun])

/-- Both copies of the first positions agree, and every entry is the position of
the first message of its slot. -/
structure Replayable (sender : SenderShared) (log : List Pushed) : Prop where
  same : sender.shared.slots = sender.slots
  first : ∀ s p, headOf sender.slots s = some p → ∀ i y, log[i]? = some y → y.1 = s →
    p ≤ sender.ringSize + i

-- ════════════════════════════════════════════════════════════════════════
-- One operation
-- ════════════════════════════════════════════════════════════════════════

theorem forget_same (h : sender.shared.slots = sender.slots) (s : Slot) :
    (sender.forget s).shared.slots = (sender.forget s).slots := by
  rw [forget]
  split
  · simp [h]
  · exact h

theorem insertSlot_same (h : sender.shared.slots = sender.slots) (s : Slot) (p : ℕ) :
    (sender.insertSlot s p).shared.slots = (sender.insertSlot s p).slots := by
  rw [insertSlot]
  split
  · exact h
  · simp [h]

/-- Evicting messages keeps the entries that are left right. -/
theorem Replayable.evict (hr : sender.Replayable log)
    (h : Relation.ReflTransGen (Evict log) sender sender') : sender'.Replayable log := by
  refine ⟨?_, fun s p hs => ?_⟩
  · induction h with
    | refl => exact hr.same
    | tail _ hstep ih =>
      cases hstep with
      | intro x =>
        refine forget_same ?_ x.1
        exact ih
  · rw [(evictions_of_evict h).evicts.ringSize]
    exact hr.first s p (evict_headOf h hs)

theorem push_same {x : Pushed} (h : sender.Core log) (hs : sender.shared.slots = sender.slots)
    (hok : sender.push x.1 x.2 = .ok sender') : sender'.shared.slots = sender'.slots := by
  rcases push_eq h x with ⟨-, hrun⟩ | ⟨-, y, -, hrun⟩
  · rw [hrun, Except.ok.injEq] at hok
    rw [← hok]
    refine insertSlot_same ?_ x.1 sender.tail
    exact hs
  · rw [hrun, Except.ok.injEq] at hok
    rw [← hok]
    have hleft : (sender.left y).shared.slots = (sender.left y).slots := by
      refine forget_same ?_ y.1
      exact hs
    refine insertSlot_same ?_ x.1 sender.tail
    exact hleft

/-- A tidy push makes or keeps an entry at the first position of its slot. -/
theorem Replayable.push {x : Pushed} (hr : sender.Replayable log) (h : sender.Inv log)
    (ht : sender.Tidy log (.push x)) (hok : sender.push x.1 x.2 = .ok sender') :
    sender'.Replayable (log ++ [x]) := by
  have htail := h.core.window.tail_eq
  have hring : sender'.ringSize = sender.ringSize := by
    obtain ⟨s₁, hrun, -, hp⟩ := push_spec h x
    rw [hrun, Except.ok.injEq] at hok
    rw [← hok]
    exact congrArg (· + 1) hp.mask
  refine ⟨push_same h.core hr.same hok, fun s p hs i y hy hys => ?_⟩
  rw [push_mem_slots h.core hok] at hs
  rw [hring]
  have hi : i < log.length + 1 := by
    obtain ⟨hlt, -⟩ := List.getElem?_eq_some_iff.mp hy
    simpa using hlt
  have hold : i < log.length → log[i]? = some y := fun hlt => by
    rwa [List.getElem?_append_left hlt] at hy
  by_cases hsx : s = x.1
  · subst hsx
    rw [if_pos rfl, Option.some.injEq] at hs
    rcases ht with ⟨hmem, hnot⟩ | hnone
    · obtain ⟨q, hq⟩ := Option.ne_none_iff_exists'.mp fun hn => headOf_eq_none.mp hn hmem
      rw [if_neg hnot, hq, Option.getD_some] at hs
      subst hs
      rcases Nat.lt_succ_iff_lt_or_eq.mp hi with hlt | rfl
      · exact hr.first x.1 q hq i y (hold hlt) hys
      · have := (h.index x.1 q hq).2.1
        omega
    · have hnew : (headOf sender.slots x.1).getD sender.tail = sender.tail := by
        cases hq : headOf sender.slots x.1 with
        | none => rfl
        | some q =>
          obtain ⟨-, -, hkey⟩ := h.index x.1 q hq
          obtain ⟨z, hz, hzs⟩ := Option.map_eq_some_iff.mp hkey
          exact absurd hzs (hnone z (List.mem_of_getElem? hz))
      rw [hnew, ite_self] at hs
      rcases Nat.lt_succ_iff_lt_or_eq.mp hi with hlt | rfl
      · exact absurd hys (hnone y (List.mem_of_getElem? (hold hlt)))
      · omega
  · rw [if_neg hsx] at hs
    split at hs
    · cases hs
    · rcases Nat.lt_succ_iff_lt_or_eq.mp hi with hlt | rfl
      · exact hr.first s p hs i y (hold hlt) hys
      · rw [List.getElem?_concat_length, Option.some.injEq] at hy
        exact absurd (hy ▸ hys).symm hsx

/-- The slots left by the bytes loop are those of which nothing exceeds the bytes. -/
theorem dropBytes_slots (h : sender.Inv log) (bytesMax : ℕ) :
    ∃ sender', dropBytes bytesMax (sender.tail - sender.head) sender = .ok sender' ∧
      Relation.ReflTransGen (Evict log) sender sender' ∧
      sender'.slots.keys = sender.slotsWithin bytesMax := by
  obtain ⟨s₁, hrun, hev, hiff⟩ := dropBytes_weight h bytesMax
  have hbase := h.core.window.base_le
  refine ⟨s₁, hrun, hev, ?_⟩
  ext k
  rw [Finmap.mem_keys, evict_mem_slots hev, slotsWithin, Finset.mem_filter, Finmap.mem_keys]
  refine and_congr_right fun _ => ⟨fun hkeep p hp hslot => ?_, fun hwithin p y hp hp' hy he => ?_⟩
  · obtain ⟨hle, hlt⟩ := Finset.mem_Ico.mp hp
    obtain ⟨y, hy, -, hys, -⟩ := h.core.item hle hlt
    by_contra hbig
    rw [h.core.bytesFrom_eq hle hlt.le] at hbig
    exact hkeep p y hle ((hiff p hle).mpr (by omega)) hy (hys.symm.trans hslot)
  · have hlt : p < sender.tail := by
      obtain ⟨hlen, -⟩ := List.getElem?_eq_some_iff.mp hy
      have := h.core.window.tail_eq
      omega
    obtain ⟨z, hz, -, hzs, -⟩ := h.core.item hp hlt
    rw [hy, Option.some.injEq] at hz
    have hle := hwithin p (Finset.mem_Ico.mpr ⟨hp, hlt⟩) (by rw [hzs, ← hz, he])
    rw [h.core.bytesFrom_eq hp hlt.le] at hle
    have := (hiff p hp).mp hp'
    omega

theorem Replayable.clear {bytesMax slotsMax : ℕ} (hr : sender.Replayable log) (h : sender.Inv log)
    (ht : sender.Tidy log (.clear bytesMax slotsMax))
    (hok : sender.tryClear bytesMax slotsMax = .ok sender') : sender'.Replayable log := by
  obtain ⟨s₁, hrun, hev, hkeys⟩ := dropBytes_slots h bytesMax
  have hlen : s₁.slots.len ≤ slotsMax := by
    rw [Finmap.len, hkeys]
    exact ht
  rw [tryClear, hrun] at hok
  have he : sender' = s₁ := Except.ok.inj (hok.symm.trans (dropSlots_of_le hlen))
  exact he ▸ hr.evict hev

/-- A tidy operation keeps the entries right. -/
theorem run_replayable {op : RingOp} (h : sender.Inv log) (hr : sender.Replayable log)
    (ht : sender.Tidy log op) (hok : op.run sender = .ok sender') :
    sender'.Replayable (log ++ op.pushed.toList) := by
  cases op with
  | push x => exact hr.push h ht hok
  | clear bytesMax slotsMax =>
    rw [RingOp.pushed, Option.toList_none, List.append_nil]
    exact hr.clear h ht hok

-- ════════════════════════════════════════════════════════════════════════
-- Runs
-- ════════════════════════════════════════════════════════════════════════

/-- Tidy operations keep the entries right. -/
theorem runOps_replayable {ops : List RingOp} (h : sender.Inv log) (hb : sender.TailBehind log)
    (hr : sender.Replayable log) (ht : sender.TidyAll log ops)
    (hok : sender.runOps ops = .ok sender') : sender'.Replayable (log ++ pushedBy ops) := by
  induction ops generalizing sender log with
  | nil =>
    cases hok
    simpa [pushedBy] using hr
  | cons op ops ih =>
    obtain ⟨s₁, hrun, hrest⟩ := runOps_cons hok
    obtain ⟨h₁, -, hb₁⟩ := run_inv h hb hrun
    rw [pushedBy_cons, ← List.append_assoc]
    exact ih h₁ hb₁ (run_replayable h hr ht.1 hrun) (ht.2 s₁ hrun) hrest

theorem Replayable.fresh (N : ℕ) : (fresh N).Replayable [] :=
  ⟨rfl, fun _ _ _ _ _ hy => by cases hy⟩

/-- A replay of a slot from a position starts at its first message. -/
structure ReplaysFrom (sender : SenderShared) (log : List Pushed) (slot : Slot) (p : ℕ) :
    Prop where
  head_le : sender.head ≤ p
  lt_tail : p < sender.tail
  item : ∃ message, log[p - sender.ringSize]? = some (slot, message) ∧
    sender.shared.item p = ⟨p, slot, some message⟩
  first : ∀ i y, log[i]? = some y → y.1 = slot → p ≤ sender.ringSize + i

theorem Replayable.replaysFrom (h : sender.Inv log) (hr : sender.Replayable log) {slot : Slot}
    {p : ℕ} (hget : headOf sender.shared.slots slot = some p) :
    sender.ReplaysFrom log slot p := by
  rw [hr.same] at hget
  obtain ⟨hle, hlt, hkey⟩ := h.index slot p hget
  obtain ⟨⟨s, m⟩, hx, hpos, hslot, hdata⟩ := h.core.item hle hlt
  rw [hx, Option.map_some, Option.some.injEq] at hkey
  change s = slot at hkey
  subst hkey
  refine ⟨hle, hlt, ⟨m, hx, ?_⟩, hr.first _ p hget⟩
  cases hi : sender.shared.item p with
  | mk pos slot data => simp_all

end SenderShared

namespace Sender

variable {sender : Sender} {run : List (Except MessageParseError ParsedMessage)}

/-- Without grpc only the processed ring is used. -/
theorem ringOpsAll_of_no_grpc (hg : sender.grpc = false) {level : CommitmentLevel}
    (hl : level ≠ .processed) : ringOpsAll level sender run = [] := by
  induction run generalizing sender with
  | nil => rfl
  | cons parsed run ih =>
    cases parsed with
    | error e => exact ih hg
    | ok message =>
      have hops : sender.ringOps message level = [] := by
        rw [ringOps]
        split
        · rfl
        · cases level with
          | processed => exact absurd rfl hl
          | _ => simp [hg]
      rw [ringOpsAll, hops, List.nil_append]
      cases hpush : sender.pushParsed message with
      | error e => rfl
      | ok sender' =>
        obtain ⟨_, _, hp⟩ := pushParsed_ok hpush
        exact ih (hp.grpc.trans hg)

/-- The ring of a level before anything has been pushed: a fresh one if it is used. -/
theorem toSender_ring (config : ConfigChannelInner) {grpc : Bool} {level : CommitmentLevel}
    (h : grpc = true ∨ level = .processed) : (Messages.new config grpc).toSender.ring level =
      SenderShared.fresh config.maxMessages.nextPowerOfTwo := by
  rcases h with rfl | rfl
  · cases level <;> rfl
  · rfl

/-- If all operations on the ring of a level are tidy, readers are sent to the
first message of the slot they ask for, and it is retained. -/
theorem getCurrentTail_replaysFrom (config : ConfigChannelInner) (grpc : Bool)
    (level : CommitmentLevel)
    (hok : (Messages.new config grpc).toSender.pushAll run = .ok sender)
    (htidy : ((Messages.new config grpc).toSender.ring level).TidyAll []
      (ringOpsAll level (Messages.new config grpc).toSender run))
    {slot : Slot} {p : ℕ}
    (hget : (sender.share (Messages.new config grpc)).getCurrentTail level (some slot) = some p) :
    (sender.ring level).ReplaysFrom
      (pushedBy (ringOpsAll level (Messages.new config grpc).toSender run)) slot p := by
  have hrun := pushAll_ring hok level
  have hlook : headOf (sender.ring level).shared.slots slot = some p := by
    cases level <;> exact hget
  by_cases hu : grpc = true ∨ level = .processed
  · rw [toSender_ring config hu] at hrun htidy
    have hN := Nat.isPowerOfTwo_nextPowerOfTwo config.maxMessages
    obtain ⟨hinv, -, -⟩ := SenderShared.fresh_inv hN hrun
    have hr := SenderShared.runOps_replayable (.fresh hN) (fun hne => absurd rfl hne)
      (.fresh _) htidy hrun
    exact hr.replaysFrom hinv hlook
  · -- a ring that is not used has no entries
    obtain ⟨hg, hl⟩ := not_or.mp hu
    rw [ringOpsAll_of_no_grpc (Bool.eq_false_iff.mpr hg) hl] at hrun
    rw [← Except.ok.inj hrun] at hlook
    cases level with
    | processed => exact absurd rfl hl
    | _ => simp [headOf, ring, Messages.toSender, SenderShared.new, Messages.new,
        Shared.new] at hlook

/-- Statuses of slots, as the parser returns them. -/
def statusRun (slots : List Slot) : List (Except MessageParseError ParsedMessage) :=
  slots.map fun slot => .ok (slotUpdate slot 3).2

/-- With room for both slots, a replay of the second starts at its message. -/
theorem getCurrentTail_replaysFrom_second : ∃ (sender : SenderShared) (log : List Pushed),
    log = [slotUpdate 1 3, slotUpdate 2 3] ∧ sender.ReplaysFrom log 2 5 := by
  have hrun : ((Messages.new ⟨4, 2, 100⟩ true).toSender.pushAll (statusRun [1, 2])).toOption.map
      (fun sender => (sender.share (Messages.new ⟨4, 2, 100⟩ true)).getCurrentTail
        .processed (some 2)) = some (some 5) := by
    decide +kernel
  obtain ⟨sender, hok, hget⟩ := exists_of_toOption hrun
  refine ⟨_, _, ?_, getCurrentTail_replaysFrom ⟨4, 2, 100⟩ true .processed hok ?_ hget⟩
  · decide +kernel
  · decide +kernel

/-- The entry of a slot that the loop over extra slots has removed still answers. -/
theorem evicted_slot_replays : ¬∀ (config : ConfigChannelInner) (grpc : Bool)
    (run : List (Except MessageParseError ParsedMessage)) (sender : Sender)
    (level : CommitmentLevel) (slot : Slot) (p : ℕ),
    (Messages.new config grpc).toSender.pushAll run = .ok sender →
    (sender.share (Messages.new config grpc)).getCurrentTail level (some slot) = some p →
    (sender.ring level).ReplaysFrom
      (pushedBy (ringOpsAll level (Messages.new config grpc).toSender run)) slot p := by
  intro hall
  have hrun : ((Messages.new ⟨4, 1, 100⟩ true).toSender.pushAll (statusRun [1, 2])).toOption.map
      (fun sender => ((sender.share (Messages.new ⟨4, 1, 100⟩ true)).getCurrentTail
        .processed (some 1), (sender.ring .processed).head)) = some (some 4, 5) := by
    decide +kernel
  obtain ⟨sender, hok, hf⟩ := exists_of_toOption hrun
  rw [Prod.mk.injEq] at hf
  have hle := (hall ⟨4, 1, 100⟩ true _ sender .processed 1 4 hok hf.1).head_le
  omega

end Sender

end Dragonmouth.Richat
