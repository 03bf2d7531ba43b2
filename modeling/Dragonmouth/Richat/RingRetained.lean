import Dragonmouth.Richat.RingLoops

/-!
# What a ring retains, and what its readers receive

After any sequence of pushes and clearings that have returned, a ring holds
exactly the newest messages, its byte count is their total size and every entry
of the sender's own index points at a retained message of its slot. Readers
receive every retained message but the newest one.

## Main definitions

- `RingOp`, `SenderShared.runOps`: pushes and clearings in any order
- `Retained`: what a ring retains of the messages pushed to it
-/

namespace Dragonmouth.Richat

open RingLog

/-- An operation of the writing side of a ring. -/
inductive RingOp where
  | push (x : Pushed)
  | clear (bytesMax slotsMax : ℕ)

def RingOp.run (sender : SenderShared) : RingOp → Outcome
  | push x => sender.push x.1 x.2
  | clear bytesMax slotsMax => sender.tryClear bytesMax slotsMax

/-- The message an operation pushes. -/
def RingOp.pushed : RingOp → Option Pushed
  | push x => some x
  | clear _ _ => none

/-- The messages pushed by a sequence of operations. -/
def pushedBy (ops : List RingOp) : List Pushed := ops.filterMap RingOp.pushed

/-- Operations one after the other, up to a panic. -/
def SenderShared.runOps : SenderShared → List RingOp → Outcome
  | sender, [] => .ok sender
  | sender, op :: ops => do
    let sender ← op.run sender
    sender.runOps ops

/-- A ring before anything has been pushed. -/
def SenderShared.fresh (N : ℕ) : SenderShared := .new (.new N) N

/-- What is read off a ring or a sender after operations that return. -/
theorem exists_of_toOption {ε σ α : Type} {f : σ → α} {outcome : Except ε σ} {a : α}
    (h : outcome.toOption.map f = some a) : ∃ sender, outcome = .ok sender ∧ f sender = a := by
  cases outcome with
  | error e => cases h
  | ok sender => exact ⟨sender, rfl, Option.some.inj h⟩

namespace SenderShared

variable {sender sender' : SenderShared} {log : List Pushed} {N : ℕ}

theorem Inv.fresh (h : ∃ k, N = 2 ^ k) : (fresh N).Inv [] := by
  obtain ⟨k, rfl⟩ := h
  have hN : 2 ^ k - 1 + 1 = 2 ^ k := Nat.sub_add_cancel Nat.one_le_two_pow
  have hring : (fresh (2 ^ k)).ringSize = 2 ^ k := hN
  refine ⟨⟨⟨k, hN⟩, ?_, ?_⟩, fun s p hs => ?_⟩
  · rw [hring]
    exact .init fun i _ => rfl
  · simp [fresh, new, weightFrom]
  · simp [headOf, fresh, new] at hs

/-- What readers compare with is the position of the newest message. -/
def TailBehind (sender : SenderShared) (log : List Pushed) : Prop :=
  log ≠ [] → sender.shared.tail + 1 = sender.tail

/-- One operation preserves the invariant. -/
theorem run_inv {op : RingOp} (h : sender.Inv log) (ht : sender.TailBehind log)
    (hok : op.run sender = .ok sender') : sender'.Inv (log ++ op.pushed.toList) ∧
      sender'.ringSize = sender.ringSize ∧ sender'.TailBehind (log ++ op.pushed.toList) := by
  cases op with
  | push x =>
    obtain ⟨s₁, hrun, hinv, hp⟩ := push_spec h x
    rw [RingOp.run, hrun, Except.ok.injEq] at hok
    subst hok
    refine ⟨hinv, congrArg (· + 1) hp.mask, fun _ => ?_⟩
    rw [hp.sharedTail, hp.tail]
  | clear bytesMax slotsMax =>
    rw [RingOp.pushed, Option.toList_none, List.append_nil]
    rcases tryClear_spec h bytesMax slotsMax with ⟨s₁, hrun, hev, -⟩ | ⟨s₁, hrun⟩
    · rw [RingOp.run, hrun, Except.ok.injEq] at hok
      subst hok
      have hf := hev.evicts
      refine ⟨hev.inv h, hf.ringSize, fun hne => ?_⟩
      rw [hf.sharedTail, hf.tail]
      exact ht hne
    · rw [RingOp.run, hrun] at hok
      cases hok

theorem runOps_cons {op : RingOp} {ops : List RingOp}
    (hok : sender.runOps (op :: ops) = .ok sender') :
    ∃ s₁, op.run sender = .ok s₁ ∧ s₁.runOps ops = .ok sender' := by
  rw [runOps] at hok
  cases hrun : op.run sender with
  | error e => rw [hrun] at hok; cases hok
  | ok s₁ => exact ⟨s₁, rfl, by rw [hrun] at hok; exact hok⟩

theorem pushedBy_cons (op : RingOp) (ops : List RingOp) :
    pushedBy (op :: ops) = op.pushed.toList ++ pushedBy ops := by
  cases op <;> rfl

/-- A run of operations preserves the invariant. -/
theorem runOps_inv {ops : List RingOp} (h : sender.Inv log) (ht : sender.TailBehind log)
    (hok : sender.runOps ops = .ok sender') : sender'.Inv (log ++ pushedBy ops) ∧
      sender'.ringSize = sender.ringSize ∧ sender'.TailBehind (log ++ pushedBy ops) := by
  induction ops generalizing sender log with
  | nil =>
    cases hok
    simpa [pushedBy] using ⟨h, ht⟩
  | cons op ops ih =>
    obtain ⟨s₁, hrun, hrest⟩ := runOps_cons hok
    obtain ⟨h₁, hr₁, ht₁⟩ := run_inv h ht hrun
    obtain ⟨h₂, hr₂, ht₂⟩ := ih h₁ ht₁ hrest
    rw [pushedBy_cons, ← List.append_assoc]
    exact ⟨h₂, hr₂.trans hr₁, ht₂⟩

theorem fresh_inv {ops : List RingOp} (hN : ∃ k, N = 2 ^ k)
    (hok : (fresh N).runOps ops = .ok sender) : sender.Inv (pushedBy ops) ∧
      sender.ringSize = N ∧ sender.TailBehind (pushedBy ops) := by
  obtain ⟨k, rfl⟩ := hN
  have hring : (fresh (2 ^ k)).ringSize = 2 ^ k := Nat.sub_add_cancel Nat.one_le_two_pow
  have hr := runOps_inv (Inv.fresh ⟨k, rfl⟩) (fun hne => absurd rfl hne) hok
  rwa [hring] at hr

end SenderShared

-- ════════════════════════════════════════════════════════════════════════
-- Contents
-- ════════════════════════════════════════════════════════════════════════

/-- The newest `n` messages. -/
def newest (pushed : List Pushed) (n : ℕ) : List Pushed := pushed.drop (pushed.length - n)

/-- What a ring of `N` cells retains of the messages pushed to it. -/
structure Retained (N : ℕ) (pushed : List Pushed) (sender : SenderShared) : Prop where
  base_le : N ≤ sender.head
  head_le : sender.head ≤ sender.tail
  tail_le : sender.tail ≤ sender.head + N
  count : sender.tail - sender.head ≤ pushed.length
  /-- The cells from `head` to `tail` hold the newest messages in order. -/
  cell : ∀ p, sender.head ≤ p → p < sender.tail →
    ∃ x, (newest pushed (sender.tail - sender.head))[p - sender.head]? = some x ∧
      sender.shared.item p = ⟨p, x.1, some x.2⟩
  /-- Every other cell is empty. -/
  empty : ∀ i < N, (∀ p, sender.head ≤ p → p < sender.tail → sender.shared.getIdx p ≠ i) →
    (sender.shared.buffer i).data = none
  bytes : sender.bytesTotal =
    ((newest pushed (sender.tail - sender.head)).map fun x => x.2.size).sum
  /-- No subtraction from the byte count underflows. -/
  subtracts : ∀ op e, RingOp.run sender op = .error e → e.panic ≠ .subtractOverflow
  /-- Every entry points at a retained message of its slot. -/
  indexed : ∀ s info, sender.slots.lookup s = some info →
    sender.head ≤ info.head ∧ info.head < sender.tail ∧
      (sender.shared.item info.head).pos = info.head ∧
      (sender.shared.item info.head).slot = s ∧ (sender.shared.item info.head).data.isSome
  /-- Clearing keeps both limits. -/
  cleared : ∀ bytesMax slotsMax sender', sender.tryClear bytesMax slotsMax = .ok sender' →
    sender'.bytesTotal ≤ bytesMax ∧ sender'.slots.len ≤ slotsMax

section

variable {sender : SenderShared} {log : List Pushed} {N : ℕ}

/-- The retained part of the log consists of the newest messages. -/
theorem SenderShared.Core.newest_eq (h : sender.Core log) :
    newest log (sender.tail - sender.head) = log.drop (sender.head - sender.ringSize) := by
  have hb := h.window.base_le
  have hh := h.window.head_le
  have ht := h.window.tail_eq
  rw [newest,
    show log.length - (sender.tail - sender.head) = sender.head - sender.ringSize by omega]

/-- A cell outside the retained positions is empty. -/
theorem SenderShared.Core.data_eq_none {i : ℕ} (h : sender.Core log) (hi : i < sender.ringSize)
    (hout : ∀ p, sender.head ≤ p → p < sender.tail → sender.shared.getIdx p ≠ i) :
    (sender.shared.buffer i).data = none := by
  cases hd : (sender.shared.buffer i).data with
  | none => rfl
  | some m =>
    have hv : (sender.cells i).val = some ((sender.shared.buffer i).slot, m) := by
      rw [SenderShared.cells, Item.cell, hd]
      rfl
    obtain ⟨p, hp, hp', hmod, -⟩ := h.window.exists_of_val hi hv
    exact absurd ((h.getIdx p).trans hmod) (hout p hp hp')

/-- An operation fails at no other assertion than that of the slots loop. -/
theorem SenderShared.Inv.run_panic (h : sender.Inv log) {op : RingOp} {e : Panicked}
    (he : op.run sender = .error e) : e.panic = .slotsOverflow2 := by
  cases op with
  | push x =>
    obtain ⟨s₁, hrun, -⟩ := SenderShared.push_spec h x
    rw [RingOp.run, hrun] at he
    cases he
  | clear bytesMax slotsMax =>
    rcases SenderShared.tryClear_spec h bytesMax slotsMax with ⟨s₁, hrun, -⟩ | ⟨s₁, hrun⟩
    · rw [RingOp.run, hrun] at he
      cases he
    · rw [RingOp.run, hrun] at he
      cases he
      rfl

/-- After every run of operations a ring retains the newest messages. -/
theorem runOps_retained (hN : ∃ k, N = 2 ^ k) {ops : List RingOp}
    (hok : (SenderShared.fresh N).runOps ops = .ok sender) : Retained N (pushedBy ops) sender := by
  obtain ⟨hinv, hring, -⟩ := SenderShared.fresh_inv hN hok
  have hcore := hinv.core
  have hw := hcore.window
  have hbase := hw.base_le
  have htail := hw.tail_eq
  have hhead := hw.head_le
  refine
    { base_le := hring ▸ hbase
      head_le := hhead
      tail_le := hring ▸ hw.tail_le
      count := by omega
      cell := fun p hp hp' => ?_
      empty := fun i hi hout => hcore.data_eq_none (hring ▸ hi) hout
      bytes := ?_
      subtracts := fun op e he => ?_
      indexed := fun s info hs => ?_
      cleared := fun bytesMax slotsMax sender' hc => ?_ }
  · obtain ⟨x, hx, hpos, hslot, hdata⟩ := hcore.item hp hp'
    refine ⟨x, ?_, ?_⟩
    · rw [hcore.newest_eq, List.getElem?_drop, ← hx]
      congr 1
      omega
    · cases hi : sender.shared.item p with
      | mk pos slot data => simp_all
  · rw [hcore.bytes, hcore.newest_eq]
    rfl
  · rw [hinv.run_panic he]
    decide
  · obtain ⟨hle, hlt, hkey⟩ := hinv.index s info.head (by rw [headOf, hs]; rfl)
    obtain ⟨x, hx, hpos, hslot, hdata⟩ := hcore.item hle hlt
    rw [hx, Option.map_some, Option.some.injEq] at hkey
    exact ⟨hle, hlt, hpos, hslot.trans hkey, by rw [hdata]; rfl⟩
  · rcases SenderShared.tryClear_spec hinv bytesMax slotsMax with ⟨s₁, hrun, -, hlim⟩ | ⟨s₁, hrun⟩
    · rw [hrun, Except.ok.injEq] at hc
      exact hc ▸ hlim
    · rw [hrun] at hc
      cases hc

/-- A processed status of a slot, of the given size. -/
def slotUpdate (slot : Slot) (size : ℕ) : Pushed :=
  (slot, .slot ⟨slot, none, .processed, none, ⟨0, 0⟩, size⟩)

/-- Six messages of three slots in a ring of four cells, then a clearing that
evicts one more. -/
theorem runOps_retained_six : ∃ sender, sender.head = 7 ∧ sender.tail = 10 ∧
    Retained 4 ([7, 7, 8, 7, 9, 9].map fun slot => slotUpdate slot 3) sender := by
  have hrun : ((SenderShared.fresh 4).runOps (([7, 7, 8, 7, 9, 9].map fun slot =>
      RingOp.push (slotUpdate slot 3)) ++ [.clear 9 2])).toOption.map
      (fun sender => (sender.head, sender.tail)) = some (7, 10) := by
    decide +kernel
  obtain ⟨sender, hok, hf⟩ := exists_of_toOption hrun
  rw [Prod.mk.injEq] at hf
  exact ⟨sender, hf.1, hf.2, runOps_retained ⟨2, rfl⟩ hok⟩

/-- A retained message is received exactly if it is not the newest one. -/
theorem tryRecv_iff (hN : ∃ k, N = 2 ^ k) {ops : List RingOp}
    (hok : (SenderShared.fresh N).runOps ops = .ok sender) {p : ℕ} (hp : sender.head ≤ p)
    (hp' : p < sender.tail) :
    (∃ x, (pushedBy ops)[p - N]? = some x ∧ sender.shared.tryRecv p = .ok (some x.2)) ↔
      p + 1 < sender.tail := by
  obtain ⟨hinv, hring, hbehind⟩ := SenderShared.fresh_inv hN hok
  obtain ⟨x, hx, hpos, -, hdata⟩ := hinv.core.item hp hp'
  rw [hring] at hx
  have hne : pushedBy ops ≠ [] := by
    intro he
    rw [he] at hx
    cases hx
  have ht := hbehind hne
  rw [Shared.tryRecv]
  by_cases hlt : p < sender.shared.tail
  · rw [if_pos hlt, if_neg (not_not.mpr hpos), hdata]
    exact ⟨fun _ => by omega, fun _ => ⟨x, hx, rfl⟩⟩
  · rw [if_neg hlt]
    constructor
    · rintro ⟨y, -, hy⟩
      cases hy
    · intro hnot
      omega

/-- The first of two messages is received. -/
theorem tryRecv_iff_first : ∃ (sender : SenderShared) (x : Pushed), sender.tail = 6 ∧
    [slotUpdate 1 3, slotUpdate 1 5][0]? = some x ∧
    sender.shared.tryRecv 4 = .ok (some x.2) := by
  have hrun : ((SenderShared.fresh 4).runOps [.push (slotUpdate 1 3),
      .push (slotUpdate 1 5)]).toOption.map (fun sender => (sender.head, sender.tail)) =
      some (4, 6) := by
    decide +kernel
  obtain ⟨sender, hok, hf⟩ := exists_of_toOption hrun
  rw [Prod.mk.injEq] at hf
  obtain ⟨x, hx, hrecv⟩ := (tryRecv_iff ⟨2, rfl⟩ hok hf.1.le (by omega)).mpr (by omega)
  exact ⟨sender, x, hf.2, hx, hrecv⟩

/-- A message that nothing has been pushed after is not received. -/
theorem newest_not_received : ¬∀ (N : ℕ) (ops : List RingOp) (sender : SenderShared) (p : ℕ),
    (∃ k, N = 2 ^ k) → (SenderShared.fresh N).runOps ops = .ok sender → sender.head ≤ p →
    p < sender.tail →
    ∃ x, (pushedBy ops)[p - N]? = some x ∧ sender.shared.tryRecv p = .ok (some x.2) := by
  intro hall
  have hrun : ((SenderShared.fresh 4).runOps [.push (slotUpdate 1 3)]).toOption.map
      (fun sender => (sender.head, sender.tail, sender.shared.tail)) = some (4, 5, 4) := by
    decide +kernel
  obtain ⟨sender, hok, hf⟩ := exists_of_toOption hrun
  simp only [Prod.mk.injEq] at hf
  obtain ⟨hhead, htail, hshared⟩ := hf
  obtain ⟨x, -, hrecv⟩ := hall 4 _ sender 4 ⟨2, rfl⟩ hok hhead.le (by omega)
  rw [Shared.tryRecv, if_neg (by omega)] at hrecv
  cases hrecv

end

end Dragonmouth.Richat
