import Dragonmouth.Richat.RingRetained

/-!
# A ring while its writer is at work

`push` and `try_clear` write one locked cell, or the position receivers compare
with, at a time. Here the writes of an operation are carried out one by one, so
that receivers may look at the ring between any two of them. The operation
computes its writes from the ring it finds; nobody else writes.

A clearing that panics half-way has done some of its writes; the sender does
nothing more then.

## Main definitions

- `View`: what receivers see of a ring
- `Ring`, `Ring.Step`: a ring and the writes its sender has still to do
- `Plays`: the windows a sequence of writes leads through
- `Ring.Inv`: at every moment the cells receivers see form a window of the log
-/

namespace Dragonmouth.Richat

open RingLog

/-- The part of a ring `try_recv` reads. -/
structure View where
  tail : ℕ
  mask : ℕ
  buffer : ℕ → Item

namespace View

def getIdx (view : View) (pos : ℕ) : ℕ := pos &&& view.mask

def item (view : View) (pos : ℕ) : Item := view.buffer (view.getIdx pos)

def setItem (view : View) (pos : ℕ) (item : Item) : View :=
  { view with buffer := Function.update view.buffer (view.getIdx pos) item }

def cells (view : View) (i : ℕ) : Cell Pushed := (view.buffer i).cell

/-- In terms of cells, replacing an item updates the cell of its position. -/
theorem cells_setItem (view : View) (p : ℕ) (item : Item) :
    (view.setItem p item).cells = Function.update view.cells (view.getIdx p) item.cell := by
  funext i
  rw [cells, setItem]
  by_cases hi : i = view.getIdx p
  · subst i
    simp
  · simp [Function.update_of_ne hi, cells]

end View

def Shared.view (shared : Shared) : View := ⟨shared.tail, shared.mask, shared.buffer⟩

namespace RingWrite

def apply (view : View) : RingWrite → View
  | take pos => view.setItem pos { view.item pos with data := none }
  | store pos slot message => view.setItem pos { pos := pos, slot := slot, data := some message }
  | tail pos => { view with tail := pos }

/-- The message a write stores, with its position. -/
def toStore : RingWrite → Option (Pushed × ℕ)
  | store pos slot message => some ((slot, message), pos)
  | _ => none

/-- The position a write publishes to receivers. -/
def toTail : RingWrite → Option ℕ
  | tail pos => some pos
  | _ => none

end RingWrite

/-- The sender an outcome leaves behind. -/
def Outcome.sender : Outcome → SenderShared
  | .ok sender => sender
  | .error e => e.sender

def Outcome.panicked : Outcome → Bool
  | .ok _ => false
  | .error _ => true

/-- A ring, its sender, and the operation the sender is carrying out. -/
structure Ring where
  view : View
  /-- the sender at the end of the operation -/
  sender : SenderShared
  /-- the writes the operation has still to do -/
  todo : List RingWrite
  /-- the operation ends with a panic -/
  panicked : Bool
  /-- history variable: the writes done so far -/
  history : List RingWrite

namespace Ring

/-- A ring of `N` cells before anything has been pushed. -/
def new (N : ℕ) : Ring :=
  { view := (SenderShared.fresh N).shared.view
    sender := SenderShared.fresh N
    todo := []
    panicked := false
    history := [] }

/-- The messages stored so far. -/
def log (ring : Ring) : List Pushed :=
  ring.history.filterMap fun w => w.toStore.map Prod.fst

/-- Begin an operation. -/
def start (ring : Ring) (outcome : Outcome) : Ring :=
  { ring with
    sender := { outcome.sender with writes := [] }
    todo := outcome.sender.writes
    panicked := outcome.panicked }

/-- Carry out one write. -/
def write (ring : Ring) (w : RingWrite) (todo : List RingWrite) : Ring :=
  { ring with view := w.apply ring.view, todo := todo, history := ring.history ++ [w] }

/-- Carry out all writes that are left. -/
def finish (ring : Ring) : Ring :=
  { ring with
    view := ring.todo.foldl RingWrite.apply ring.view
    todo := []
    history := ring.history ++ ring.todo }

/-- An operation without an interruption. -/
def run (ring : Ring) (op : RingOp) : Ring := (ring.start (op.run ring.sender)).finish

/-- The steps of the sender. -/
inductive Step (ring : Ring) : Ring → Prop where
  | begin (op : RingOp) (idle : ring.todo = []) (alive : ring.panicked = false) :
      Step ring (ring.start (op.run ring.sender))
  | write (w : RingWrite) (todo : List RingWrite) (next : ring.todo = w :: todo) :
      Step ring (ring.write w todo)

end Ring

-- ════════════════════════════════════════════════════════════════════════
-- The writes of an operation
-- ════════════════════════════════════════════════════════════════════════

/-- The writes that empty the cells of `n` positions from `head` on. -/
def takesFrom (head n : ℕ) : List RingWrite := (List.range' head n).map .take

namespace SenderShared

variable {sender s₁ s₂ : SenderShared} {log : List Pushed} {x : Pushed}

/-- `ws` are the writes that lead from a sender to another. -/
structure Writes (sender sender' : SenderShared) (ws : List RingWrite) : Prop where
  writes : sender'.writes = sender.writes ++ ws
  view : sender'.shared.view = ws.foldl RingWrite.apply sender.shared.view

theorem Writes.trans {ws ws' : List RingWrite} (h : Writes sender s₁ ws) (h' : Writes s₁ s₂ ws') :
    Writes sender s₂ (ws ++ ws') := by
  refine ⟨?_, ?_⟩
  · rw [h'.writes, h.writes, List.append_assoc]
  · rw [h'.view, h.view, List.foldl_append]

theorem Writes.none (hw : s₁.writes = sender.writes) (hs : s₁.shared.view = sender.shared.view) :
    Writes sender s₁ [] := ⟨by rw [hw, List.append_nil], hs⟩

/-- A sender that has emptied the cells from its head on, up to the tail at most. -/
structure Takes (sender sender' : SenderShared) : Prop where
  tail : sender'.tail = sender.tail
  head : sender.head ≤ sender'.head
  bound : sender.head ≤ sender.tail → sender'.head ≤ sender.tail
  takes : Writes sender sender' (takesFrom sender.head (sender'.head - sender.head))

theorem Takes.none (hh : s₁.head = sender.head) (ht : s₁.tail = sender.tail)
    (hw : s₁.writes = sender.writes) (hs : s₁.shared.view = sender.shared.view) :
    Takes sender s₁ := by
  refine ⟨ht, hh.ge, fun h => hh ▸ h, ?_⟩
  rw [hh, Nat.sub_self]
  exact .none hw hs

theorem Takes.refl (sender : SenderShared) : Takes sender sender := .none rfl rfl rfl rfl

theorem Takes.trans (h : Takes sender s₁) (h' : Takes s₁ s₂) : Takes sender s₂ := by
  have hle := h.head
  have hle' := h'.head
  refine ⟨h'.tail.trans h.tail, hle.trans hle', fun hb => ?_, ?_⟩
  · have hb₁ := h.bound hb
    rw [← h.tail] at hb₁ ⊢
    exact h'.bound hb₁
  · have hr : takesFrom sender.head (s₂.head - sender.head) =
        takesFrom sender.head (s₁.head - sender.head) ++
          takesFrom s₁.head (s₂.head - s₁.head) := by
      have hadd : sender.head + (s₁.head - sender.head) = s₁.head := by omega
      have hsum : s₁.head - sender.head + (s₂.head - s₁.head) = s₂.head - sender.head := by omega
      rw [takesFrom, takesFrom, takesFrom, ← List.map_append, ← hsum, ← List.range'_append_1, hadd]
    rw [hr]
    exact h.takes.trans h'.takes

/-- A computation of which every stage empties cells empties cells. -/
theorem Takes.bind {outcome : Outcome} {f : SenderShared → Outcome}
    (h : Takes sender outcome.sender) (hf : ∀ s, outcome = .ok s → Takes s (f s).sender) :
    Takes sender (Outcome.sender (outcome >>= f)) := by
  cases outcome with
  | error e => exact h
  | ok s => exact h.trans (hf s rfl)

@[simp] theorem forget_writes (s : Slot) : (sender.forget s).writes = sender.writes := by
  rw [forget]
  split <;> rfl

@[simp] theorem forget_view (s : Slot) :
    (sender.forget s).shared.view = sender.shared.view := by
  rw [forget]
  split <;> rfl

theorem forget_takes (sender : SenderShared) (s : Slot) : Takes sender (sender.forget s) :=
  .none (forget_head s) (forget_tail s) (forget_writes s) (forget_view s)

/-- The beginning of every eviction empties the cell of the head, if it does
anything. -/
theorem evictHead_takes (hlt : sender.head < sender.tail) (onEmpty : Panic) :
    Takes sender (sender.evictHead onEmpty).sender := by
  rw [evictHead]
  split
  · exact .refl _
  · rename_i message _
    have htaken : Takes sender ((sender.takeItem sender.head).advanceHead) := by
      have hone : sender.head + 1 - sender.head = 1 := by omega
      refine ⟨rfl, Nat.le_succ _, fun _ => hlt, ?_⟩
      change Writes sender _ (takesFrom sender.head (sender.head + 1 - sender.head))
      rw [hone]
      exact ⟨rfl, rfl⟩
    rw [subBytes]
    split
    · exact htaken
    · exact htaken.trans (.none rfl rfl rfl rfl)

theorem dropBytes_takes (bytesMax n : ℕ) (sender : SenderShared) :
    Takes sender (dropBytes bytesMax n sender).sender := by
  induction n generalizing sender with
  | zero =>
    rw [dropBytes]
    split <;> exact .refl _
  | succ n ih =>
    rw [dropBytes]
    split
    · split
      · rename_i hlt
        exact (evictHead_takes hlt _).bind fun s _ => (forget_takes s _).trans (ih _)
      · exact .refl _
    · exact .refl _

theorem dropUpTo_takes (slotHead n : ℕ) (sender : SenderShared) :
    Takes sender (dropUpTo slotHead n sender).sender := by
  induction n generalizing sender with
  | zero => exact .refl _
  | succ n ih =>
    rw [dropUpTo]
    split
    · split
      · rename_i hlt
        exact (evictHead_takes hlt _).bind fun s _ => (forget_takes s _).trans (ih _)
      · exact .refl _
    · exact .refl _

theorem dropSame_takes (slotMin : Slot) (n : ℕ) (sender : SenderShared) :
    Takes sender (dropSame slotMin n sender).sender := by
  induction n generalizing sender with
  | zero => exact .refl _
  | succ n ih =>
    rw [dropSame]
    split
    · split
      · exact .refl _
      · rename_i hlt _
        exact (evictHead_takes hlt _).bind fun s _ => ih s
    · exact .refl _

theorem dropSlots_takes (slotsMax n : ℕ) (sender : SenderShared) :
    Takes sender (dropSlots slotsMax n sender).sender := by
  induction n generalizing sender with
  | zero => exact .refl _
  | succ n ih =>
    rw [dropSlots]
    split
    · split
      · exact .refl _
      · rename_i slotMin slotInfo slots _
        have herase : Takes sender { sender with slots := slots } := .none rfl rfl rfl rfl
        refine herase.trans (Takes.bind ?_ fun s _ => ih s)
        exact (dropUpTo_takes _ _ _).bind fun s _ => dropSame_takes _ _ _
    · exact .refl _

/-- Whatever its outcome, a clearing empties the cells of the oldest messages. -/
theorem tryClear_takes (sender : SenderShared) (bytesMax slotsMax : ℕ) :
    Takes sender (sender.tryClear bytesMax slotsMax).sender :=
  (dropBytes_takes _ _ _).bind fun s _ => dropSlots_takes _ _ s

@[simp] theorem insertSlot_writes (s : Slot) (p : ℕ) :
    (sender.insertSlot s p).writes = sender.writes := by
  rw [insertSlot]
  split <;> rfl

@[simp] theorem insertSlot_view (s : Slot) (p : ℕ) :
    (sender.insertSlot s p).shared.view = sender.shared.view := by
  rw [insertSlot]
  split <;> rfl

/-- The two writes of a push. -/
def pushWrites (pos : ℕ) (x : Pushed) : List RingWrite := [.store pos x.1 x.2, .tail pos]

theorem stored_writes (sender : SenderShared) (pos : ℕ) (x : Pushed) :
    Writes sender (sender.stored pos x) (pushWrites pos x) := by
  refine ⟨?_, ?_⟩
  · rw [stored, insertSlot_writes]
    exact List.append_assoc _ _ _
  · rw [stored, insertSlot_view]
    rfl

/-- A push stores its message at the tail, then publishes the position. -/
theorem push_writes (h : sender.Core log) (hok : sender.push x.1 x.2 = .ok s₁) :
    Writes sender s₁ (pushWrites sender.tail x) ∧
      s₁.head = if sender.tail < sender.head + sender.ringSize then sender.head
        else sender.head + 1 := by
  have hstored := fun s : SenderShared => stored_writes s.bumped sender.tail x
  rcases push_eq h x with ⟨hlt, hrun⟩ | ⟨hfull, y, -, hrun⟩
  · rw [hok, Except.ok.injEq] at hrun
    subst hrun
    obtain ⟨-, -, -, hh⟩ := stored_pushes sender sender.tail x
    have hbump : Writes sender sender.bumped [] := .none rfl rfl
    exact ⟨hbump.trans (hstored sender), by rw [hh, if_pos hlt]⟩
  · rw [hok, Except.ok.injEq] at hrun
    subst hrun
    obtain ⟨-, -, -, hh⟩ := stored_pushes (sender.left y) sender.tail x
    obtain ⟨-, -, -, hhead, -⟩ := left_fields sender y
    have hleft : Writes sender (sender.left y).bumped [] :=
      .none (forget_writes y.1) (forget_view y.1)
    refine ⟨hleft.trans (hstored _), ?_⟩
    rw [hh, hhead, if_neg (by omega)]

end SenderShared

/-- The writes lead from the window of the last two arguments to the window of
the first two: they take at the head, store at the tail and publish positions
that have been stored. -/
def Plays (N head' tail' : ℕ) : ℕ → ℕ → List RingWrite → Prop
  | head, tail, [] => head = head' ∧ tail = tail'
  | head, tail, .take pos :: ws => pos = head ∧ head < tail ∧ Plays N head' tail' (head + 1) tail ws
  | head, tail, .store pos _ _ :: ws =>
    pos = tail ∧ Plays N head' tail' (if tail < head + N then head else head + 1) (tail + 1) ws
  | head, tail, .tail pos :: ws => pos + 1 = tail ∧ N ≤ pos ∧ Plays N head' tail' head tail ws

theorem plays_takes {N head tail n : ℕ} (h : head + n ≤ tail) :
    Plays N (head + n) tail head tail (takesFrom head n) := by
  induction n generalizing head with
  | zero => exact ⟨rfl, rfl⟩
  | succ n ih =>
    have hn : head + (n + 1) = head + 1 + n := by omega
    rw [hn] at h ⊢
    exact ⟨rfl, by omega, ih h⟩

/-- The writes of an operation lead to the window of the sender it leaves behind. -/
theorem plays_run {sender : SenderShared} {log : List Pushed} (h : sender.Inv log) (op : RingOp) :
    ∃ ws, SenderShared.Writes sender (op.run sender).sender ws ∧
      ws.filterMap RingWrite.toStore = op.pushed.toList.zipIdx sender.tail ∧
      Plays sender.ringSize (op.run sender).sender.head (op.run sender).sender.tail sender.head
        sender.tail ws := by
  have hw := h.core.window
  cases op with
  | push x =>
    obtain ⟨s₁, hok, -, hp⟩ := SenderShared.push_spec h x
    obtain ⟨hws, hhead⟩ := SenderShared.push_writes h.core hok
    rw [RingOp.run, hok]
    refine ⟨_, hws, rfl, rfl, rfl, hw.base_le.trans hw.head_le, hhead.symm, hp.tail.symm⟩
  | clear bytesMax slotsMax =>
    have ht := SenderShared.tryClear_takes sender bytesMax slotsMax
    have hle := ht.head
    have hbound := ht.bound hw.head_le
    refine ⟨_, ht.takes, ?_, ?_⟩
    · rw [takesFrom, List.filterMap_map]
      exact List.filterMap_eq_nil_iff.mpr fun _ _ => rfl
    · rw [RingOp.run, ht.tail]
      have hp := plays_takes (N := sender.ringSize)
        (show sender.head + ((sender.tryClear bytesMax slotsMax).sender.head - sender.head) ≤
          sender.tail by omega)
      rwa [Nat.add_sub_cancel' hle] at hp

-- ════════════════════════════════════════════════════════════════════════
-- The invariant of a ring at work
-- ════════════════════════════════════════════════════════════════════════

/-- A write after which the message stored at a position is no longer in its cell. -/
def RingWrite.Displaces (N pos : ℕ) : RingWrite → Prop
  | take p => p = pos
  | store p _ _ => p = pos + N
  | tail _ => False

/-- A message has been stored at the position, and has been evicted or overwritten since. -/
def Gone (N pos : ℕ) (history : List RingWrite) : Prop :=
  ∃ ws, ∃ x : Pushed, ∃ ws' w ws'',
    history = ws ++ .store pos x.1 x.2 :: ws' ++ w :: ws'' ∧ w.Displaces N pos

theorem Gone.append {N pos : ℕ} {history : List RingWrite} (h : Gone N pos history)
    (ws : List RingWrite) : Gone N pos (history ++ ws) := by
  obtain ⟨ws₁, x, ws₂, w, ws₃, rfl, hw⟩ := h
  exact ⟨ws₁, x, ws₂, w, ws₃ ++ ws, by simp, hw⟩

/-- The position receivers compare with after a sequence of writes. -/
def publishedTail (N : ℕ) (history : List RingWrite) : ℕ :=
  ((history.filterMap RingWrite.toTail).getLast?).getD N

namespace Ring

variable {N : ℕ} {ring ring' : Ring}

/-- The messages the operation in progress has still to store. -/
def pending (ring : Ring) : List Pushed :=
  ring.todo.filterMap fun w => w.toStore.map Prod.fst

/-- At every moment the cells receivers see form a window of the log, and the
writes to be done lead to the window of the sender. -/
structure Inv (N : ℕ) (ring : Ring) : Prop where
  pow : ∃ k, N = 2 ^ k
  mask : ring.view.mask + 1 = N
  /-- The `i`-th message is stored at the position `N + i`. -/
  positions : ring.history.filterMap RingWrite.toStore = ring.log.zipIdx N
  published : ring.view.tail = publishedTail N ring.history
  tail : N ≤ ring.view.tail ∧ (N < ring.view.tail → ring.view.tail < N + ring.log.length)
  window : ∃ head, Window N ring.view.cells head (N + ring.log.length) ring.log ∧
    Plays N ring.sender.head ring.sender.tail head (N + ring.log.length) ring.todo ∧
    ∀ pos, N ≤ pos → pos < head → Gone N pos ring.history
  synced : ring.todo.foldl RingWrite.apply ring.view = ring.sender.shared.view
  drained : ring.sender.writes = []
  sender : ring.panicked = false → ring.sender.Inv (ring.log ++ ring.pending) ∧
    ring.sender.TailBehind (ring.log ++ ring.pending)

theorem Inv.new (hN : ∃ k, N = 2 ^ k) : (new N).Inv N := by
  have hinv := SenderShared.Inv.fresh hN
  obtain ⟨k, rfl⟩ := hN
  have hsize : (SenderShared.fresh (2 ^ k)).ringSize = 2 ^ k :=
    Nat.sub_add_cancel Nat.one_le_two_pow
  have hw := hinv.core.window
  rw [hsize] at hw
  refine
    { pow := ⟨k, rfl⟩
      mask := hsize
      positions := rfl
      published := rfl
      tail := ⟨le_rfl, fun hlt => absurd hlt (Nat.lt_irrefl _)⟩
      window := ⟨2 ^ k, hw, ⟨rfl, rfl⟩, fun pos hle hlt => absurd hle (Nat.not_le.mpr hlt)⟩
      synced := rfl
      drained := rfl
      sender := fun _ => ⟨hinv, fun hne => absurd rfl hne⟩ }

theorem Inv.getIdx (h : ring.Inv N) (p : ℕ) : ring.view.getIdx p = p % N := by
  obtain ⟨k, hk⟩ := h.pow
  have hm : ring.view.mask + 1 = 2 ^ k := h.mask.trans hk
  rw [View.getIdx, and_mask_eq_mod hm, h.mask]

/-- Between two operations receivers see the ring of the sender. -/
theorem Inv.view_of_idle (h : ring.Inv N) (hidle : ring.todo = []) :
    ring.view = ring.sender.shared.view := by
  have hs := h.synced
  rwa [hidle] at hs

/-- Beginning an operation changes nothing receivers see. -/
theorem Inv.start (h : ring.Inv N) (hidle : ring.todo = []) (halive : ring.panicked = false)
    (op : RingOp) : (ring.start (op.run ring.sender)).Inv N := by
  obtain ⟨head, hw, hplays, hgone⟩ := h.window
  obtain ⟨hinv, hbehind⟩ := h.sender halive
  rw [pending, hidle, List.filterMap_nil, List.append_nil] at hinv hbehind
  rw [hidle] at hplays
  obtain ⟨hhead, htail⟩ := hplays
  have hview := h.view_of_idle hidle
  have hsize : ring.sender.ringSize = N := by
    rw [← h.mask, hview]
    rfl
  obtain ⟨ws, hws, hst, hrun⟩ := plays_run hinv op
  have htodo : (op.run ring.sender).sender.writes = ws := by
    rw [hws.writes, h.drained, List.nil_append]
  rw [hsize, ← hhead, ← htail] at hrun
  refine
    { pow := h.pow
      mask := h.mask
      positions := h.positions
      published := h.published
      tail := h.tail
      window := ⟨head, hw, ?_, hgone⟩
      synced := ?_
      drained := rfl
      sender := fun hok => ?_ }
  · change Plays N _ _ head _ (op.run ring.sender).sender.writes
    rw [htodo]
    exact hrun
  · change (op.run ring.sender).sender.writes.foldl RingWrite.apply ring.view = _
    rw [htodo, hview]
    exact hws.view.symm
  · have hpend : (ring.start (op.run ring.sender)).pending = op.pushed.toList := by
      change (op.run ring.sender).sender.writes.filterMap _ = _
      rw [htodo, ← List.map_filterMap, hst, List.zipIdx_map_fst]
    rw [hpend]
    cases hout : op.run ring.sender with
    | error e =>
      rw [hout] at hok
      cases hok
    | ok s =>
      obtain ⟨hi, -, hb⟩ := SenderShared.run_inv hinv hbehind hout
      exact ⟨⟨⟨hi.core.mask, hi.core.window, hi.core.bytes⟩, hi.index⟩, hb⟩

/-- A stored message displaced by a new write is gone. -/
theorem Inv.gone (h : ring.Inv N) {pos : ℕ} (hle : N ≤ pos) (hlt : pos < N + ring.log.length)
    {w : RingWrite} (hw : w.Displaces N pos) : Gone N pos (ring.history ++ [w]) := by
  have hmem : (ring.log[pos - N], pos) ∈ ring.log.zipIdx N := by
    rw [List.mk_mem_zipIdx_iff_le_and_getElem?_sub]
    exact ⟨hle, List.getElem?_eq_getElem _⟩
  rw [← h.positions, List.mem_filterMap] at hmem
  obtain ⟨v, hv, hst⟩ := hmem
  obtain ⟨ws, ws', hsplit⟩ := List.append_of_mem hv
  cases v with
  | store p slot message =>
    simp only [RingWrite.toStore, Option.some.injEq, Prod.mk.injEq] at hst
    obtain ⟨-, rfl⟩ := hst
    exact ⟨ws, (slot, message), ws', w, [], by rw [hsplit], hw⟩
  | take p => cases hst
  | tail p => cases hst

theorem log_write (ring : Ring) (w : RingWrite) (todo : List RingWrite) :
    (ring.write w todo).log = ring.log ++ (w.toStore.map Prod.fst).toList := by
  rw [log, write, List.filterMap_append, log]
  cases w <;> rfl

theorem pending_cons {w : RingWrite} {todo : List RingWrite} (hnext : ring.todo = w :: todo) :
    ring.pending = (w.toStore.map Prod.fst).toList ++ (ring.write w todo).pending := by
  rw [pending, hnext, pending, write]
  cases w <;> rfl

/-- What does not depend on the kind of write. -/
theorem Inv.write_of (h : ring.Inv N) {w : RingWrite} {todo : List RingWrite}
    (hnext : ring.todo = w :: todo)
    (hpos : ∀ x p, w.toStore = some (x, p) → p = N + ring.log.length)
    (htail : ∀ p, w.toTail = some p → N ≤ p ∧ p < N + ring.log.length)
    (hwindow : ∃ head, Window N (w.apply ring.view).cells head
        (N + (ring.write w todo).log.length) (ring.write w todo).log ∧
      Plays N ring.sender.head ring.sender.tail head (N + (ring.write w todo).log.length) todo ∧
      ∀ pos, N ≤ pos → pos < head → Gone N pos (ring.history ++ [w])) :
    (ring.write w todo).Inv N := by
  have hlog := log_write ring w todo
  have hview : (w.apply ring.view).mask = ring.view.mask ∧
      (w.apply ring.view).tail = (w.toTail.getD ring.view.tail) := by
    cases w <;> exact ⟨rfl, rfl⟩
  have hpub : publishedTail N (ring.history ++ [w]) =
      w.toTail.getD (publishedTail N ring.history) := by
    rw [publishedTail, List.filterMap_append, publishedTail]
    cases w <;> simp [RingWrite.toTail]
  obtain ⟨hle, hlt⟩ := h.tail
  have hlen : ring.log.length ≤ (ring.write w todo).log.length := by
    rw [hlog, List.length_append]
    omega
  refine
    { pow := h.pow
      mask := hview.1 ▸ h.mask
      positions := ?_
      published := ?_
      tail := ?_
      window := hwindow
      synced := ?_
      drained := h.drained
      sender := fun hok => ?_ }
  · change (ring.history ++ [w]).filterMap RingWrite.toStore = _
    rw [List.filterMap_append, h.positions, hlog]
    cases hst : w.toStore with
    | none => simp [hst]
    | some xp =>
      obtain ⟨x, p⟩ := xp
      rw [hpos x p hst] at hst
      simp [hst, List.zipIdx_append]
  · change (w.apply ring.view).tail = publishedTail N (ring.history ++ [w])
    rw [hview.2, hpub, h.published]
  · change N ≤ (w.apply ring.view).tail ∧ (N < (w.apply ring.view).tail →
      (w.apply ring.view).tail < N + (ring.write w todo).log.length)
    rw [hview.2]
    cases ht : w.toTail with
    | none => exact ⟨hle, fun hgt => (hlt hgt).trans_le (by omega)⟩
    | some p =>
      obtain ⟨hp, hp'⟩ := htail p ht
      exact ⟨hp, fun _ => hp'.trans_le (by omega)⟩
  · have hs := h.synced
    rw [hnext] at hs
    exact hs
  · have hs := h.sender hok
    rw [pending_cons hnext, ← List.append_assoc, ← hlog] at hs
    exact hs

section Write

variable {todo : List RingWrite} {head p : ℕ}

/-- Emptying the cell of the oldest message. -/
theorem Inv.writeTake (h : ring.Inv N) (hnext : ring.todo = .take p :: todo)
    (hw : Window N ring.view.cells p (N + ring.log.length) ring.log)
    (hlt : p < N + ring.log.length)
    (hplays : Plays N ring.sender.head ring.sender.tail (p + 1) (N + ring.log.length) todo)
    (hgone : ∀ pos, N ≤ pos → pos < p → Gone N pos (ring.history ++ [.take p])) :
    (ring.write (.take p) todo).Inv N := by
  have hlog : (ring.write (.take p) todo).log = ring.log :=
    (log_write ring (.take p) todo).trans (List.append_nil _)
  refine h.write_of hnext (fun _ _ hst => by cases hst) (fun _ ht => by cases ht)
    ⟨p + 1, ?_, ?_, ?_⟩
  · obtain ⟨x, -, hcell⟩ := hw.held le_rfl hlt
    have hpos : (ring.view.item p).pos = p := by
      have hc := congrArg Cell.pos hcell
      rwa [← h.getIdx] at hc
    rw [hlog, RingWrite.apply, View.cells_setItem, h.getIdx]
    have hevict := hw.evict hlt
    simp only [Item.cell, hpos]
    exact hevict
  · rwa [hlog]
  · intro pos hle hlt'
    obtain hlt' | rfl := Nat.lt_succ_iff_lt_or_eq.mp hlt'
    · exact hgone pos hle hlt'
    · exact h.gone hle hlt rfl

/-- Storing a message behind the newest one. -/
theorem Inv.writeStore {slot : Slot} {message : ParsedMessage} (h : ring.Inv N)
    (hnext : ring.todo = .store (N + ring.log.length) slot message :: todo)
    (hw : Window N ring.view.cells head (N + ring.log.length) ring.log)
    (hplays : Plays N ring.sender.head ring.sender.tail
      (if N + ring.log.length < head + N then head else head + 1) (N + ring.log.length + 1) todo)
    (hgone : ∀ pos, N ≤ pos → pos < head →
      Gone N pos (ring.history ++ [.store (N + ring.log.length) slot message])) :
    (ring.write (.store (N + ring.log.length) slot message) todo).Inv N := by
  have hlog : (ring.write (.store (N + ring.log.length) slot message) todo).log =
      ring.log ++ [(slot, message)] := log_write ring _ todo
  have hN : 0 < N := by
    have := h.mask
    omega
  have hbase := hw.base_le
  have htail := hw.tail_le
  have hhead := hw.head_le
  refine h.write_of hnext (fun _ _ hst => ?_) (fun _ ht => by cases ht)
    ⟨if N + ring.log.length < head + N then head else head + 1, ?_, ?_, ?_⟩
  · simp only [RingWrite.toStore, Option.some.injEq, Prod.mk.injEq] at hst
    exact hst.2.symm
  · rw [hlog, RingWrite.apply, View.cells_setItem, h.getIdx, List.length_append]
    refine hw.store (slot, message) ?_ ?_ ?_ ?_
    · split <;> omega
    · split <;> omega
    · split <;> omega
    · intro q hq hq'
      split at hq' <;> omega
  · rw [hlog, List.length_append]
    exact hplays
  · intro pos hle hlt
    by_cases hlt' : pos < head
    · exact hgone pos hle hlt'
    · split at hlt
      · omega
      · exact h.gone hle (by omega) (show N + ring.log.length = pos + N by omega)

/-- Publishing a position. -/
theorem Inv.writeTail (h : ring.Inv N) (hnext : ring.todo = .tail p :: todo)
    (hw : Window N ring.view.cells head (N + ring.log.length) ring.log)
    (hle : N ≤ p) (hlt : p < N + ring.log.length)
    (hplays : Plays N ring.sender.head ring.sender.tail head (N + ring.log.length) todo)
    (hgone : ∀ pos, N ≤ pos → pos < head → Gone N pos (ring.history ++ [.tail p])) :
    (ring.write (.tail p) todo).Inv N := by
  have hlog : (ring.write (.tail p) todo).log = ring.log :=
    (log_write ring (.tail p) todo).trans (List.append_nil _)
  refine h.write_of hnext (fun _ _ hst => by cases hst) (fun q ht => ?_) ⟨head, ?_, ?_, hgone⟩
  · cases ht
    exact ⟨hle, hlt⟩
  · rw [hlog]
    exact hw
  · rwa [hlog]

/-- Carrying out one write preserves the invariant. -/
theorem Inv.write (h : ring.Inv N) {w : RingWrite} (hnext : ring.todo = w :: todo) :
    (ring.write w todo).Inv N := by
  obtain ⟨head, hw, hplays, hgone⟩ := h.window
  have hkeep : ∀ pos, N ≤ pos → pos < head → Gone N pos (ring.history ++ [w]) :=
    fun pos hle hlt => (hgone pos hle hlt).append [w]
  rw [hnext] at hplays
  cases w with
  | take p =>
    obtain ⟨rfl, hlt, hplays⟩ := hplays
    exact h.writeTake hnext hw hlt hplays hkeep
  | store p slot message =>
    obtain ⟨rfl, hplays⟩ := hplays
    exact h.writeStore hnext hw hplays hkeep
  | tail p =>
    obtain ⟨hp, hle, hplays⟩ := hplays
    exact h.writeTail hnext hw hle (by omega) hplays hkeep

end Write

/-- Every step of the sender preserves the invariant. -/
theorem Step.inv (hs : ring.Step ring') (h : ring.Inv N) : ring'.Inv N := by
  cases hs with
  | begin op hidle halive => exact h.start hidle halive op
  | write w todo hnext => exact h.write hnext

end Ring

end Dragonmouth.Richat
