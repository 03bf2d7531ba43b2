import Mathlib.Logic.Relation
import Dragonmouth.Richat.RingWriter

/-!
# Receivers of a ring

`try_recv` loads the shared tail, then reads one locked cell. Any number of
receivers do so while the sender carries out the writes of its operations, in
every order of these steps.

## Main definitions

- `Reader`: where a call of `try_recv` is
- `RingSystem`, `RingSystem.Step`: a ring with its receivers
- `Received`: what the result of a call says about the ring
-/

namespace Dragonmouth.Richat

/-- The result of a call of `try_recv`. -/
abbrev Recv := Except RecvError (Option ParsedMessage)

/-- The end of `try_recv`, with the item of the position asked for. -/
def Item.recv (item : Item) (head : ℕ) : Recv :=
  if item.pos ≠ head then .error .lagged
  else
    match item.data with
    | none => .error .lagged
    | some message => .ok (some message)

/-- A call without an interruption loads the tail and reads the item. -/
theorem Shared.tryRecv_eq (shared : Shared) (head : ℕ) : shared.tryRecv head =
    if head < shared.tail then (shared.view.item head).recv head else .ok none := rfl

/-- Where a call of `try_recv` is. `loadedAt` is a history variable: how many
writes had been done when the tail was loaded. -/
inductive Reader where
  /-- about to load the tail -/
  | loading (head : ℕ)
  /-- about to read the item -/
  | reading (head tail loadedAt : ℕ)
  | done (head tail loadedAt : ℕ) (result : Recv)

namespace Reader

/-- The position a call asks for. -/
def head : Reader → ℕ
  | loading head | reading head _ _ | done head _ _ _ => head

/-- Load the tail. -/
def load (head : ℕ) (ring : Ring) : Reader :=
  if head < ring.view.tail then .reading head ring.view.tail ring.history.length
  else .done head ring.view.tail ring.history.length (.ok none)

/-- Read the item. -/
def read (head tail loadedAt : ℕ) (ring : Ring) : Reader :=
  .done head tail loadedAt ((ring.view.item head).recv head)

/-- The call has returned. -/
def returned : Reader → Bool
  | done _ _ _ _ => true
  | _ => false

end Reader

/-- A ring with its receivers. -/
structure RingSystem where
  ring : Ring
  readers : ℕ → Option Reader

namespace RingSystem

/-- A ring of `N` cells without receivers. -/
def new (N : ℕ) : RingSystem := { ring := .new N, readers := fun _ => none }

def setReader (sys : RingSystem) (id : ℕ) (reader : Reader) : RingSystem :=
  { sys with readers := Function.update sys.readers id (some reader) }

/-- The steps of the sender and of the receivers. -/
inductive Step (sys : RingSystem) : RingSystem → Prop where
  | write (ring : Ring) (step : sys.ring.Step ring) : Step sys { sys with ring := ring }
  | call (id head : ℕ) (free : (sys.readers id).all Reader.returned = true) :
      Step sys (sys.setReader id (.loading head))
  | load (id head : ℕ) (loading : sys.readers id = some (.loading head)) :
      Step sys (sys.setReader id (.load head sys.ring))
  | read (id head tail loadedAt : ℕ)
      (reading : sys.readers id = some (.reading head tail loadedAt)) :
      Step sys (sys.setReader id (.read head tail loadedAt sys.ring))

/-- The states the sender and the receivers can bring a ring of `N` cells to. -/
inductive Reachable (N : ℕ) : RingSystem → Prop where
  | new : Reachable N (.new N)
  | step {sys sys' : RingSystem} (reachable : Reachable N sys) (step : Step sys sys') :
      Reachable N sys'

end RingSystem

/-- What the result of a call of `try_recv` says about the ring. -/
structure Received (N : ℕ) (ring : Ring) (head tail loadedAt : ℕ) (result : Recv) : Prop where
  /-- The `i`-th message is stored at the position `N + i`. -/
  positions : ring.history.filterMap RingWrite.toStore = ring.log.zipIdx N
  /-- `tail` is the position that was published when it was loaded. -/
  loaded : loadedAt ≤ ring.history.length ∧
    tail = publishedTail N (ring.history.take loadedAt)
  received : ∀ message, result = .ok (some message) →
    ∃ x, ring.log[head - N]? = some x ∧ x.2 = message
  empty : result = .ok none → tail ≤ head
  lagged : result = .error .lagged → Gone N head ring.history
  notClosed : result ≠ .error .closed

section

variable {N : ℕ} {ring ring' : Ring} {sys sys' : RingSystem}

-- ════════════════════════════════════════════════════════════════════════
-- What receivers know stays true
-- ════════════════════════════════════════════════════════════════════════

/-- A position loaded as the tail. -/
def Ring.Loaded (N : ℕ) (ring : Ring) (tail loadedAt : ℕ) : Prop :=
  loadedAt ≤ ring.history.length ∧ tail = publishedTail N (ring.history.take loadedAt)

/-- What a call knows about the ring, wherever it is. -/
def Reader.Knows (N : ℕ) (ring : Ring) : Reader → Prop
  | loading _ => True
  | reading head tail loadedAt => ring.Loaded N tail loadedAt ∧
      (N ≤ head → head < N + ring.log.length)
  | done head tail loadedAt result => ring.Loaded N tail loadedAt ∧
      (N ≤ head → Received N ring head tail loadedAt result)

/-- The sender only adds to the history. -/
theorem Ring.Step.history (hs : ring.Step ring') : ∃ ws, ring'.history = ring.history ++ ws := by
  cases hs with
  | begin op => exact ⟨[], (List.append_nil _).symm⟩
  | write w todo => exact ⟨[w], rfl⟩

theorem Ring.Loaded.append {tail loadedAt : ℕ} {ws : List RingWrite}
    (h : ring.Loaded N tail loadedAt) (hh : ring'.history = ring.history ++ ws) :
    ring'.Loaded N tail loadedAt := by
  obtain ⟨hle, ht⟩ := h
  refine ⟨?_, ?_⟩
  · rw [hh, List.length_append]
    omega
  · rw [hh, List.take_append_of_le_length hle, ht]

theorem Ring.log_append {ws : List RingWrite} (hh : ring'.history = ring.history ++ ws) :
    ∃ new, ring'.log = ring.log ++ new := by
  rw [Ring.log, hh, List.filterMap_append]
  exact ⟨_, rfl⟩

/-- What a call knows stays true while the sender is at work. -/
theorem Reader.Knows.append {reader : Reader} {ws : List RingWrite} (h : reader.Knows N ring)
    (hh : ring'.history = ring.history ++ ws) (hi : ring'.Inv N) : reader.Knows N ring' := by
  obtain ⟨new, hlog⟩ := Ring.log_append hh
  cases reader with
  | loading head => exact trivial
  | reading head tail loadedAt =>
    refine ⟨h.1.append hh, fun hle => ?_⟩
    have hlt := h.2 hle
    rw [hlog, List.length_append]
    omega
  | done head tail loadedAt result =>
    refine ⟨h.1.append hh, fun hle => ?_⟩
    have hr := h.2 hle
    refine
      { positions := hi.positions
        loaded := h.1.append hh
        received := fun message hres => ?_
        empty := hr.empty
        lagged := fun hres => hh ▸ (hr.lagged hres).append ws
        notClosed := hr.notClosed }
    obtain ⟨x, hx, hm⟩ := hr.received message hres
    obtain ⟨hlt, -⟩ := List.getElem?_eq_some_iff.mp hx
    exact ⟨x, by rw [hlog, List.getElem?_append_left hlt, hx], hm⟩

/-- The writes of an operation, carried out one after the other. -/
theorem Ring.finish_steps (todo : List RingWrite) (ring : Ring) (h : ring.todo = todo) :
    Relation.ReflTransGen Ring.Step ring ring.finish := by
  induction todo generalizing ring with
  | nil =>
    have heq : ring.finish = ring := by
      obtain ⟨view, sender, todo, panicked, history⟩ := ring
      obtain rfl : todo = [] := h
      simp [Ring.finish]
    rw [heq]
  | cons w todo ih =>
    have heq : ring.finish = (ring.write w todo).finish := by
      simp [Ring.finish, Ring.write, h]
    rw [heq]
    exact .head (.write w todo h) (ih _ rfl)

theorem Ring.run_steps {ring : Ring} (op : RingOp) (hidle : ring.todo = [])
    (halive : ring.panicked = false) : Relation.ReflTransGen Ring.Step ring (ring.run op) :=
  .head (.begin op hidle halive) (Ring.finish_steps _ _ rfl)

-- ════════════════════════════════════════════════════════════════════════
-- The steps of a receiver
-- ════════════════════════════════════════════════════════════════════════

theorem Ring.Inv.loaded (h : ring.Inv N) : ring.Loaded N ring.view.tail ring.history.length :=
  ⟨le_rfl, by rw [List.take_length, h.published]⟩

/-- A call that loads a tail past its position knows that a message was pushed there. -/
theorem Ring.Inv.load_knows (h : ring.Inv N) (head : ℕ) : (Reader.load head ring).Knows N ring := by
  rw [Reader.load]
  split
  · rename_i hlt
    refine ⟨h.loaded, fun hle => ?_⟩
    have := h.tail.2 (by omega)
    omega
  · rename_i hge
    refine ⟨h.loaded, fun hle => ?_⟩
    exact
      { positions := h.positions
        loaded := h.loaded
        received := fun message hres => by cases hres
        empty := fun _ => Nat.not_lt.mp hge
        lagged := fun hres => by cases hres
        notClosed := fun hres => by cases hres }

/-- Where a message has been pushed, a cell that does not hold it any more has
been written since, and a cell that does holds exactly that message. -/
theorem Ring.Inv.recv (h : ring.Inv N) {pos : ℕ} (hle : N ≤ pos)
    (hlt : pos < N + ring.log.length) :
    ((ring.view.item pos).recv pos = .error .lagged ∧ Gone N pos ring.history) ∨
      ∃ x, ring.log[pos - N]? = some x ∧ (ring.view.item pos).recv pos = .ok (some x.2) := by
  obtain ⟨head, hw, -, hgone⟩ := h.window
  have hitem : ring.view.cells (pos % N) = (ring.view.item pos).cell := by
    rw [View.item, h.getIdx]
    rfl
  by_cases hh : head ≤ pos
  · right
    obtain ⟨x, hx, hcell⟩ := hw.held hh hlt
    rw [hitem, Item.cell, RingLog.Cell.mk.injEq, Option.map_eq_some_iff] at hcell
    obtain ⟨hpos, message, hdata, rfl⟩ := hcell
    refine ⟨_, hx, ?_⟩
    rw [Item.recv, if_neg (not_not.mpr hpos), hdata]
  · left
    refine ⟨?_, hgone pos hle (by omega)⟩
    rw [Item.recv]
    split
    · rfl
    · rename_i hpos
      rw [not_not] at hpos
      cases hdata : (ring.view.item pos).data with
      | none => rfl
      | some message =>
        -- a cell with a value holds a position of the window
        exfalso
        have hval : (ring.view.cells (pos % N)).val =
            some ((ring.view.item pos).slot, message) := by
          rw [hitem, Item.cell, hdata]
          rfl
        have hN : 0 < N := by
          have := h.mask
          omega
        obtain ⟨q, hq, hq', hmod, hx⟩ := hw.exists_of_val (Nat.mod_lt pos hN) hval
        have hqle : N ≤ q := hw.base_le.trans hq
        obtain ⟨y, hy, hcell⟩ := hw.held hq hq'
        rw [hmod, hitem, Item.cell, RingLog.Cell.mk.injEq] at hcell
        omega

theorem Ring.Inv.read_knows (h : ring.Inv N) {head tail loadedAt : ℕ}
    (hr : (Reader.reading head tail loadedAt).Knows N ring) :
    (Reader.read head tail loadedAt ring).Knows N ring := by
  refine ⟨hr.1, fun hle => ?_⟩
  rcases h.recv hle (hr.2 hle) with ⟨hres, hgone⟩ | ⟨x, hx, hres⟩
  · rw [hres]
    exact
      { positions := h.positions
        loaded := hr.1
        received := fun message he => by cases he
        empty := fun he => by cases he
        lagged := fun _ => hgone
        notClosed := fun he => by cases he }
  · rw [hres]
    refine
      { positions := h.positions
        loaded := hr.1
        received := fun message he => ⟨x, hx, ?_⟩
        empty := fun he => by cases he
        lagged := fun he => by cases he
        notClosed := fun he => by cases he }
    rwa [Except.ok.injEq, Option.some.injEq] at he

namespace RingSystem

/-- The ring is sound and every call knows what it may conclude. -/
structure Inv (N : ℕ) (sys : RingSystem) : Prop where
  ring : sys.ring.Inv N
  readers : ∀ id reader, sys.readers id = some reader → reader.Knows N sys.ring

theorem Inv.setReader (h : sys.Inv N) (id : ℕ) {reader : Reader}
    (hr : reader.Knows N sys.ring) : (sys.setReader id reader).Inv N := by
  refine ⟨h.ring, fun i r hi => ?_⟩
  have hupd : (sys.setReader id reader).readers i =
      if i = id then some reader else sys.readers i := Function.update_apply ..
  rw [hupd] at hi
  split at hi
  · rw [Option.some.injEq] at hi
    exact hi ▸ hr
  · exact h.readers i r hi

/-- Every step preserves the invariant. -/
theorem Step.inv (hs : sys.Step sys') (h : sys.Inv N) : sys'.Inv N := by
  cases hs with
  | write ring hstep =>
    have hi := hstep.inv h.ring
    obtain ⟨ws, hh⟩ := hstep.history
    exact ⟨hi, fun id reader hr => (h.readers id reader hr).append hh hi⟩
  | call id head => exact h.setReader id trivial
  | load id head => exact h.setReader id (h.ring.load_knows head)
  | read id head tail loadedAt hr => exact h.setReader id (h.ring.read_knows (h.readers id _ hr))

theorem Reachable.inv (hN : ∃ k, N = 2 ^ k) (h : Reachable N sys) : sys.Inv N := by
  induction h with
  | new => exact ⟨.new hN, fun id reader hr => by cases hr⟩
  | step _ hs ih => exact hs.inv ih

/-- In every interleaving, the result of a call of `try_recv` at a position from
`N` on tells what became of the message of that position. -/
theorem tryRecv_interleaved (hN : ∃ k, N = 2 ^ k) (h : Reachable N sys)
    {id head tail loadedAt : ℕ} {result : Recv}
    (hr : sys.readers id = some (.done head tail loadedAt result)) (hle : N ≤ head) :
    Received N sys.ring head tail loadedAt result :=
  (((h.inv hN).readers id _ hr).2 hle)

theorem Reachable.write (h : Reachable N sys) {ring : Ring}
    (hs : Relation.ReflTransGen Ring.Step sys.ring ring) :
    Reachable N { sys with ring := ring } := by
  induction hs with
  | refl => exact h
  | tail _ hstep ih => exact ih.step (.write _ hstep)

theorem Reachable.run (h : Reachable N sys) (op : RingOp) (hidle : sys.ring.todo = [])
    (halive : sys.ring.panicked = false) : Reachable N { sys with ring := sys.ring.run op } :=
  h.write (Ring.run_steps op hidle halive)

/-- A call of `try_recv` without an interruption. -/
theorem Reachable.recv (h : Reachable N sys) (id head : ℕ)
    (hfree : (sys.readers id).all Reader.returned = true) (hlt : head < sys.ring.view.tail) :
    ∃ sys', Reachable N sys' ∧ sys'.ring = sys.ring ∧ sys'.readers id =
      some (.done head sys.ring.view.tail sys.ring.history.length
        ((sys.ring.view.item head).recv head)) := by
  have hself : ∀ (s : RingSystem) (reader : Reader),
      (s.setReader id reader).readers id = some reader := fun s reader => Function.update_self ..
  have hload : Reader.load head sys.ring =
      .reading head sys.ring.view.tail sys.ring.history.length := if_pos hlt
  have h₁ := (h.step (.call id head hfree)).step (.load id head (hself _ _))
  have h₂ := h₁.step (.read id head sys.ring.view.tail sys.ring.history.length
    ((hself _ _).trans (congrArg some hload)))
  exact ⟨_, h₂, rfl, hself _ _⟩

/-- The first of two messages of a ring of two cells is received. -/
theorem tryRecv_interleaved_first : ∃ (sys : RingSystem) (message : ParsedMessage),
    sys.readers 0 = some (.done 2 3 4 (.ok (some message))) ∧
    Received 2 sys.ring 2 3 4 (.ok (some message)) := by
  have h₁ := (Reachable.new (N := 2)).run (.push (slotUpdate 1 3)) rfl rfl
  have h₂ := h₁.run (.push (slotUpdate 1 5)) rfl (by decide +kernel)
  obtain ⟨sys, h, -, hr⟩ := h₂.recv 0 2 rfl (by decide +kernel)
  exact ⟨sys, (slotUpdate 1 3).2, hr, tryRecv_interleaved ⟨1, rfl⟩ h hr le_rfl⟩

end RingSystem

end

end Dragonmouth.Richat
