import Dragonmouth.Foundations.Registry
import Mathlib.Algebra.Group.Nat.Defs

/-!
# The shutdown registry

The handles of one `Shutdown` share a flag and a map from ids to wakers behind a
mutex. A clone takes the least free id, a drop gives its id back, and a poll
stores a waker under its own id. Each operation holds the mutex, so a run of the
program is a sequence of operations.

## Main definitions

- `State`: what the handles share, with the body of each operation
- `System`: the shared state and the handles, with what has been polled and woken
- `System.run`: a sequence of operations
- `Inv`: its invariant
-/

namespace Dragonmouth.Transports.Shutdown

open Finmap

/-- What the handles share: the flag and the wakers by id. -/
structure State (W : Type) where
  shutdown : Bool
  map : OrderedMap ℕ (Option W)

inductive Poll where
  | ready
  | pending
  deriving DecidableEq

variable {W : Type}

-- ════════════════════════════════════════════════════════════════════════
-- The operations
-- ════════════════════════════════════════════════════════════════════════

namespace State

/-- `State::get_next_id`: the index goes through `0..u64::MAX`. -/
def getNextId (state : State W) : ℕ :=
  (state.map.sortedKeys.firstGap (2 ^ 64 - 1) 0).getD (state.map.len % 2 ^ 64)

/-- The insertion of a handle that has not been polled, with its id. -/
def register (state : State W) : State W × ℕ :=
  let id := state.getNextId
  ({ state with map := state.map.insert id none }, id)

/-- `Shutdown::new`. -/
def new : State W × ℕ := register ⟨false, ∅⟩

/-- `Clone for Shutdown`. -/
def clone (state : State W) : State W × ℕ := state.register

/-- `Drop for Shutdown`. -/
def drop (state : State W) (id : ℕ) : State W :=
  { state with map := state.map.erase id }

/-- `Future for Shutdown`. -/
def poll (state : State W) (id : ℕ) (waker : W) : Poll × State W :=
  if state.shutdown then (.ready, state)
  else (.pending, { state with map := state.map.insert id (some waker) })

/-- The loop of `shutdown` over `values_mut`; it returns the wakers it wakes. -/
def wakeLoop : List ℕ → OrderedMap ℕ (Option W) → OrderedMap ℕ (Option W) × List W
  | [], map => (map, [])
  | key :: keys, map =>
    match map.lookup key with
    | some (some waker) =>
      let (map, woken) := wakeLoop keys (map.insert key none)
      (map, waker :: woken)
    | _ => wakeLoop keys map

/-- `Shutdown::shutdown`, with the wakers it wakes. -/
def setShutdown (state : State W) : State W × List W :=
  let (map, woken) := wakeLoop state.map.sortedKeys state.map
  (⟨true, map⟩, woken)

end State

/-- A handle: its id, and what its last `poll` returned to which waker. -/
structure Handle (W : Type) where
  id : ℕ
  lastPoll : Option (Poll × W)

/-- The handles that share a state, under the names the program has for them, and
the wakers that have been woken. -/
structure System (H W : Type) where
  state : State W
  handles : OrderedMap H (Handle W)
  woken : List W

/-- An operation on a handle. -/
inductive Op (H W : Type) where
  | clone (handle new : H)
  | drop (handle : H)
  | poll (handle : H) (waker : W)
  | shutdown (handle : H)
  deriving DecidableEq

namespace System

variable {H : Type} [DecidableEq H]

/-- `Shutdown::new` makes the first handle. -/
def new (handle : H) : System H W :=
  let (state, id) := State.new
  ⟨state, Finmap.insert handle ⟨id, none⟩ ∅, []⟩

/-- An operation needs a live handle, and a clone a new name for its own. The
handles count the references of an `Arc`, which aborts above `isize::MAX`. -/
def step (sys : System H W) : Op H W → Option (System H W)
  | .clone handle new =>
    if handle ∈ sys.handles ∧ new ∉ sys.handles ∧ sys.handles.len ≤ 2 ^ 63 - 1 then
      let (state, id) := sys.state.clone
      some { sys with state, handles := sys.handles.insert new ⟨id, none⟩ }
    else none
  | .drop handle =>
    (sys.handles.lookup handle).map fun h =>
      { sys with state := sys.state.drop h.id, handles := sys.handles.erase handle }
  | .poll handle waker =>
    (sys.handles.lookup handle).map fun h =>
      let (result, state) := sys.state.poll h.id waker
      { sys with
        state
        handles := sys.handles.insert handle { h with lastPoll := some (result, waker) } }
  | .shutdown handle =>
    if handle ∈ sys.handles then
      let (state, woken) := sys.state.setShutdown
      some { sys with state, woken := sys.woken ++ woken }
    else none

/-- The operations of a sequence, one after the other. -/
def run (sys : System H W) : List (Op H W) → Option (System H W)
  | [] => some sys
  | op :: ops => (sys.step op).bind fun sys => sys.run ops

end System

-- ════════════════════════════════════════════════════════════════════════
-- What an operation does to the shared state
-- ════════════════════════════════════════════════════════════════════════

namespace State

/-- A new id is the least that is not in use, as long as they fit into `u64`. -/
theorem isLeast_getNextId {state : State W} (h : state.map.len < 2 ^ 64) :
    IsLeast {id | id ∉ state.map} state.getNextId := by
  rw [getNextId, Nat.mod_eq_of_lt h]
  exact isLeast_firstGap (Nat.le_sub_one_of_lt h)

/-- The loop keeps all keys, and wakes the wakers stored under those it visits. -/
theorem wakeLoop_spec (keys : List ℕ) (map : OrderedMap ℕ (Option W)) :
    (wakeLoop keys map).1.keys = map.keys ∧
      ∀ key ∈ keys, ∀ waker, map.lookup key = some (some waker) →
        waker ∈ (wakeLoop keys map).2 := by
  induction keys generalizing map with
  | nil => exact ⟨rfl, fun _ h => absurd h List.not_mem_nil⟩
  | cons k keys ih =>
    rw [wakeLoop]
    split
    · rename_i taken hk
      obtain ⟨hkeys, hwoken⟩ := ih (map.insert k none)
      have hmem : k ∈ map.keys := mem_keys.mpr (mem_iff.mpr ⟨_, hk⟩)
      refine ⟨?_, fun key hkey waker hlookup => ?_⟩
      · rw [hkeys, keys_insert, Finset.insert_eq_of_mem hmem]
      by_cases heq : key = k
      · subst key
        rw [hk] at hlookup
        cases hlookup
        exact List.mem_cons_self
      · refine List.mem_cons_of_mem _ (hwoken key ?_ waker ?_)
        · exact (List.mem_cons.mp hkey).resolve_left heq
        · rw [lookup_insert_of_ne _ heq, hlookup]
    · rename_i hnone
      obtain ⟨hkeys, hwoken⟩ := ih map
      refine ⟨hkeys, fun key hkey waker hlookup => hwoken key ?_ waker hlookup⟩
      refine (List.mem_cons.mp hkey).resolve_left fun heq => ?_
      exact hnone waker (heq ▸ hlookup)

theorem setShutdown_keys (state : State W) :
    state.setShutdown.1.map.keys = state.map.keys :=
  (wakeLoop_spec _ _).1

/-- Every stored waker is woken. -/
theorem mem_setShutdown {state : State W} {id : ℕ} {waker : W}
    (h : state.map.lookup id = some (some waker)) : waker ∈ state.setShutdown.2 :=
  (wakeLoop_spec _ _).2 id (mem_sortedKeys.mpr (mem_iff.mpr ⟨_, h⟩)) waker h

theorem poll_of_shutdown {state : State W} (h : state.shutdown = true) (id : ℕ) (waker : W) :
    state.poll id waker = (.ready, state) := by
  rw [poll, if_pos h]

theorem poll_of_running {state : State W} (h : state.shutdown = false) (id : ℕ) (waker : W) :
    state.poll id waker = (.pending, { state with map := state.map.insert id (some waker) }) := by
  rw [poll, if_neg (by rw [h]; exact Bool.false_ne_true)]

theorem poll_shutdown (state : State W) (id : ℕ) (waker : W) :
    (state.poll id waker).2.shutdown = state.shutdown := by
  rw [poll]
  split
  · rfl
  · rfl

/-- Under an id that is taken, a poll adds no key. -/
theorem poll_keys {state : State W} {id : ℕ} (h : id ∈ state.map) (waker : W) :
    (state.poll id waker).2.map.keys = state.map.keys := by
  rw [poll]
  split
  · rfl
  · exact (keys_insert ..).trans (Finset.insert_eq_of_mem (mem_keys.mpr h))

end State

-- ════════════════════════════════════════════════════════════════════════
-- The invariant
-- ════════════════════════════════════════════════════════════════════════

/-- The last poll of a handle returned `Pending` and was made for a waker. -/
def Handle.Waits (c : Handle W) (waker : W) : Prop := c.lastPoll = some (.pending, waker)

variable {H : Type} [DecidableEq H]

/-- The id of a live handle. -/
def idOf (handles : OrderedMap H (Handle W)) (handle : H) : Option ℕ :=
  (handles.lookup handle).map Handle.id

theorem idOf_of_lookup {handles : OrderedMap H (Handle W)} {handle : H} {c : Handle W}
    (h : handles.lookup handle = some c) : idOf handles handle = some c.id := by
  rw [idOf, h, Option.map_some]

theorem idOf_insert (handles : OrderedMap H (Handle W)) (handle : H) (c : Handle W) :
    idOf (handles.insert handle c) = Function.update (idOf handles) handle (some c.id) := by
  funext handle'
  rw [Function.update_apply, idOf, lookup_insert_eq]
  split
  · rfl
  · rfl

theorem idOf_erase (handles : OrderedMap H (Handle W)) (handle : H) :
    idOf (handles.erase handle) = Function.update (idOf handles) handle none := by
  funext handle'
  rw [Function.update_apply, idOf]
  split
  · subst handle'
    rw [lookup_erase, Option.map_none]
  · rename_i hne
    rw [lookup_erase_ne hne, idOf]

/-- The invariant of the handles and of the state they share. -/
structure Inv (sys : System H W) : Prop where
  registry : Registry (idOf sys.handles) sys.state.map.keys
  len : sys.state.map.len = sys.handles.len
  count : sys.handles.len ≤ 2 ^ 63
  /-- Before the shutdown, a waker is stored under the id of the handle that waits. -/
  stored : sys.state.shutdown = false → sys.woken = [] ∧
    ∀ handle c waker, sys.handles.lookup handle = some c → c.Waits waker →
      sys.state.map.lookup c.id = some (some waker)
  woken : sys.state.shutdown = true → ∀ handle c waker, sys.handles.lookup handle = some c →
    c.Waits waker → waker ∈ sys.woken

namespace Inv

variable {sys : System H W} {handle : H} {c : Handle W}

theorem isLeast_getNextId (h : Inv sys) :
    IsLeast {id | id ∉ sys.state.map} sys.state.getNextId := by
  have hlen := h.len
  have hcount := h.count
  exact State.isLeast_getNextId (by omega)

theorem mem (h : Inv sys) (hc : sys.handles.lookup handle = some c) : c.id ∈ sys.state.map :=
  mem_keys.mp (h.registry.mem_iff.mpr ⟨handle, idOf_of_lookup hc⟩)

theorem ne_id (h : Inv sys) {handle' : H} {c' : Handle W}
    (hc : sys.handles.lookup handle = some c) (hc' : sys.handles.lookup handle' = some c')
    (hne : handle' ≠ handle) : c'.id ≠ c.id := fun heq =>
  hne (h.registry.inj (idOf_of_lookup hc') (heq ▸ idOf_of_lookup hc))

/-- A state that no handle shares yet. -/
theorem empty : Inv (⟨⟨false, ∅⟩, ∅, []⟩ : System H W) where
  registry := ⟨by simp [idOf], by simp [idOf]⟩
  len := rfl
  count := by simp
  stored := fun _ => ⟨rfl, fun _ _ _ hc => by cases hc⟩
  woken := by
    intro h
    cases h

/-- A clone takes an id that no handle has, and nobody waits under it. -/
theorem clone (h : Inv sys) (hnew : handle ∉ sys.handles)
    (hcount : sys.handles.len ≤ 2 ^ 63 - 1) :
    Inv { sys with
      state := sys.state.clone.1
      handles := sys.handles.insert handle ⟨sys.state.clone.2, none⟩ } where
  registry := by
    rw [idOf_insert]
    change Registry _ (sys.state.map.insert sys.state.getNextId none).keys
    rw [keys_insert]
    refine h.registry.insert ?_ fun hmem => h.isLeast_getNextId.1 (mem_keys.mp hmem)
    rw [idOf, lookup_eq_none.mpr hnew, Option.map_none]
  len := by
    change (sys.state.map.insert sys.state.getNextId none).len = _
    rw [len_insert_of_notMem _ h.isLeast_getNextId.1, len_insert_of_notMem _ hnew, h.len]
  count := by
    rw [len_insert_of_notMem _ hnew]
    omega
  stored := by
    intro hrunning
    obtain ⟨hquiet, hstored⟩ := h.stored hrunning
    refine ⟨hquiet, fun handle' c' waker hc' hwaits => ?_⟩
    rw [lookup_insert_eq] at hc'
    split at hc'
    · cases hc'
      cases hwaits
    · have hne : c'.id ≠ sys.state.getNextId := fun heq =>
        h.isLeast_getNextId.1 (heq ▸ h.mem hc')
      exact (lookup_insert_of_ne _ hne).trans (hstored handle' c' waker hc' hwaits)
  woken := by
    intro hset handle' c' waker hc' hwaits
    rw [lookup_insert_eq] at hc'
    split at hc'
    · cases hc'
      cases hwaits
    · exact h.woken hset handle' c' waker hc' hwaits

/-- A handle that is dropped takes its own entry with it. -/
theorem drop (h : Inv sys) (hc : sys.handles.lookup handle = some c) :
    Inv { sys with state := sys.state.drop c.id, handles := sys.handles.erase handle } where
  registry := by
    rw [idOf_erase]
    change Registry _ (sys.state.map.erase c.id).keys
    rw [keys_erase]
    exact h.registry.erase (idOf_of_lookup hc)
  len := by
    have hmap := len_erase_of_mem (h.mem hc)
    have hhandles := len_erase_of_mem (mem_iff.mpr ⟨c, hc⟩)
    have hlen := h.len
    change (sys.state.map.erase c.id).len = (sys.handles.erase handle).len
    omega
  count := by
    have hhandles := len_erase_of_mem (mem_iff.mpr ⟨c, hc⟩)
    have hcount := h.count
    change (sys.handles.erase handle).len ≤ _
    omega
  stored := by
    intro hrunning
    obtain ⟨hquiet, hstored⟩ := h.stored hrunning
    refine ⟨hquiet, fun handle' c' waker hc' hwaits => ?_⟩
    obtain ⟨hne, hc'⟩ := lookup_erase_eq_some.mp hc'
    exact (lookup_erase_ne (h.ne_id hc hc' hne)).trans (hstored handle' c' waker hc' hwaits)
  woken := by
    intro hset handle' c' waker hc' hwaits
    exact h.woken hset handle' c' waker (lookup_erase_eq_some.mp hc').2 hwaits

/-- A poll stores the waker of the handle that is polled and no other. -/
theorem poll (h : Inv sys) (hc : sys.handles.lookup handle = some c) (waker : W) :
    Inv { sys with
      state := (sys.state.poll c.id waker).2
      handles := sys.handles.insert handle
        { c with lastPoll := some ((sys.state.poll c.id waker).1, waker) } } where
  registry := by
    have hids : Function.update (idOf sys.handles) handle (some c.id) = idOf sys.handles :=
      Function.update_eq_self_iff.mpr (idOf_of_lookup hc).symm
    rw [State.poll_keys (h.mem hc), idOf_insert, hids]
    exact h.registry
  len := by
    change (sys.state.poll c.id waker).2.map.keys.card = _
    rw [State.poll_keys (h.mem hc), len_insert_of_mem _ (mem_iff.mpr ⟨c, hc⟩)]
    exact h.len
  count := by
    rw [len_insert_of_mem _ (mem_iff.mpr ⟨c, hc⟩)]
    exact h.count
  stored := by
    intro hrunning
    rw [State.poll_shutdown] at hrunning
    obtain ⟨hquiet, hstored⟩ := h.stored hrunning
    refine ⟨hquiet, fun handle' c' waker' hc' hwaits => ?_⟩
    rw [State.poll_of_running hrunning] at hc' ⊢
    rw [lookup_insert_eq] at hc'
    split at hc'
    · cases hc'
      cases hwaits
      exact lookup_insert _
    · rename_i hne
      exact (lookup_insert_of_ne _ (h.ne_id hc hc' hne)).trans
        (hstored handle' c' waker' hc' hwaits)
  woken := by
    intro hset handle' c' waker' hc' hwaits
    rw [State.poll_shutdown] at hset
    rw [State.poll_of_shutdown hset, lookup_insert_eq] at hc'
    split at hc'
    · cases hc'
      cases hwaits
    · exact h.woken hset handle' c' waker' hc' hwaits

/-- `shutdown` wakes all who wait, the first time. -/
theorem shutdown (h : Inv sys) :
    Inv { sys with
      state := sys.state.setShutdown.1
      woken := sys.woken ++ sys.state.setShutdown.2 } where
  registry := by
    rw [State.setShutdown_keys]
    exact h.registry
  len := by
    change sys.state.setShutdown.1.map.keys.card = sys.handles.len
    rw [State.setShutdown_keys]
    exact h.len
  count := h.count
  stored := by
    intro hrunning
    cases hrunning
  woken := by
    intro _ handle' c' waker hc' hwaits
    rw [List.mem_append]
    cases hset : sys.state.shutdown with
    | true => exact .inl (h.woken hset handle' c' waker hc' hwaits)
    | false =>
      exact .inr (State.mem_setShutdown ((h.stored hset).2 handle' c' waker hc' hwaits))

theorem step {op : Op H W} {sys' : System H W} (h : Inv sys) (hstep : sys.step op = some sys') :
    Inv sys' := by
  cases op with
  | clone handle new =>
    rw [System.step] at hstep
    split at hstep
    · rename_i hguard
      obtain rfl := Option.some.inj hstep
      exact h.clone hguard.2.1 hguard.2.2
    · cases hstep
  | drop handle =>
    obtain ⟨c, hc, rfl⟩ := Option.map_eq_some_iff.mp hstep
    exact h.drop hc
  | poll handle waker =>
    obtain ⟨c, hc, rfl⟩ := Option.map_eq_some_iff.mp hstep
    exact h.poll hc waker
  | shutdown handle =>
    rw [System.step] at hstep
    split at hstep
    · obtain rfl := Option.some.inj hstep
      exact h.shutdown
    · cases hstep

/-- The first handle takes its id as a clone does. -/
theorem new (root : H) : Inv (.new root : System H W) :=
  empty.clone notMem_empty (by simp)

theorem run {ops : List (Op H W)} {sys' : System H W} (h : Inv sys)
    (hrun : sys.run ops = some sys') : Inv sys' := by
  induction ops generalizing sys with
  | nil =>
    obtain rfl := Option.some.inj hrun
    exact h
  | cons op ops ih =>
    obtain ⟨sys₁, hstep, hrun⟩ := Option.bind_eq_some_iff.mp hrun
    exact ih (h.step hstep) hrun

end Inv

-- ════════════════════════════════════════════════════════════════════════
-- Runs
-- ════════════════════════════════════════════════════════════════════════

/-- `shutdown` is called on some handle. -/
def ShutdownCalled (ops : List (Op H W)) : Prop := ∃ handle, .shutdown handle ∈ ops

namespace System

variable {sys sys' : System H W}

/-- The flag is set by a call of `shutdown` and by nothing else. -/
theorem step_shutdown {op : Op H W} (h : sys.step op = some sys') :
    sys'.state.shutdown = true ↔ sys.state.shutdown = true ∨ ShutdownCalled [op] := by
  cases op with
  | clone handle new =>
    rw [step] at h
    split at h
    · obtain rfl := Option.some.inj h
      simp [ShutdownCalled]
    · cases h
  | drop handle =>
    obtain ⟨c, -, rfl⟩ := Option.map_eq_some_iff.mp h
    simp [ShutdownCalled, State.drop]
  | poll handle waker =>
    obtain ⟨c, -, rfl⟩ := Option.map_eq_some_iff.mp h
    cases hset : sys.state.shutdown <;> simp [ShutdownCalled, State.poll, hset]
  | shutdown handle =>
    rw [step] at h
    split at h
    · obtain rfl := Option.some.inj h
      simp [ShutdownCalled]
    · cases h

theorem run_shutdown {ops : List (Op H W)} (h : sys.run ops = some sys') :
    sys'.state.shutdown = true ↔ sys.state.shutdown = true ∨ ShutdownCalled ops := by
  induction ops generalizing sys with
  | nil =>
    obtain rfl := Option.some.inj h
    simp [ShutdownCalled]
  | cons op ops ih =>
    obtain ⟨sys₁, hstep, hrun⟩ := Option.bind_eq_some_iff.mp h
    rw [ih hrun, step_shutdown hstep, or_assoc]
    simp [ShutdownCalled, exists_or]

end System

/-- In every run the ids are distinct, each has its entry, and the next one is the
least that is free. Until `shutdown` is called, a handle whose last poll returned
`Pending` has its waker in its own entry and no waker is woken. From then on the
waker of each such handle has been woken, and all later polls return `Ready`. -/
theorem run_keeps_wakers {root : H} {ops : List (Op H W)} {sys : System H W}
    (hrun : (System.new root).run ops = some sys) :
    (∀ h₁ h₂ c₁ c₂, sys.handles.lookup h₁ = some c₁ → sys.handles.lookup h₂ = some c₂ →
        c₁.id = c₂.id → h₁ = h₂) ∧
      (∀ id, id ∈ sys.state.map ↔ ∃ h c, sys.handles.lookup h = some c ∧ c.id = id) ∧
      IsLeast {id | id ∉ sys.state.map} sys.state.getNextId ∧
      (¬ShutdownCalled ops → sys.woken = [] ∧
        ∀ h c waker, sys.handles.lookup h = some c → c.Waits waker →
          sys.state.map.lookup c.id = some (some waker)) ∧
      (ShutdownCalled ops →
        (∀ h c waker, sys.handles.lookup h = some c → c.Waits waker → waker ∈ sys.woken) ∧
        ∀ later sys', sys.run later = some sys' → ∀ h c waker,
          sys'.handles.lookup h = some c → (sys'.state.poll c.id waker).1 = .ready) := by
  have hinv := (Inv.new root).run hrun
  have hset : sys.state.shutdown = true ↔ ShutdownCalled ops := by
    rw [System.run_shutdown hrun]
    exact or_iff_right Bool.false_ne_true
  refine ⟨?_, ?_, hinv.isLeast_getNextId, ?_, ?_⟩
  · intro h₁ h₂ c₁ c₂ hc₁ hc₂ heq
    exact hinv.registry.inj (idOf_of_lookup hc₁) (heq ▸ idOf_of_lookup hc₂)
  · intro id
    rw [← mem_keys, hinv.registry.mem_iff]
    simp [idOf]
  · intro hnot
    exact hinv.stored (Bool.eq_false_iff.mpr fun h => hnot (hset.mp h))
  · intro hcalled
    refine ⟨hinv.woken (hset.mpr hcalled), fun later sys' hlater h c waker _ => ?_⟩
    have hset' := (System.run_shutdown hlater).mpr (.inl (hset.mpr hcalled))
    rw [State.poll_of_shutdown hset']

/-- Handle 0 gives its id back while handle 1 waits, and handle 3 takes it. -/
def recycledRun : List (Op ℕ ℕ) :=
  [.clone 0 1, .poll 1 5, .drop 0, .clone 1 2, .poll 2 6, .poll 1 7, .drop 2, .clone 1 3,
    .poll 3 8, .shutdown 3]

theorem recycledRun_keeps_wakers :
    ∃ sys, (System.new 0).run recycledRun = some sys ∧ sys.woken = [8, 7] ∧
      ∀ h c waker, sys.handles.lookup h = some c → c.Waits waker → waker ∈ sys.woken := by
  have hwoken : ((System.new 0).run recycledRun).map System.woken = some [8, 7] := by
    decide +kernel
  obtain ⟨sys, hrun, hsys⟩ := Option.map_eq_some_iff.mp hwoken
  obtain ⟨-, -, -, -, hcalled⟩ := run_keeps_wakers hrun
  exact ⟨sys, hrun, hsys, (hcalled ⟨3, by decide⟩).1⟩

end Dragonmouth.Transports.Shutdown
