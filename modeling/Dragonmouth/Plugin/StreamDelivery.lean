import Dragonmouth.Plugin.ChannelRetained
import Dragonmouth.Plugin.StreamClient

/-!
# Streams deliver what was pushed

In every interleaving of pushes, polls and closes, a stream yields the messages
pushed from its first position on, in order and without the disabled kinds, up to
at most one error. Pushes that panic half-way are included.

## Main definitions

- `LockInv`: the state behind the mutex, and where a push in progress leads
- `SystemInv`: the invariant of all steps
-/

namespace Dragonmouth.Plugin

open RingLog Shared

/-- The cells of a buffer. -/
def cellsOf (buffer : ℕ → Item) (i : ℕ) : Cell Stored := (buffer i).cell

section

variable {mask : ℕ} {buffer buffer' : ℕ → Item} {w : CellWrite}

/-- What a write does to the cells depends on the cells only. -/
theorem cellsOf_writeItem_congr (h : cellsOf buffer = cellsOf buffer') :
    cellsOf (writeItem mask buffer w) = cellsOf (writeItem mask buffer' w) := by
  have hw : ∀ item item' : Item, item.cell = item'.cell →
      (w.apply item).cell = (w.apply item').cell := by
    intro item item' he
    cases w with
    | take p =>
      have hpos : item.pos = item'.pos := congrArg Cell.pos he
      change (⟨item.pos, none⟩ : Cell Stored) = ⟨item'.pos, none⟩
      rw [hpos]
    | store p slot data => rfl
  funext i
  rw [cellsOf, cellsOf, writeItem, writeItem]
  by_cases hi : i = w.pos &&& mask
  · subst i
    rw [Function.update_self, Function.update_self]
    exact hw _ _ (congrFun h _)
  · rw [Function.update_of_ne hi, Function.update_of_ne hi]
    exact congrFun h i

theorem cellsOf_foldl_congr (ws : List CellWrite) (h : cellsOf buffer = cellsOf buffer') :
    cellsOf (ws.foldl (writeItem mask) buffer) = cellsOf (ws.foldl (writeItem mask) buffer') := by
  induction ws generalizing buffer buffer' with
  | nil => exact h
  | cons w ws ih => exact ih (cellsOf_writeItem_congr h)

/-- Marking a cell as closed does not change what it holds. -/
theorem cellsOf_closed (buffer : ℕ → Item) (idx : ℕ) :
    cellsOf (Function.update buffer idx { buffer idx with closed := true }) = cellsOf buffer := by
  funext i
  by_cases hi : i = idx
  · subst i
    rw [cellsOf, Function.update_self]
    rfl
  · rw [cellsOf, Function.update_of_ne hi]
    rfl

/-- A write of a push preserves the trace of the messages stored so far. -/
theorem trace_write {N : ℕ} {log : List Stored} (hidx : ∀ p, p &&& mask = p % N)
    (h : Trace N (cellsOf buffer) log)
    (hstore : ∀ x p, w.toStore = some (x, p) → p = N + log.length) :
    Trace N (cellsOf (writeItem mask buffer w)) (log ++ (w.toStore.map Prod.fst).toList) := by
  have hcells : cellsOf (writeItem mask buffer w) = Function.update (cellsOf buffer) (w.pos % N)
      (w.apply (buffer (w.pos % N))).cell := by
    funext i
    rw [cellsOf, writeItem, hidx]
    by_cases hi : i = w.pos % N
    · subst i
      rw [Function.update_self, Function.update_self]
    · rw [Function.update_of_ne hi, Function.update_of_ne hi]
      rfl
  rw [hcells]
  cases w with
  | take p => exact (List.append_nil log).symm ▸ h.take (p % N)
  | store p slot data =>
    have hp := hstore _ p rfl
    subst hp
    exact h.store (slot, data)

end

namespace Shared

/-- What holds between calls depends on the state and the cells only. -/
theorem Sound.congr {sh sh' : Shared} {log : List Stored} {pending : ℕ}
    (h : sh.Sound log pending) (hmask : sh'.mask = sh.mask) (hcells : sh'.cells = sh.cells)
    (hhead : sh'.state.head = sh.state.head) (htail : sh'.state.tail = sh.state.tail)
    (hslots : sh'.state.slots = sh.state.slots)
    (hbytes : sh'.state.bytesTotal = sh.state.bytesTotal) : sh'.Sound log pending := by
  have hsize : sh'.ringSize = sh.ringSize := congrArg (· + 1) hmask
  refine ⟨⟨?_, ?_, ?_⟩, ?_⟩
  · rw [hmask]
    exact h.core.mask
  · rw [hsize, hcells, hhead, htail]
    exact h.core.window
  · rw [hsize, hhead, hbytes]
    exact h.core.bytes
  · rw [hsize, htail, hslots]
    exact h.heads

/-- Where a push leads, whatever its outcome: some messages are stored, one
after the other, by the writes of the outcome. -/
theorem push_outcome {sh : Shared} {log : List Stored} {pending : ℕ}
    {encode : ProtobufMessage → Bytes} {message : ProtobufMessage} {outcome : Outcome}
    (h : sh.Sound log pending) (hrun : sh.push encode message = some outcome) :
    ∃ new pending', outcome.shared.Sound (log ++ new) pending' ∧
      outcome.shared.mask = sh.mask ∧
      ∃ ws, outcome.shared.writes = sh.writes ++ ws ∧
        outcome.shared.buffer = ws.foldl (writeItem sh.mask) sh.buffer ∧
        ws.filterMap CellWrite.toStore = new.zipIdx sh.state.tail := by
  rw [push_eq, Option.map_eq_some_iff] at hrun
  obtain ⟨messages, -, rfl⟩ := hrun
  rcases pushBatch_spec encode messages h with
    ⟨sh', hok, hs, hp, -⟩ | ⟨e, new, pending', herr, -, -, hs, hp⟩
  · rw [hok]
    exact ⟨_, _, hs.drained, hp.mask, hp.writes⟩
  · rw [herr]
    exact ⟨new, pending', hs, hp.mask, hp.writes⟩

end Shared

/-- A new receiver starts at a position up to the tail. -/
theorem Shared.Sound.subscribe {sh : Shared} {log : List Stored} {pending : ℕ}
    (h : sh.Sound log pending) {replayFromSlot : Option Slot} {filter : RichatFilter}
    {receiver : Receiver} (hs : sh.subscribe replayFromSlot filter = .ok receiver) :
    receiver.finished = false ∧ sh.ringSize ≤ receiver.next ∧
      receiver.next ≤ sh.ringSize + log.length := by
  have hw := h.core.window
  have ht := hw.tail_eq
  cases replayFromSlot with
  | none =>
    cases hs
    exact ⟨rfl, hw.base_le.trans hw.head_le, ht.le⟩
  | some slot =>
    rw [Shared.subscribe] at hs
    cases hl : sh.state.slots.lookup slot with
    | some info =>
      simp only [hl] at hs
      cases hs
      obtain ⟨hle, hle'⟩ := h.heads slot info.head (by rw [headOf, hl]; rfl)
      exact ⟨rfl, hle, ht ▸ hle'⟩
    | none =>
      simp only [hl] at hs
      cases hf : sh.state.slots.firstKey <;> rw [hf] at hs <;> cases hs

namespace System

/-- The message of the position has been pushed but its cell no longer holds it. -/
def Lost (sys : System) (N n : ℕ) : Prop :=
  n < N + sys.log.length ∧ ¬((sys.item n).pos = n ∧ (sys.item n).data.isSome)

end System

/-- Unless a push is in progress, the state behind the mutex agrees with the
cells; a push in progress has a state ahead that agrees with the cells once the
remaining writes are done. -/
def LockInv (sys : System) : Prop :=
  match sys.lock with
  | .pushing todo outcome => ∃ new pending,
      outcome.shared.Sound (sys.log ++ new) pending ∧ outcome.shared.mask = sys.mask ∧
      outcome.shared.cells = cellsOf (todo.foldl (writeItem sys.mask) sys.buffer) ∧
      todo.filterMap CellWrite.toStore = new.zipIdx (sys.mask + 1 + sys.log.length)
  | _ => ∃ pending, sys.shared.Sound sys.log pending

/-- What holds in every reachable state. -/
structure SystemInv (config : ConfigChannel) (sys : System) : Prop where
  ring : sys.mask + 1 = config.ringSize
  trace : Trace config.ringSize (cellsOf sys.buffer) sys.log
  positions : sys.history.filterMap CellWrite.toStore = sys.log.zipIdx config.ringSize
  lock : LockInv sys
  closed : ∀ i, (sys.buffer i).closed = true → sys.closeBegan = true
  clients : ∀ id c, sys.clients id = some c →
    ∃ n, Delivers config.ringSize sys.log (sys.Lost config.ringSize) sys.closeBegan c n

section

variable {config : ConfigChannel} {sys : System}

theorem ConfigChannel.isPowerOfTwo (config : ConfigChannel) : ∃ k, config.ringSize = 2 ^ k :=
  Nat.isPowerOfTwo_nextPowerOfTwo config.maxMessages

theorem SystemInv.getIdx (h : SystemInv config sys) (p : ℕ) :
    p &&& sys.mask = p % config.ringSize := by
  obtain ⟨k, hk⟩ := config.isPowerOfTwo
  rw [← h.ring]
  exact and_mask_eq_mod (h.ring.trans hk) p

theorem SystemInv.item_eq (h : SystemInv config sys) (p : ℕ) :
    sys.item p = sys.buffer (p % config.ringSize) := by
  rw [← h.getIdx p]
  rfl

/-- What a reader may conclude from the cell of its position. -/
theorem SystemInv.tells (h : SystemInv config sys) {n : ℕ} (hn : config.ringSize ≤ n) :
    (sys.item n).Tells config.ringSize sys.log n := by
  have hN : 0 < config.ringSize := by
    rw [← h.ring]
    exact Nat.succ_pos _
  rw [h.item_eq]
  refine ⟨fun hp => ?_, fun hp => h.trace.behind hN hp, fun d hp hd => ?_⟩
  · have := h.trace.pushed hN hn hp
    omega
  · have hv : (cellsOf sys.buffer (n % config.ringSize)).val =
        some ((sys.buffer (n % config.ringSize)).slot, d) := by
      rw [cellsOf, Item.cell, hd]
      rfl
    exact (h.trace.read hN hp hv).2

/-- A cell that does not hold its position's message any more has lost it. -/
theorem System.lost_of {N n : ℕ} (hd : (sys.item n).data = none ∨ (sys.item n).pos ≠ n)
    (hn : n < N + sys.log.length) : sys.Lost N n := by
  refine ⟨hn, fun ⟨hp, hs⟩ => ?_⟩
  rcases hd with hd | hd
  · rw [hd] at hs
    cases hs
  · exact hd hp

/-- Changing one client. -/
theorem SystemInv.setClient (h : SystemInv config sys) (id : ℕ) {c : Client}
    (hc : ∃ n, Delivers config.ringSize sys.log (sys.Lost config.ringSize) sys.closeBegan c n) :
    SystemInv config (sys.setClient id c) := by
  refine ⟨h.ring, h.trace, h.positions, h.lock, h.closed, fun j d hj => ?_⟩
  change Function.update sys.clients id (some c) j = some d at hj
  by_cases he : j = id
  · subst j
    rw [Function.update_self, Option.some.injEq] at hj
    exact hj ▸ hc
  · rw [Function.update_of_ne he] at hj
    exact h.clients j d hj

/-- Waking clients changes nothing of what they have yielded. -/
theorem SystemInv.wake_clients (h : SystemInv config sys) (ids : List ℕ) (id : ℕ) (c : Client)
    (hc : (sys.wake ids).clients id = some c) :
    ∃ n, Delivers config.ringSize sys.log (sys.Lost config.ringSize) sys.closeBegan c n := by
  change (sys.clients id).map _ = some c at hc
  obtain ⟨d, hd, rfl⟩ := Option.map_eq_some_iff.mp hc
  obtain ⟨n, hn⟩ := h.clients id d hd
  exact ⟨n, hn.woken _⟩

theorem SystemInv.new (config : ConfigChannel) : SystemInv config (.new config) := by
  have hinv : (Sender.new config).Inv [] := .new config
  have hring : (System.new config).mask + 1 = config.ringSize := config.ringSize_eq
  refine ⟨hring, ?_, rfl, ⟨0, ?_⟩, fun i hi => (nomatch hi), fun id c hc => (nomatch hc)⟩
  · have ht := hinv.core.window.trace
    rw [config.ringSize_eq] at ht
    exact ht
  · exact hinv.sound.congr rfl rfl rfl rfl rfl rfl

-- ════════════════════════════════════════════════════════════════════════
-- The steps of a push
-- ════════════════════════════════════════════════════════════════════════

theorem SystemInv.sound (h : SystemInv config sys) (hfree : sys.lock = .free) :
    ∃ pending, sys.shared.Sound sys.log pending := by
  have hl := h.lock
  rw [LockInv, hfree] at hl
  exact hl

theorem SystemInv.pushLock (h : SystemInv config sys) (hfree : sys.lock = .free)
    {encode : ProtobufMessage → Bytes} {message : ProtobufMessage} {outcome : Outcome}
    (hrun : sys.shared.push encode message = some outcome) :
    SystemInv config { sys with lock := .pushing outcome.shared.writes outcome } := by
  refine ⟨h.ring, h.trace, h.positions, ?_, h.closed, h.clients⟩
  obtain ⟨pending, hs⟩ := h.sound hfree
  obtain ⟨new, pending', hs', hmask, ws, hws, hbuf, hst⟩ := push_outcome hs hrun
  have htail : sys.shared.state.tail = sys.mask + 1 + sys.log.length := hs.core.window.tail_eq
  have hws' : outcome.shared.writes = ws := hws
  refine ⟨new, pending', hs', hmask, ?_, ?_⟩
  · rw [hws']
    change cellsOf outcome.shared.buffer = _
    rw [hbuf]
    rfl
  · rw [hws', hst, htail]
    rfl

theorem System.log_write (sys : System) (buffer : ℕ → Item) (lock : Lock) (w : CellWrite) :
    System.log { sys with buffer := buffer, lock := lock, history := sys.history ++ [w] } =
      sys.log ++ (w.toStore.map Prod.fst).toList := by
  change (sys.history ++ [w]).filterMap _ = _
  rw [List.filterMap_append]
  cases w <;> rfl

/-- A lost message stays lost. -/
theorem System.Lost.write {N n : ℕ} (hl : sys.Lost N n) {w : CellWrite} (lock : Lock)
    (hstore : ∀ x p, w.toStore = some (x, p) → p = N + sys.log.length) :
    System.Lost { sys with
      buffer := writeItem sys.mask sys.buffer w, lock := lock, history := sys.history ++ [w] }
      N n := by
  obtain ⟨hn, hno⟩ := hl
  refine ⟨?_, fun ⟨hp, hd⟩ => ?_⟩
  · rw [System.log_write, List.length_append]
    exact hn.trans_le (by omega)
  · change (writeItem sys.mask sys.buffer w (n &&& sys.mask)).pos = n at hp
    change ((writeItem sys.mask sys.buffer w (n &&& sys.mask)).data).isSome = true at hd
    rw [writeItem] at hp hd
    by_cases hi : n &&& sys.mask = w.pos &&& sys.mask
    · rw [hi, Function.update_self] at hp hd
      cases w with
      | take p => cases hd
      | store p slot data =>
        have he : p = N + sys.log.length := hstore _ p rfl
        have he' : p = n := hp
        omega
    · rw [Function.update_of_ne hi] at hp hd
      exact hno ⟨hp, hd⟩

theorem CellWrite.apply_closed (item : Item) (w : CellWrite) :
    (w.apply item).closed = item.closed := by
  cases w <;> rfl

/-- The next write of a push is the next store, or stores nothing. -/
theorem next_write {w : CellWrite} {todo : List CellWrite} {new : List Stored} {start : ℕ}
    (hst : (w :: todo).filterMap CellWrite.toStore = new.zipIdx start) :
    (∀ x p, w.toStore = some (x, p) → p = start) ∧
      ∃ new', new = (w.toStore.map Prod.fst).toList ++ new' ∧
        todo.filterMap CellWrite.toStore =
          new'.zipIdx (start + (w.toStore.map Prod.fst).toList.length) := by
  cases hw : w.toStore with
  | none =>
    rw [List.filterMap_cons_none hw] at hst
    exact ⟨fun _ _ h => (by cases h), new, rfl, hst⟩
  | some y =>
    rw [List.filterMap_cons_some hw] at hst
    cases new with
    | nil => cases hst
    | cons x new =>
      rw [List.zipIdx_cons, List.cons.injEq] at hst
      obtain ⟨rfl, hrest⟩ := hst
      refine ⟨fun _ _ h => ?_, new, rfl, hrest⟩
      cases h
      rfl

theorem SystemInv.pushWrite (h : SystemInv config sys) {w : CellWrite} {todo : List CellWrite}
    {outcome : Outcome} (hholds : sys.lock = .pushing (w :: todo) outcome) :
    SystemInv config { sys with
      buffer := writeItem sys.mask sys.buffer w
      lock := .pushing todo outcome
      history := sys.history ++ [w] } := by
  have hl := h.lock
  rw [LockInv, hholds] at hl
  obtain ⟨new, pending, hs, hmask, hcells, hst⟩ := hl
  rw [h.ring] at hst
  obtain ⟨hstore, new', hnew, hst'⟩ := next_write hst
  have hlog := System.log_write sys (writeItem sys.mask sys.buffer w) (.pushing todo outcome) w
  refine ⟨h.ring, ?_, ?_, ?_, fun i hi => h.closed i ?_, fun id c hc => ?_⟩
  · rw [hlog]
    exact trace_write h.getIdx h.trace hstore
  · rw [hlog, List.filterMap_append, h.positions, List.zipIdx_append]
    congr 1
    cases hw : w.toStore with
    | none => rw [List.filterMap_cons_none hw]; rfl
    | some y =>
      obtain ⟨x, p⟩ := y
      rw [List.filterMap_cons_some hw, hstore x p hw]
      rfl
  · refine ⟨new', pending, ?_, hmask, hcells, ?_⟩
    · rw [hlog, List.append_assoc, ← hnew]
      exact hs
    · rw [hlog, List.length_append, ← Nat.add_assoc]
      change _ = new'.zipIdx (sys.mask + 1 + _ + _)
      rw [h.ring]
      exact hst'
  · change (writeItem sys.mask sys.buffer w i).closed = true at hi
    rw [writeItem] at hi
    by_cases he : i = w.pos &&& sys.mask
    · rw [he, Function.update_self, CellWrite.apply_closed] at hi
      rw [he, hi]
    · rwa [Function.update_of_ne he] at hi
  · obtain ⟨n, hn⟩ := h.clients id c hc
    refine ⟨n, ?_⟩
    rw [hlog]
    exact hn.mono _ (fun n hl => hl.write _ hstore) fun hc => hc

theorem SystemInv.unlock (h : SystemInv config sys) {outcome : Outcome}
    (hholds : sys.lock = .pushing [] outcome) : SystemInv config (sys.unlock outcome) := by
  have hl := h.lock
  rw [LockInv, hholds] at hl
  obtain ⟨new, pending, hs, hmask, hcells, hst⟩ := hl
  have hnew : new = [] := by
    cases new with
    | nil => rfl
    | cons x new => cases hst
  rw [hnew, List.append_nil] at hs
  have hs' : Shared.Sound
      { outcome.shared with mask := sys.mask, buffer := sys.buffer, writes := [] } sys.log
      pending := hs.congr hmask.symm hcells.symm rfl rfl rfl rfl
  cases outcome with
  | error e => exact ⟨h.ring, h.trace, h.positions, ⟨pending, hs'⟩, h.closed, h.clients⟩
  | ok sh =>
    exact ⟨h.ring, h.trace, h.positions, ⟨pending, hs'⟩, h.closed,
      fun id c hc => h.wake_clients _ id c hc⟩

theorem SystemInv.closeBegin (h : SystemInv config sys) (closers : ℕ → Option ℕ) :
    SystemInv config { sys with closers := closers, closeBegan := true } := by
  refine ⟨h.ring, h.trace, h.positions, h.lock, fun _ _ => rfl, fun id c hc => ?_⟩
  obtain ⟨n, hn⟩ := h.clients id c hc
  exact ⟨n, hn.weaken (fun _ hl => hl) fun _ => rfl⟩

theorem SystemInv.closeMark (h : SystemInv config sys) (idx : ℕ) (closers : ℕ → Option ℕ)
    (hbegan : sys.closeBegan = true) :
    SystemInv config { sys.markClosed idx with closers := closers } := by
  have hcells : cellsOf (sys.markClosed idx).buffer = cellsOf sys.buffer :=
    cellsOf_closed sys.buffer idx
  have hitem : ∀ i, ((sys.markClosed idx).buffer i).pos = (sys.buffer i).pos ∧
      ((sys.markClosed idx).buffer i).data = (sys.buffer i).data := by
    intro i
    by_cases hi : i = idx
    · subst i
      simp [System.markClosed]
    · simp [System.markClosed, Function.update_of_ne hi]
  refine ⟨h.ring, ?_, h.positions, ?_, fun _ _ => hbegan, fun id c hc => ?_⟩
  · change Trace _ (cellsOf (sys.markClosed idx).buffer) _
    rw [hcells]
    exact h.trace
  · have hl := h.lock
    rw [LockInv] at hl ⊢
    have hlock : (sys.markClosed idx).lock = sys.lock := rfl
    cases hk : sys.lock with
    | pushing todo outcome =>
      simp only [hk, hlock] at hl ⊢
      obtain ⟨new, pending, hs, hmask, hcs, hst⟩ := hl
      exact ⟨new, pending, hs, hmask, hcs.trans (cellsOf_foldl_congr todo hcells.symm), hst⟩
    | free =>
      simp only [hk, hlock] at hl ⊢
      obtain ⟨pending, hs⟩ := hl
      exact ⟨pending, hs.congr rfl hcells rfl rfl rfl rfl⟩
    | receiving id =>
      simp only [hk, hlock] at hl ⊢
      obtain ⟨pending, hs⟩ := hl
      exact ⟨pending, hs.congr rfl hcells rfl rfl rfl rfl⟩
  · obtain ⟨n, hn⟩ := h.clients id c hc
    refine ⟨n, hn.weaken (fun p ⟨hlt, hno⟩ => ⟨hlt, fun ⟨hp, hd⟩ => hno ?_⟩) fun hb => hb⟩
    exact ⟨(hitem _).1 ▸ hp, (hitem _).2 ▸ hd⟩

theorem SystemInv.closeEnd (h : SystemInv config sys) (closers : ℕ → Option ℕ)
    (hfree : sys.lock = .free) : SystemInv config
      { (sys.wake sys.state.wakers).setWakers [] with closers := closers } := by
  obtain ⟨pending, hs⟩ := h.sound hfree
  refine ⟨h.ring, h.trace, h.positions, ?_, h.closed, fun id c hc => h.wake_clients _ id c hc⟩
  have hlock : ((sys.wake sys.state.wakers).setWakers []).lock = .free := hfree
  rw [LockInv]
  simp only [hlock]
  exact ⟨pending, hs.congr rfl rfl rfl rfl rfl rfl⟩

-- ════════════════════════════════════════════════════════════════════════
-- The steps of a subscriber
-- ════════════════════════════════════════════════════════════════════════

theorem SystemInv.subscribe (h : SystemInv config sys) (hfree : sys.lock = .free) (id : ℕ)
    {replayFromSlot : Option Slot} {filter : RichatFilter} {receiver : Receiver}
    (hs : sys.shared.subscribe replayFromSlot filter = .ok receiver) :
    SystemInv config (sys.setClient id (.new receiver)) := by
  obtain ⟨pending, hsound⟩ := h.sound hfree
  obtain ⟨hf, hle, hle'⟩ := hsound.subscribe hs
  have hsize : sys.shared.ringSize = config.ringSize := h.ring
  rw [hsize] at hle hle'
  exact h.setClient id ⟨_, .new hf hle hle'⟩

/-- What a reading client may conclude from the item of its next position. -/
theorem SystemInv.reading (h : SystemInv config sys) {c : Client} {n : ℕ}
    (hn : Delivers config.ringSize sys.log (sys.Lost config.ringSize) sys.closeBegan c n)
    (hpc : c.pc ≠ .idle) :
    (sys.item c.receiver.next).Tells config.ringSize sys.log n ∧
      ((sys.item c.receiver.next).closed = true → sys.closeBegan = true) ∧
      ((sys.item c.receiver.next).data = none ∨ (sys.item c.receiver.next).pos ≠ n →
        n < config.ringSize + sys.log.length → sys.Lost config.ringSize n) := by
  rw [(hn.unfinished (hn.running hpc).1).1]
  exact ⟨h.tells (hn.base_le.trans hn.start_le), h.closed _, System.lost_of⟩

theorem SystemInv.read (h : SystemInv config sys) {id : ℕ} {c : Client}
    (hc : sys.clients id = some c) (hpc : c.pc ≠ .idle) :
    SystemInv config (sys.setClient id (c.read (sys.item c.receiver.next))) := by
  obtain ⟨n, hn⟩ := h.clients id c hc
  obtain ⟨ht, hclosed, hlost⟩ := h.reading hn hpc
  exact h.setClient id (hn.read hpc ht hclosed fun hd => hlost (.inl hd))

theorem SystemInv.lockState (h : SystemInv config sys) {id : ℕ} {c : Client}
    (hc : sys.clients id = some c) (hpc : c.pc ≠ .idle) (hfree : sys.lock = .free) :
    SystemInv config
      { sys.setClient id { c with pc := .locked } with lock := .receiving id } := by
  obtain ⟨n, hn⟩ := h.clients id c hc
  have h' := h.setClient id ⟨n, hn.setPc hpc .locked⟩
  exact ⟨h'.ring, h'.trace, h'.positions, h.sound hfree, h'.closed, h'.clients⟩

theorem SystemInv.recheck (h : SystemInv config sys) {id : ℕ} {c : Client}
    (hc : sys.clients id = some c) (hpc : c.pc ≠ .idle) (hholds : sys.lock = .receiving id)
    (wakers : List ℕ) : SystemInv config
      { (sys.setClient id (c.recheck (sys.item c.receiver.next) sys.log.length)).setWakers wakers
        with lock := .free } := by
  obtain ⟨n, hn⟩ := h.clients id c hc
  obtain ⟨ht, hclosed, hlost⟩ := h.reading hn hpc
  have h' := h.setClient id (hn.recheck hpc ht hclosed hlost)
  have hl := h.lock
  rw [LockInv, hholds] at hl
  obtain ⟨pending, hs⟩ := hl
  exact ⟨h'.ring, h'.trace, h'.positions, ⟨pending, hs.congr rfl rfl rfl rfl rfl rfl⟩, h'.closed,
    h'.clients⟩

/-- A closer at work has begun. -/
def ClosersBegan (sys : System) : Prop :=
  ∀ id idx, sys.closers id = some idx → sys.closeBegan = true

theorem Step.closersBegan {sys' : System} (h : ClosersBegan sys) (hs : Step sys sys') :
    ClosersBegan sys' := by
  cases hs with
  | closeBegin => exact fun _ _ _ => rfl
  | closeMark id idx hat => exact fun _ _ _ => h id idx hat
  | closeEnd id hdone => exact fun _ _ _ => h id _ hdone
  | pushUnlock outcome =>
    cases outcome <;> exact h
  | _ => exact h

/-- Every step preserves the invariant. -/
theorem Step.inv {sys' : System} (h : SystemInv config sys) (hc : ClosersBegan sys)
    (hs : Step sys sys') : SystemInv config sys' := by
  cases hs with
  | subscribe id _ _ receiver hfree _ hsub => exact h.subscribe hfree id hsub
  | pushLock encode message outcome hfree hrun => exact h.pushLock hfree hrun
  | pushWrite w todo outcome hholds => exact h.pushWrite hholds
  | pushUnlock outcome hholds => exact h.unlock hholds
  | closeBegin id => exact h.closeBegin _
  | closeMark id idx hat => exact h.closeMark idx _ (hc id idx hat)
  | closeEnd id _ hfree => exact h.closeEnd _ hfree
  | poll id c hcl =>
    obtain ⟨n, hn⟩ := h.clients id c hcl
    exact h.setClient id ⟨n, hn.poll⟩
  | read id c hcl hpc => exact h.read hcl (by rw [hpc]; decide)
  | lockState id c hcl hpc hfree => exact h.lockState hcl (by rw [hpc]; decide) hfree
  | recheck id c hcl hpc hholds => exact h.recheck hcl (by rw [hpc]; decide) hholds _

theorem Reachable.inv (h : Reachable config sys) : SystemInv config sys ∧ ClosersBegan sys := by
  induction h with
  | new => exact ⟨.new config, fun _ _ hc => (nomatch hc)⟩
  | step _ hs ih => exact ⟨hs.inv ih.1 ih.2, hs.closersBegan ih.2⟩

/-- A finished stream yields nothing more. -/
theorem Step.finished {sys' : System} {id : ℕ} {c : Client} (hs : Step sys sys')
    (hc : sys.clients id = some c) (hf : c.receiver.finished = true) (hpc : c.pc = .idle) :
    ∃ c', sys'.clients id = some c' ∧ c'.yielded = c.yielded ∧ c'.receiver.finished = true := by
  have hwake : ∀ ids, ∃ c', (sys.wake ids).clients id = some c' ∧ c'.yielded = c.yielded ∧
      c'.receiver.finished = true := fun ids => by
    refine ⟨{ c with waiting := c.waiting && !ids.contains id }, ?_, rfl, hf⟩
    rw [System.wake]
    simp only [hc, Option.map_some]
  -- a step of a client of which this one is not is a step of another client
  have hother : ∀ j d, (j = id → d.yielded = c.yielded ∧ d.receiver.finished = true) →
      ∃ c', (sys.setClient j d).clients id = some c' ∧ c'.yielded = c.yielded ∧
        c'.receiver.finished = true := by
    intro j d hd
    rw [System.setClient]
    by_cases he : id = j
    · subst he
      exact ⟨d, Function.update_self .., hd rfl⟩
    · exact ⟨c, by rw [← hc]; exact Function.update_of_ne he .., rfl, hf⟩
  have hbusy : ∀ j d, sys.clients j = some d → d.pc ≠ .idle → j ≠ id := by
    intro j d hd hne he
    subst he
    rw [hc, Option.some.injEq] at hd
    exact hne (hd ▸ hpc)
  cases hs with
  | subscribe j _ _ _ _ hfresh =>
    refine hother j _ fun he => ?_
    subst he
    rw [hc] at hfresh
    cases hfresh
  | pushUnlock outcome =>
    cases outcome with
    | error e => exact ⟨c, hc, rfl, hf⟩
    | ok sh => exact hwake _
  | closeEnd => exact hwake _
  | poll j d hd =>
    refine hother j _ fun he => ?_
    subst he
    rw [hc, Option.some.injEq] at hd
    subst hd
    rw [Client.poll, if_pos hf]
    exact ⟨rfl, hf⟩
  | read j d hd hpc' =>
    exact hother j _ fun he => absurd he (hbusy j d hd (by rw [hpc']; decide))
  | lockState j d hd hpc' =>
    exact hother j _ fun he => absurd he (hbusy j d hd (by rw [hpc']; decide))
  | recheck j d hd hpc' =>
    exact hother j _ fun he => absurd he (hbusy j d hd (by rw [hpc']; decide))
  | _ => exact ⟨c, hc, rfl, hf⟩

/-- What the stream of a receiver created at the position `start` yields. -/
structure StreamSpec (config : ConfigChannel) (sys : System) (id : ℕ) (c : Client) : Prop where
  /-- The `i`-th message is stored at the position `ringSize + i`. -/
  positions : sys.history.filterMap CellWrite.toStore = sys.log.zipIdx config.ringSize
  start : config.ringSize ≤ c.start
  /-- The messages from `start` on without the disabled kinds, then at most one error. -/
  yields : ∃ n, c.start ≤ n ∧ n ≤ config.ringSize + sys.log.length ∧
    ((c.receiver.finished = false ∧ c.receiver.next = n ∧
        c.yielded = (delivered c.receiver config.ringSize sys.log c.start n).map .ok) ∨
      (c.receiver.finished = true ∧ ∃ e,
        c.yielded = (delivered c.receiver config.ringSize sys.log c.start n).map .ok ++ [.error e] ∧
        (e = .lagged → sys.Lost config.ringSize n) ∧ (e = .closed → sys.closeBegan = true)))
  /-- A poll returns `Pending` only after all messages pushed so far. -/
  pending : ∀ pushed, c.pendingAt = some pushed →
    c.receiver.finished = false ∧ c.receiver.next = config.ringSize + pushed
  /-- Nothing is yielded after the first error. -/
  ended : c.receiver.finished = true → ∀ sys', Step sys sys' →
    ∃ c', sys'.clients id = some c' ∧ c'.yielded = c.yielded ∧ c'.receiver.finished = true

/-- Every stream yields what was pushed, in every interleaving. -/
theorem reachable_stream {id : ℕ} {c : Client} (h : Reachable config sys)
    (hc : sys.clients id = some c) : StreamSpec config sys id c := by
  obtain ⟨hinv, -⟩ := h.inv
  obtain ⟨n, hn⟩ := hinv.clients id c hc
  refine
    { positions := hinv.positions
      start := hn.base_le
      yields := ⟨n, hn.start_le, hn.le_pushed, ?_⟩
      pending := fun pushed hp => (hn.caughtUp pushed hp).2
      ended := fun hf sys' hs => hs.finished hc hf (hn.finished hf).1 }
  cases hf : c.receiver.finished with
  | false => exact .inl ⟨rfl, hn.unfinished hf⟩
  | true => exact .inr ⟨rfl, (hn.finished hf).2⟩

end

/-- A push carried out without an interruption. -/
theorem Reachable.push {config : ConfigChannel} {sys : System} (h : Reachable config sys)
    (hfree : sys.lock = .free) {encode : ProtobufMessage → Bytes} {message : ProtobufMessage}
    {sh : Shared} (hrun : sys.shared.push encode message = some (.ok sh)) :
    Reachable config (System.unlock { sys with
      buffer := sh.writes.foldl (writeItem sys.mask) sys.buffer
      history := sys.history ++ sh.writes } (.ok sh)) := by
  have hwrites : ∀ todo history buffer, Reachable config { sys with
        buffer := buffer, lock := .pushing todo (.ok sh), history := history } →
      Reachable config (System.unlock { sys with
        buffer := todo.foldl (writeItem sys.mask) buffer
        history := history ++ todo } (.ok sh)) := by
    intro todo
    induction todo with
    | nil =>
      intro history buffer hr
      rw [List.append_nil]
      exact hr.step (.pushUnlock (.ok sh) rfl)
    | cons w todo ih =>
      intro history buffer hr
      have hr' := ih (history ++ [w]) _ (hr.step (.pushWrite w todo (.ok sh) rfl))
      rw [List.append_assoc] at hr'
      exact hr'
  exact hwrites _ _ _ (h.step (.pushLock encode message (.ok sh) hfree hrun))

/-- A receiver without a filter, a push of one message, and a poll that yields it. -/
theorem reachable_stream_one : ∃ sys c, Reachable ⟨1, 1, 10⟩ sys ∧ sys.clients 0 = some c ∧
    c.yielded = [.ok [7]] ∧ StreamSpec ⟨1, 1, 10⟩ sys 0 c := by
  have htail : (Sender.new ⟨1, 1, 10⟩).state.tail = 1 := by
    decide +kernel
  have hpush : readOff (fun sh => sh.writes) ((System.new ⟨1, 1, 10⟩).shared.push (fun _ => [7])
      (.slot 5 none .processed)) = some [.store 1 5 (.slot, [7])] := by
    decide +kernel
  obtain ⟨sh, hrun, hwrites⟩ := exists_of_readOff hpush
  have h₀ : Reachable ⟨1, 1, 10⟩ (.new ⟨1, 1, 10⟩) := .new
  have h₁ := h₀.step (.subscribe 0 none ⟨false, false, false⟩
    ⟨(Sender.new ⟨1, 1, 10⟩).state.tail, false, true, true, true⟩ rfl rfl rfl)
  have h₂ := h₁.push rfl hrun
  have h₃ := h₂.step (.poll 0 _ rfl rfl)
  have h₄ := h₃.step (.read 0 _ rfl rfl)
  refine ⟨_, _, h₄, rfl, ?_, reachable_stream h₄ rfl⟩
  have hitem : sh.writes.foldl (writeItem (Sender.new ⟨1, 1, 10⟩).mask)
      (Sender.new ⟨1, 1, 10⟩).buffer (1 &&& (Sender.new ⟨1, 1, 10⟩).mask) =
      ⟨1, 5, some (.slot, [7]), false⟩ := by
    rw [hwrites, List.foldl_cons, List.foldl_nil, writeItem]
    exact Function.update_self ..
  change (Client.read ⟨⟨(Sender.new ⟨1, 1, 10⟩).state.tail, false, true, true, true⟩, .reading,
    false, _, [], none⟩ (sh.writes.foldl (writeItem (Sender.new ⟨1, 1, 10⟩).mask)
      (Sender.new ⟨1, 1, 10⟩).buffer
      ((Sender.new ⟨1, 1, 10⟩).state.tail &&& (Sender.new ⟨1, 1, 10⟩).mask))).yielded = _
  rw [htail, hitem]
  rfl

end Dragonmouth.Plugin
