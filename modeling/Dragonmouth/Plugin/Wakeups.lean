import Dragonmouth.Plugin.StreamDelivery

/-!
# No wakeup is lost

A receiver that finds nothing at its position looks again under the mutex and
then stores its waker. A push writes its cells under the mutex and drains the
wakers before it releases it; a close marks all cells before it takes the mutex
and drains them. So a receiver that waits is registered, and no push or close
that has returned since concerns it.

## Main definitions

- `System.returned`, `System.closeReturned`: what a step completes
- `Observed`: a reachable state with what has been completed before it
- `Parked`: what holds of a receiver that waits
-/

namespace Dragonmouth.Plugin

open RingLog Shared

/-- The positions a sequence of writes stores at. -/
def storedPositions (writes : List CellWrite) : List ℕ :=
  writes.filterMap fun w => w.toStore.map Prod.snd

namespace System

/-- The positions stored by the push that returns in a step. -/
def returned (sys sys' : System) : List ℕ :=
  match sys.lock, sys'.lock with
  | .pushing _ (.ok sh), .free => storedPositions sh.writes
  | _, _ => []

/-- A `close` returns in a step. -/
def closeReturned (sys sys' : System) : Prop :=
  ∃ id, (sys.closers id).isSome ∧ sys'.closers id = none

end System

/-- A reachable state, the positions stored by pushes that have returned, and
whether a `close` has returned. -/
inductive Observed (config : ConfigChannel) : System → List ℕ → Prop → Prop where
  | new : Observed config (.new config) [] False
  | step {sys sys' : System} {stored : List ℕ} {closed : Prop}
      (observed : Observed config sys stored closed) (step : Step sys sys') :
      Observed config sys' (stored ++ sys.returned sys') (closed ∨ sys.closeReturned sys')

/-- A receiver that waits: its waker is stored, nothing has been stored at its
position or a later one by a push that has returned, and no `close` has. -/
structure Parked (sys : System) (stored : List ℕ) (closed : Prop) (id : ℕ) (c : Client) : Prop where
  registered : id ∈ sys.state.wakers
  nothing : ∀ p ∈ stored, p < c.receiver.next
  opened : ¬closed

/-- What is known of a push in progress: the writes it has done end the history,
and a push that panics keeps the wakers. -/
structure PushInv (sys : System) (todo : List CellWrite) (outcome : Outcome) : Prop where
  done : ∃ before done, sys.history = before ++ done ∧ outcome.shared.writes = done ++ todo
  wakers : ∀ e, outcome = .error e → e.shared.state.wakers = sys.state.wakers

/-- The invariant of wakers. -/
structure WakeInv (sys : System) (stored : List ℕ) (closed : Prop) : Prop where
  parked : ∀ id c, sys.clients id = some c → c.waiting = true →
    c.pc = .idle ∧ Parked sys stored closed id c
  stored : ∀ p ∈ stored, p < sys.mask + 1 + sys.log.length
  push : ∀ todo outcome, sys.lock = .pushing todo outcome → PushInv sys todo outcome
  /-- A closer has marked the cells before the one it marks next. -/
  marked : ∀ id idx, sys.closers id = some idx → ∀ i < idx, (sys.buffer i).closed = true
  closed : closed → ∀ i < sys.mask + 1, (sys.buffer i).closed = true

section

variable {config : ConfigChannel} {sys sys' : System} {stored : List ℕ} {closed : Prop}

theorem Observed.reachable (h : Observed config sys stored closed) : Reachable config sys := by
  induction h with
  | new => exact .new
  | step _ hs ih => exact ih.step hs

/-- Every reachable state can be observed. -/
theorem Reachable.observed (h : Reachable config sys) :
    ∃ stored closed, Observed config sys stored closed := by
  induction h with
  | new => exact ⟨_, _, .new⟩
  | step _ hs ih =>
    obtain ⟨stored, closed, ho⟩ := ih
    exact ⟨_, _, ho.step hs⟩

theorem WakeInv.new (config : ConfigChannel) : WakeInv (.new config) [] False :=
  ⟨fun _ _ hc => (nomatch hc), fun _ hp => (nomatch hp), fun _ _ hl => (nomatch hl),
    fun _ _ hc => (nomatch hc), fun hc => hc.elim⟩

-- ════════════════════════════════════════════════════════════════════════
-- Steps that complete nothing
-- ════════════════════════════════════════════════════════════════════════

/-- A step that returns from nothing. -/
structure Quiet (sys sys' : System) : Prop where
  returned : sys.returned sys' = []
  closeReturned : ¬sys.closeReturned sys'

theorem System.not_closeReturned (h : sys'.closers = sys.closers) : ¬sys.closeReturned sys' := by
  rintro ⟨id, hs, hn⟩
  rw [h] at hn
  rw [hn] at hs
  cases hs

/-- A closer that begins or goes on has not returned. -/
theorem System.not_closeReturned_update {id idx : ℕ}
    (h : sys'.closers = Function.update sys.closers id (some idx)) : ¬sys.closeReturned sys' := by
  rintro ⟨j, hs, hn⟩
  rw [h, Function.update_apply] at hn
  split at hn
  · cases hn
  · rw [hn] at hs
    cases hs

theorem System.returned_of_lock_eq (h : sys'.lock = sys.lock) : sys.returned sys' = [] := by
  rw [System.returned, h]
  split
  · rename_i hpushing hfree
    rw [hpushing] at hfree
    cases hfree
  · rfl

theorem System.returned_of_not_pushing (h : ∀ todo sh, sys.lock ≠ .pushing todo (.ok sh)) :
    sys.returned sys' = [] := by
  rw [System.returned]
  split
  · rename_i hl _
    exact absurd hl (h _ _)
  · rfl

theorem WakeInv.quiet (hq : Quiet sys sys') (h : WakeInv sys' stored closed) :
    WakeInv sys' (stored ++ sys.returned sys') (closed ∨ sys.closeReturned sys') := by
  rw [hq.returned, List.append_nil, or_iff_left hq.closeReturned]
  exact h

/-- A client waits as before where its waker is still stored. -/
theorem WakeInv.parked_in (h : WakeInv sys stored closed) {id : ℕ} {c : Client}
    (hc : sys.clients id = some c) (hw : c.waiting = true)
    (hkeep : id ∈ sys.state.wakers → id ∈ sys'.state.wakers) :
    c.pc = .idle ∧ Parked sys' stored closed id c := by
  obtain ⟨hpc, hp⟩ := h.parked id c hc hw
  exact ⟨hpc, hkeep hp.registered, hp.nothing, hp.opened⟩

/-- Changing one client. -/
theorem WakeInv.setClient (h : WakeInv sys stored closed) (id : ℕ) {c : Client}
    (hc : c.waiting = true → c.pc = .idle ∧ Parked sys stored closed id c) :
    WakeInv (sys.setClient id c) stored closed := by
  refine ⟨fun j d hj hw => ?_, h.stored, fun todo outcome hl => ?_, h.marked, h.closed⟩
  · have hupd : (sys.setClient id c).clients j = if j = id then some c else sys.clients j :=
      Function.update_apply ..
    rw [hupd] at hj
    split at hj
    · rename_i he
      subst he
      rw [Option.some.injEq] at hj
      subst hj
      obtain ⟨hpc, hp⟩ := hc hw
      exact ⟨hpc, hp.registered, hp.nothing, hp.opened⟩
    · exact h.parked_in hj hw fun hmem => hmem
  · have hp := h.push todo outcome hl
    exact ⟨hp.done, hp.wakers⟩

/-- A client whose poll is going on does not wait. -/
theorem WakeInv.not_waiting (h : WakeInv sys stored closed) {id : ℕ} {c : Client}
    (hc : sys.clients id = some c) (hpc : c.pc ≠ .idle) : c.waiting = false := by
  cases hw : c.waiting with
  | false => rfl
  | true => exact absurd (h.parked id c hc hw).1 hpc

theorem Client.ready_waiting (c : Client) (y : Yield) : (c.ready y).waiting = c.waiting := by
  cases y <;> rfl

theorem Client.take_waiting (c : Client) (item : Item) : (c.take item).waiting = c.waiting := by
  rw [Client.take]
  split
  · rw [Client.ready_waiting]
  · rfl

theorem Client.read_waiting (c : Client) (item : Item) : (c.read item).waiting = c.waiting := by
  rw [Client.read]
  split
  · rw [Client.ready_waiting]
  · split
    · rfl
    · rw [Client.take_waiting]

/-- After the second look the client waits exactly if its waker is stored. -/
theorem Client.recheck_waiting (c : Client) (item : Item) (pushed : ℕ) (hw : c.waiting = false) :
    (c.recheck item pushed).waiting = c.parks item := by
  rw [Client.recheck, Client.parks]
  cases hcl : item.closed with
  | true =>
    rw [if_pos rfl, Client.ready_waiting, hw]
    rfl
  | false =>
    rw [if_neg (by decide)]
    by_cases hne : item.pos ≠ c.receiver.next
    · rw [if_pos hne]
      by_cases hlt : item.pos < c.receiver.next
      · rw [if_pos hlt]
        simp [Client.pending, hlt]
      · rw [if_neg hlt, Client.ready_waiting, hw]
        simp [hlt]
    · rw [if_neg hne, Client.take_waiting, hw]
      have he : item.pos = c.receiver.next := not_not.mp hne
      simp [he]

theorem WakeInv.poll (h : WakeInv sys stored closed) {id : ℕ} {c : Client}
    (hc : sys.clients id = some c) : WakeInv (sys.setClient id c.poll) stored closed := by
  refine h.setClient id fun hw => ?_
  rw [Client.poll] at hw ⊢
  split at hw
  · rename_i hf
    rw [if_pos hf]
    exact h.parked id c hc hw
  · cases hw

/-- A push takes the mutex. -/
theorem WakeInv.pushLock (h : WakeInv sys stored closed) (hi : SystemInv config sys)
    (hfree : sys.lock = .free) {encode : ProtobufMessage → Bytes} {message : ProtobufMessage}
    {outcome : Outcome} (hrun : sys.shared.push encode message = some outcome) :
    WakeInv { sys with lock := .pushing outcome.shared.writes outcome } stored closed := by
  refine ⟨fun id c hc hw => ?_, h.stored, fun todo out hl => ?_, h.marked, h.closed⟩
  · exact h.parked_in hc hw fun hmem => hmem
  · cases hl
    refine ⟨⟨sys.history, [], (List.append_nil _).symm, rfl⟩, fun e he => ?_⟩
    subst he
    obtain ⟨pending, hs⟩ := hi.sound hfree
    rw [push_eq, Option.map_eq_some_iff] at hrun
    obtain ⟨messages, -, hrun⟩ := hrun
    rcases pushBatch_spec encode messages hs with ⟨sh, hok, -⟩ | ⟨e', _, _, herr, -, -, -, hp⟩
    · rw [hok] at hrun
      cases hrun
    · rw [herr] at hrun
      cases hrun
      exact hp.wakers

theorem writeItem_closed (mask : ℕ) (buffer : ℕ → Item) (w : CellWrite) (i : ℕ) :
    (writeItem mask buffer w i).closed = (buffer i).closed := by
  rw [writeItem]
  by_cases he : i = w.pos &&& mask
  · rw [he, Function.update_self, CellWrite.apply_closed]
  · rw [Function.update_of_ne he]

/-- A push writes a cell. -/
theorem WakeInv.pushWrite (h : WakeInv sys stored closed) {w : CellWrite} {todo : List CellWrite}
    {outcome : Outcome} (hholds : sys.lock = .pushing (w :: todo) outcome) :
    WakeInv { sys with
      buffer := writeItem sys.mask sys.buffer w
      lock := .pushing todo outcome
      history := sys.history ++ [w] } stored closed := by
  have hlog := System.log_write sys (writeItem sys.mask sys.buffer w) (.pushing todo outcome) w
  refine ⟨fun id c hc hw => ?_, fun p hp => ?_, fun todo' out hl => ?_, fun id idx hat i hlt => ?_,
    fun hcl i hlt => ?_⟩
  · exact h.parked_in hc hw fun hmem => hmem
  · have hlt := h.stored p hp
    rw [hlog, List.length_append]
    change p < sys.mask + 1 + _
    omega
  · cases hl
    have hp := h.push _ _ hholds
    obtain ⟨before, done, hh, hws⟩ := hp.done
    refine ⟨⟨before, done ++ [w], ?_, ?_⟩, hp.wakers⟩
    · change sys.history ++ [w] = _
      rw [hh, List.append_assoc]
    · rw [hws, List.append_assoc]
      rfl
  · rw [writeItem_closed]
    exact h.marked id idx hat i hlt
  · rw [writeItem_closed]
    exact h.closed hcl i hlt

/-- A push that has panicked releases the mutex and wakes nobody. -/
theorem WakeInv.unlock_error (h : WakeInv sys stored closed) {e : Panicked}
    (hholds : sys.lock = .pushing [] (.error e)) :
    WakeInv (sys.unlock (.error e)) stored closed := by
  have hwakers := (h.push _ _ hholds).wakers e rfl
  refine ⟨fun id c hc hw => ?_, h.stored, fun _ _ hl => (nomatch hl), h.marked, h.closed⟩
  obtain ⟨hpc, hp⟩ := h.parked id c hc hw
  refine ⟨hpc, ?_, hp.nothing, hp.opened⟩
  change id ∈ e.shared.state.wakers
  rw [hwakers]
  exact hp.registered

theorem WakeInv.closeBegin (h : WakeInv sys stored closed) (id : ℕ) :
    WakeInv { sys with
      closers := Function.update sys.closers id (some 0)
      closeBegan := true } stored closed := by
  refine ⟨fun j c hc hw => ?_, h.stored, fun todo outcome hl => ?_, fun j k hj i hlt => ?_,
    h.closed⟩
  · exact h.parked_in hc hw fun hmem => hmem
  · have hp := h.push todo outcome hl
    exact ⟨hp.done, hp.wakers⟩
  · have hupd : Function.update sys.closers id (some 0) j =
        if j = id then some 0 else sys.closers j := Function.update_apply ..
    replace hj := hupd.symm.trans hj
    split at hj
    · cases hj
      exact absurd hlt (Nat.not_lt_zero i)
    · exact h.marked j k hj i hlt

theorem WakeInv.closeMark (h : WakeInv sys stored closed) {id idx : ℕ}
    (hat : sys.closers id = some idx) :
    WakeInv { sys.markClosed idx with
      closers := Function.update sys.closers id (some (idx + 1)) } stored closed := by
  have hmono : ∀ i, (sys.buffer i).closed = true →
      ((sys.markClosed idx).buffer i).closed = true := by
    intro i hi
    by_cases he : i = idx
    · subst he
      simp [System.markClosed]
    · simpa [System.markClosed, Function.update_of_ne he] using hi
  refine ⟨fun j c hc hw => ?_, h.stored, fun todo outcome hl => ?_, fun j k hj i hlt => ?_,
    fun hcl i hlt => hmono i (h.closed hcl i hlt)⟩
  · exact h.parked_in hc hw fun hmem => hmem
  · have hp := h.push todo outcome hl
    exact ⟨hp.done, hp.wakers⟩
  · have hupd : Function.update sys.closers id (some (idx + 1)) j =
        if j = id then some (idx + 1) else sys.closers j := Function.update_apply ..
    rw [show ({ sys.markClosed idx with
      closers := Function.update sys.closers id (some (idx + 1)) } : System).closers j =
        Function.update sys.closers id (some (idx + 1)) j from rfl, hupd] at hj
    split at hj
    · rw [Option.some.injEq] at hj
      rcases Nat.lt_or_eq_of_le (show i ≤ idx by omega) with hi | rfl
      · exact hmono i (h.marked id idx hat i hi)
      · simp [System.markClosed]
    · exact hmono i (h.marked j k hj i hlt)

theorem WakeInv.lockState (h : WakeInv sys stored closed) {id : ℕ} {c : Client}
    (hc : sys.clients id = some c) (hpc : c.pc ≠ .idle) :
    WakeInv { sys.setClient id { c with pc := .locked } with lock := .receiving id } stored
      closed := by
  have hw := h.not_waiting hc hpc
  have h' := h.setClient id (c := { c with pc := .locked }) fun hw' => by
    rw [show ({ c with pc := .locked } : Client).waiting = c.waiting from rfl, hw] at hw'
    cases hw'
  refine ⟨fun j d hj hwd => ?_, h'.stored, fun _ _ hl => (nomatch hl), h'.marked, h'.closed⟩
  exact h'.parked_in hj hwd fun hmem => hmem

theorem Client.recheck_of_parks {c : Client} {item : Item} (h : c.parks item = true)
    (pushed : ℕ) : c.recheck item pushed = c.pending pushed := by
  rw [Client.parks, Bool.and_eq_true, Bool.not_eq_true', decide_eq_true_eq] at h
  rw [Client.recheck, h.1, if_neg (by decide), if_pos h.2.ne, if_pos h.2]

/-- A client that parks has seen everything that has been completed. -/
theorem WakeInv.seen_of_parks (h : WakeInv sys stored closed) (hi : SystemInv config sys) {id : ℕ}
    {c : Client} (hc : sys.clients id = some c) (hbusy : c.pc ≠ .idle)
    (hparks : c.parks (sys.item c.receiver.next) = true) :
    (∀ p ∈ stored, p < c.receiver.next) ∧ ¬closed := by
  rw [Client.parks, Bool.and_eq_true, Bool.not_eq_true', decide_eq_true_eq] at hparks
  obtain ⟨hopen, hlt⟩ := hparks
  refine ⟨fun p hp => ?_, fun hcl => ?_⟩
  · obtain ⟨n, hn⟩ := hi.clients id c hc
    obtain ⟨ht, -, -⟩ := hi.reading hn hbusy
    have hnext : c.receiver.next = n := (hn.unfinished (hn.running hbusy).1).1
    have hbehind := ht.behind (hnext ▸ hlt)
    have hp' := h.stored p hp
    rw [hi.ring] at hp'
    omega
  · have hidx : c.receiver.next &&& sys.mask < sys.mask + 1 :=
      Nat.lt_succ_of_le Nat.and_le_right
    have hitem : (sys.item c.receiver.next).closed = true := h.closed hcl _ hidx
    rw [hopen] at hitem
    cases hitem

/-- The second look: a client that stores its waker has seen everything that has
been completed. -/
theorem WakeInv.recheck (h : WakeInv sys stored closed) (hi : SystemInv config sys) {id : ℕ}
    {c : Client} (hc : sys.clients id = some c) (hpc : c.pc = .locked) :
    WakeInv { (sys.setClient id (c.recheck (sys.item c.receiver.next) sys.log.length)).setWakers
        (if c.parks (sys.item c.receiver.next) then sys.state.wakers ++ [id]
          else sys.state.wakers) with lock := .free } stored closed := by
  have hbusy : c.pc ≠ .idle := by
    rw [hpc]
    decide
  have hw := h.not_waiting hc hbusy
  refine ⟨fun j d hj hwd => ?_, h.stored, fun _ _ hl => (nomatch hl), h.marked, h.closed⟩
  have hupd : ({ (sys.setClient id
      (c.recheck (sys.item c.receiver.next) sys.log.length)).setWakers
        (if c.parks (sys.item c.receiver.next) then sys.state.wakers ++ [id]
          else sys.state.wakers) with lock := .free } : System).clients j =
      if j = id then some (c.recheck (sys.item c.receiver.next) sys.log.length)
        else sys.clients j := Function.update_apply ..
  rw [hupd] at hj
  split at hj
  · rename_i he
    subst he
    rw [Option.some.injEq] at hj
    subst hj
    rw [Client.recheck_waiting c _ _ hw] at hwd
    obtain ⟨hseen, hopened⟩ := h.seen_of_parks hi hc hbusy hwd
    rw [Client.recheck_of_parks hwd]
    refine ⟨rfl, ?_, hseen, hopened⟩
    change j ∈ (if c.parks _ = true then _ else _)
    rw [if_pos hwd]
    exact List.mem_append_right _ List.mem_cons_self
  · refine h.parked_in hj hwd fun hmem => ?_
    change j ∈ (if c.parks _ = true then _ else _)
    split
    · exact List.mem_append_left _ hmem
    · exact hmem

-- ════════════════════════════════════════════════════════════════════════
-- Steps that complete a push or a close
-- ════════════════════════════════════════════════════════════════════════

/-- Once all registered clients have been woken, none waits. -/
theorem WakeInv.wake_waiting (h : WakeInv sys stored closed) {id : ℕ} {c : Client}
    (hc : (sys.wake sys.state.wakers).clients id = some c) : c.waiting = false := by
  change (sys.clients id).map _ = some c at hc
  obtain ⟨d, hd, rfl⟩ := Option.map_eq_some_iff.mp hc
  cases hw : d.waiting with
  | false => rfl
  | true =>
    have hmem := (h.parked id d hd hw).2.registered
    simp [hmem]

/-- A push returns: all it has stored is in the log, and it has woken everybody. -/
theorem WakeInv.unlock_ok (h : WakeInv sys stored closed) (hi : SystemInv config sys)
    {sh : Shared} (hholds : sys.lock = .pushing [] (.ok sh)) (closed' : Prop)
    (hclosed : closed' → closed) :
    WakeInv (sys.unlock (.ok sh)) (stored ++ storedPositions sh.writes) closed' := by
  refine ⟨fun id c hc hw => ?_, fun p hp => ?_, fun _ _ hl => (nomatch hl), h.marked,
    fun hcl => h.closed (hclosed hcl)⟩
  · rw [h.wake_waiting hc] at hw
    cases hw
  · change p < sys.mask + 1 + sys.log.length
    rcases List.mem_append.mp hp with hp | hp
    · exact h.stored p hp
    · obtain ⟨before, done, hh, hws⟩ := (h.push _ _ hholds).done
      have hws' : sh.writes = done := hws.trans (List.append_nil done)
      obtain ⟨w, hw, hpos⟩ := List.mem_filterMap.mp hp
      obtain ⟨⟨x, q⟩, hst, rfl⟩ := Option.map_eq_some_iff.mp hpos
      have hmem : (x, q) ∈ sys.history.filterMap CellWrite.toStore := by
        refine List.mem_filterMap.mpr ⟨w, ?_, hst⟩
        rw [hh, ← hws']
        exact List.mem_append_right _ hw
      rw [hi.positions] at hmem
      have hlt := (List.mem_zipIdx hmem).2.1
      rw [hi.ring]
      omega

/-- A close returns: all cells are marked, and it has woken everybody. -/
theorem WakeInv.closeEnd (h : WakeInv sys stored closed) {id : ℕ}
    (hdone : sys.closers id = some (sys.mask + 1)) (hfree : sys.lock = .free) (closed' : Prop) :
    WakeInv { (sys.wake sys.state.wakers).setWakers [] with
      closers := Function.update sys.closers id none } stored closed' := by
  refine ⟨fun j c hc hw => ?_, h.stored, fun todo outcome hl => ?_, fun j k hj i hlt => ?_,
    fun _ i hlt => h.marked id _ hdone i hlt⟩
  · rw [h.wake_waiting hc] at hw
    cases hw
  · have hl' : sys.lock = .pushing todo outcome := hl
    rw [hfree] at hl'
    cases hl'
  · have hupd : Function.update sys.closers id none j = if j = id then none else sys.closers j :=
      Function.update_apply ..
    change Function.update sys.closers id none j = some k at hj
    rw [hupd] at hj
    split at hj
    · cases hj
    · exact h.marked j k hj i hlt

/-- Every step preserves the invariant. -/
theorem Step.wakeInv (hs : Step sys sys') (h : WakeInv sys stored closed)
    (hi : SystemInv config sys) :
    WakeInv sys' (stored ++ sys.returned sys') (closed ∨ sys.closeReturned sys') := by
  have hnot : ∀ {sys' : System}, sys'.closers = sys.closers → ¬sys.closeReturned sys' :=
    System.not_closeReturned
  have hheld : ∀ {sys' : System}, sys'.lock = sys.lock → sys.returned sys' = [] :=
    System.returned_of_lock_eq
  have hfree : ∀ {sys' : System}, sys.lock = .free → sys.returned sys' = [] := fun hfree =>
    System.returned_of_not_pushing fun _ _ hl => by cases hfree.symm.trans hl
  cases hs with
  | subscribe id _ _ receiver =>
    exact .quiet ⟨hheld rfl, hnot rfl⟩ (h.setClient id fun hw => by cases hw)
  | pushLock encode message outcome hlock hrun =>
    exact .quiet ⟨hfree hlock, hnot rfl⟩ (h.pushLock hi hlock hrun)
  | pushWrite w todo outcome hholds =>
    refine .quiet ⟨?_, hnot rfl⟩ (h.pushWrite hholds)
    rw [System.returned, hholds]
    split
    · rename_i hl
      cases hl
    · rfl
  | pushUnlock outcome hholds =>
    cases outcome with
    | error e =>
      refine .quiet ⟨System.returned_of_not_pushing fun _ _ hl => ?_, hnot rfl⟩
        (h.unlock_error hholds)
      rw [hholds] at hl
      cases hl
    | ok sh =>
      have hr : sys.returned (sys.unlock (.ok sh)) = storedPositions sh.writes := by
        rw [System.returned, hholds]
        rfl
      rw [hr]
      exact h.unlock_ok hi hholds _ fun hcl => hcl.resolve_right (hnot rfl)
  | closeBegin id hfresh =>
    exact .quiet ⟨hheld rfl, System.not_closeReturned_update rfl⟩ (h.closeBegin id)
  | closeMark id idx hat =>
    exact .quiet ⟨hheld rfl, System.not_closeReturned_update rfl⟩ (h.closeMark hat)
  | closeEnd id hdone hlock =>
    have hr : sys.returned { (sys.wake sys.state.wakers).setWakers [] with
        closers := Function.update sys.closers id none } = [] := hfree hlock
    rw [hr, List.append_nil]
    exact h.closeEnd hdone hlock _
  | poll id c hc => exact .quiet ⟨hheld rfl, hnot rfl⟩ (h.poll hc)
  | read id c hc hpc =>
    refine .quiet ⟨hheld rfl, hnot rfl⟩ (h.setClient id fun hw => ?_)
    rw [Client.read_waiting, h.not_waiting hc (by rw [hpc]; decide)] at hw
    cases hw
  | lockState id c hc hpc hlock =>
    exact .quiet ⟨hfree hlock, hnot rfl⟩ (h.lockState hc (by rw [hpc]; decide))
  | recheck id c hc hpc hholds =>
    refine .quiet ⟨System.returned_of_not_pushing fun _ _ hl => ?_, hnot rfl⟩
      (h.recheck hi hc hpc)
    rw [hholds] at hl
    cases hl

theorem Observed.wakeInv (h : Observed config sys stored closed) :
    WakeInv sys stored closed := by
  induction h with
  | new => exact .new config
  | step ho hs ih => exact hs.wakeInv ih ho.reachable.inv.1

/-- In every interleaving, a receiver whose last poll returned `Pending` and that
has not been woken since is registered, and no push or close that has returned
concerns it. -/
theorem waiting_parked (h : Observed config sys stored closed) {id : ℕ} {c : Client}
    (hc : sys.clients id = some c) (hw : c.waiting = true) : Parked sys stored closed id c :=
  (h.wakeInv.parked id c hc hw).2

end

/-- A receiver yields the message of a push that has returned, and its next poll
parks. -/
theorem waiting_parked_pushed : ∃ sys stored closed c, Observed ⟨1, 1, 10⟩ sys stored closed ∧
    1 ∈ stored ∧ sys.clients 0 = some c ∧ c.yielded = [.ok [7]] ∧ c.waiting = true ∧
    Parked sys stored closed 0 c := by
  have htail : (Sender.new ⟨1, 1, 10⟩).state.tail = 1 := by
    decide +kernel
  have hmask : (Sender.new ⟨1, 1, 10⟩).mask = 0 := by
    decide +kernel
  have hpush : readOff (fun sh => sh.writes) ((System.new ⟨1, 1, 10⟩).shared.push (fun _ => [7])
      (.slot 5 none .processed)) = some [.store 1 5 (.slot, [7])] := by
    decide +kernel
  obtain ⟨sh, hrun, hwrites⟩ := exists_of_readOff hpush
  have h₀ : Observed ⟨1, 1, 10⟩ _ _ _ := .new
  have h₁ := h₀.step (.subscribe 0 none ⟨false, false, false⟩
    ⟨(Sender.new ⟨1, 1, 10⟩).state.tail, false, true, true, true⟩ rfl rfl rfl)
  have h₂ := h₁.step (.pushLock _ _ (.ok sh) rfl hrun)
  have h₃ := h₂.step (.pushWrite (.store 1 5 (.slot, [7])) [] (.ok sh)
    (congrArg (Lock.pushing · (.ok sh)) hwrites))
  have h₄ := h₃.step (.pushUnlock (.ok sh) rfl)
  have h₅ := h₄.step (.poll 0 _ rfl rfl)
  have h₆ := h₅.step (.read 0 _ rfl rfl)
  have hcell : writeItem 0 (Sender.new ⟨1, 1, 10⟩).buffer (.store 1 5 (.slot, [7])) 0 =
      ⟨1, 5, some (.slot, [7]), false⟩ :=
    Function.update_self (1 &&& 0) _ _
  obtain ⟨sys, stored, closed, hobserved, hstored, hclient, hlock, hitem⟩ :
      ∃ sys stored closed, Observed ⟨1, 1, 10⟩ sys stored closed ∧ 1 ∈ stored ∧
        sys.clients 0 = some ⟨⟨2, false, true, true, true⟩, .idle, false, 1, [.ok [7]], none⟩ ∧
        sys.lock = .free ∧ sys.item 2 = ⟨1, 5, some (.slot, [7]), false⟩ := by
    refine ⟨_, _, _, h₆, ?_, ?_, rfl, ?_⟩
    · change 1 ∈ [] ++ [] ++ [] ++ [] ++ storedPositions sh.writes ++ [] ++ []
      rw [hwrites]
      decide
    · change some (Client.read ⟨⟨(Sender.new ⟨1, 1, 10⟩).state.tail, false, true, true, true⟩,
        .reading, false, (Sender.new ⟨1, 1, 10⟩).state.tail, [], none⟩
        (writeItem (Sender.new ⟨1, 1, 10⟩).mask (Sender.new ⟨1, 1, 10⟩).buffer
          (.store 1 5 (.slot, [7]))
          ((Sender.new ⟨1, 1, 10⟩).state.tail &&& (Sender.new ⟨1, 1, 10⟩).mask))) = _
      rw [htail, hmask, Nat.and_zero, hcell]
      rfl
    · change writeItem (Sender.new ⟨1, 1, 10⟩).mask (Sender.new ⟨1, 1, 10⟩).buffer
        (.store 1 5 (.slot, [7])) (2 &&& (Sender.new ⟨1, 1, 10⟩).mask) = _
      rw [hmask, Nat.and_zero, hcell]
  have h₇ := hobserved.step (.poll 0 _ hclient rfl)
  have hread : Client.read ⟨⟨2, false, true, true, true⟩, .reading, false, 1, [.ok [7]], none⟩
      (sys.item 2) = ⟨⟨2, false, true, true, true⟩, .locking, false, 1, [.ok [7]], none⟩ := by
    rw [hitem]
    rfl
  have h₈ := h₇.step (.read 0 _ rfl rfl)
  have h₉ := h₈.step (.lockState 0 _ (congrArg some hread) rfl hlock)
  have hrecheck : Client.recheck ⟨⟨2, false, true, true, true⟩, .locked, false, 1, [.ok [7]], none⟩
      (sys.item 2) sys.log.length =
      ⟨⟨2, false, true, true, true⟩, .idle, true, 1, [.ok [7]], some sys.log.length⟩ := by
    rw [hitem]
    rfl
  obtain ⟨sys', stored', closed', hobserved', hstored', hclient'⟩ :
      ∃ sys' stored' closed', Observed ⟨1, 1, 10⟩ sys' stored' closed' ∧ 1 ∈ stored' ∧
        sys'.clients 0 =
          some ⟨⟨2, false, true, true, true⟩, .idle, true, 1, [.ok [7]], some sys.log.length⟩ := by
    refine ⟨_, _, _, h₉.step (.recheck 0 _ rfl rfl rfl), ?_, congrArg some hrecheck⟩
    exact List.mem_append_left _ <| List.mem_append_left _ <| List.mem_append_left _ <|
      List.mem_append_left _ hstored
  exact ⟨sys', stored', closed', _, hobserved', hstored', hclient', rfl, rfl,
    waiting_parked hobserved' hclient' rfl⟩

end Dragonmouth.Plugin
