import Dragonmouth.Plugin.Stream

/-!
# What a stream has yielded

The invariant of one client, and what each step of its poll does to it. A client
depends on the rest of the system only through the messages pushed so far, the
positions whose message is lost, and whether a `close` has begun; all three only
grow.

## Main definitions

- `delivered`: the messages of an interval of positions, without the disabled kinds
- `Delivers`: the invariant of a client
- `Item.Tells`: what a reader may conclude from the item of its position
-/

namespace Dragonmouth.Plugin

/-- The messages at the positions from `start` to `n` of the enabled kinds. -/
def delivered (receiver : Receiver) (N : ℕ) (log : List Stored) (start n : ℕ) : List RecvItem :=
  ((log.drop (start - N)).take (n - start)).filterMap fun x =>
    if receiver.enabled x.2.1 then some x.2.2 else none

/-- The stream has yielded the messages up to the position `n`, then possibly
one error. -/
structure Delivers (N : ℕ) (log : List Stored) (lost : ℕ → Prop) (closeBegan : Bool)
    (c : Client) (n : ℕ) : Prop where
  base_le : N ≤ c.start
  start_le : c.start ≤ n
  le_pushed : n ≤ N + log.length
  unfinished : c.receiver.finished = false →
    c.receiver.next = n ∧ c.yielded = (delivered c.receiver N log c.start n).map .ok
  finished : c.receiver.finished = true → c.pc = .idle ∧ ∃ e,
    c.yielded = (delivered c.receiver N log c.start n).map .ok ++ [.error e] ∧
      (e = .lagged → lost n) ∧ (e = .closed → closeBegan = true)
  /-- A poll that returned `Pending` had reached the last message. -/
  caughtUp : ∀ m, c.pendingAt = some m →
    c.pc = .idle ∧ c.receiver.finished = false ∧ c.receiver.next = N + m

/-- What the item of the position `n` tells about the messages pushed so far. -/
structure Item.Tells (item : Item) (N : ℕ) (log : List Stored) (n : ℕ) : Prop where
  pushed : n ≤ item.pos → n < N + log.length
  behind : item.pos < n → N + log.length ≤ n
  entry : ∀ d, item.pos = n → item.data = some d → log[n - N]? = some (item.slot, d)

section

variable {N n : ℕ} {log : List Stored} {lost : ℕ → Prop} {closeBegan : Bool} {c : Client}
  {item : Item} {receiver : Receiver} {start : ℕ}

/-- Later pushes do not change what has been delivered. -/
theorem delivered_append (new : List Stored) (hs : N ≤ start) (hle : start ≤ n)
    (hn : n ≤ N + log.length) :
    delivered receiver N (log ++ new) start n = delivered receiver N log start n := by
  rw [delivered, delivered, List.drop_append_of_le_length (by omega),
    List.take_append_of_le_length (by rw [List.length_drop]; omega)]

/-- One more position delivers its message unless the kind is disabled. -/
theorem delivered_succ {x : Stored} (hs : N ≤ start) (hle : start ≤ n)
    (hx : log[n - N]? = some x) :
    delivered receiver N log start (n + 1) = delivered receiver N log start n ++
      if receiver.enabled x.2.1 then [x.2.2] else [] := by
  have hidx : (log.drop (start - N))[n - start]? = some x := by
    rw [List.getElem?_drop, ← hx]
    congr 1
    omega
  rw [delivered, delivered, show n + 1 - start = n - start + 1 by omega, List.take_add_one, hidx,
    List.filterMap_append]
  by_cases he : receiver.enabled x.2.1 <;> simp [he]

/-- The invariant survives whatever the rest of the system does. -/
theorem Delivers.mono {lost' : ℕ → Prop} {closeBegan' : Bool} (new : List Stored)
    (h : Delivers N log lost closeBegan c n) (hlost : ∀ n, lost n → lost' n)
    (hclose : closeBegan = true → closeBegan' = true) :
    Delivers N (log ++ new) lost' closeBegan' c n := by
  have hd : delivered c.receiver N (log ++ new) c.start n = _ :=
    delivered_append new h.base_le h.start_le h.le_pushed
  refine ⟨h.base_le, h.start_le, ?_, fun hf => ?_, fun hf => ?_, h.caughtUp⟩
  · rw [List.length_append]
    exact h.le_pushed.trans (by omega)
  · rw [hd]
    exact h.unfinished hf
  · obtain ⟨hpc, e, hy, hl, hc⟩ := h.finished hf
    exact ⟨hpc, e, by rw [hd, hy], fun he => hlost n (hl he), fun he => hclose (hc he)⟩

theorem Delivers.weaken {lost' : ℕ → Prop} {closeBegan' : Bool}
    (h : Delivers N log lost closeBegan c n) (hlost : ∀ n, lost n → lost' n)
    (hclose : closeBegan = true → closeBegan' = true) :
    Delivers N log lost' closeBegan' c n := by
  simpa using h.mono [] hlost hclose

/-- Waking a client changes nothing of what it has yielded. -/
theorem Delivers.woken (h : Delivers N log lost closeBegan c n) (waiting : Bool) :
    Delivers N log lost closeBegan { c with waiting := waiting } n :=
  ⟨h.base_le, h.start_le, h.le_pushed, h.unfinished, h.finished, h.caughtUp⟩

/-- A new stream has yielded nothing. -/
theorem Delivers.new (hf : receiver.finished = false) (hle : N ≤ receiver.next)
    (hle' : receiver.next ≤ N + log.length) :
    Delivers N log lost closeBegan (.new receiver) receiver.next := by
  refine ⟨hle, le_rfl, hle', fun _ => ⟨rfl, ?_⟩, fun hf' => ?_, fun m hm => by cases hm⟩
  · simp [Client.new, delivered]
  · rw [show (Client.new receiver).receiver.finished = false from hf] at hf'
    cases hf'

theorem Delivers.poll (h : Delivers N log lost closeBegan c n) :
    Delivers N log lost closeBegan c.poll n := by
  rw [Client.poll]
  split
  · exact h
  · rename_i hf
    exact ⟨h.base_le, h.start_le, h.le_pushed, h.unfinished, fun hf' => absurd hf' hf,
      fun m hm => by cases hm⟩

/-- While a poll is going on, the stream is not finished. -/
theorem Delivers.running (h : Delivers N log lost closeBegan c n) (hpc : c.pc ≠ .idle) :
    c.receiver.finished = false ∧ c.pendingAt = none := by
  constructor
  · cases hf : c.receiver.finished with
    | false => rfl
    | true => exact absurd (h.finished hf).1 hpc
  · cases hp : c.pendingAt with
    | none => rfl
    | some m => exact absurd (h.caughtUp m hp).1 hpc

/-- Moving on to another place of the poll. -/
theorem Delivers.setPc (h : Delivers N log lost closeBegan c n) (hpc : c.pc ≠ .idle) (pc : Pc) :
    Delivers N log lost closeBegan { c with pc := pc } n := by
  obtain ⟨hf, hp⟩ := h.running hpc
  refine ⟨h.base_le, h.start_le, h.le_pushed, h.unfinished, fun hf' => ?_, fun m hm => ?_⟩
  · rw [show c.receiver.finished = true from hf'] at hf
    cases hf
  · rw [show c.pendingAt = some m from hm] at hp
    cases hp

/-- Ending the stream with an error. -/
theorem Delivers.fail (h : Delivers N log lost closeBegan c n) (hpc : c.pc ≠ .idle)
    {e : RecvError} (hl : e = .lagged → lost n) (hc : e = .closed → closeBegan = true) :
    Delivers N log lost closeBegan (c.ready (.error e)) n := by
  obtain ⟨hf, hp⟩ := h.running hpc
  refine ⟨h.base_le, h.start_le, h.le_pushed, fun hf' => ?_, fun _ => ⟨rfl, e, ?_, hl, hc⟩,
    fun m hm => ?_⟩
  · cases hf'
  · change c.yielded ++ [.error e] = _
    rw [(h.unfinished hf).2]
    rfl
  · rw [show c.pendingAt = some m from hm] at hp
    cases hp

/-- Taking the item of the next position. -/
theorem Delivers.take (h : Delivers N log lost closeBegan c n) (hpc : c.pc ≠ .idle)
    (hpos : item.pos = n) (ht : item.Tells N log n)
    (hlost : item.data = none → n < N + log.length → lost n) :
    ∃ n', Delivers N log lost closeBegan (c.take item) n' := by
  obtain ⟨hf, hp⟩ := h.running hpc
  obtain ⟨hnext, hy⟩ := h.unfinished hf
  have hpushed := ht.pushed hpos.ge
  rw [Client.take, Receiver.takeItem]
  cases hd : item.data with
  | none =>
    -- `next` has already moved on, the stream has not
    refine ⟨n, h.base_le, h.start_le, h.le_pushed, fun hf' => (nomatch hf'),
      fun _ => ⟨rfl, .lagged, ?_, fun _ => hlost hd hpushed, fun he => nomatch he⟩, fun m hm => ?_⟩
    · change c.yielded ++ [.error .lagged] = _
      rw [hy]
      rfl
    · rw [show c.pendingAt = some m from hm] at hp
      cases hp
  | some d =>
    have hx := ht.entry d hpos hd
    have hsucc : delivered c.receiver N log c.start (n + 1) = _ :=
      delivered_succ h.base_le h.start_le hx
    have hkind : ({ c.receiver with next := c.receiver.next + 1 } : Receiver).enabled d.1 =
        c.receiver.enabled d.1 := by
      cases d.1 <;> rfl
    have hpend : ∀ m, c.pendingAt = some m → False := fun m hm => by
      rw [hm] at hp
      cases hp
    simp only [hkind]
    by_cases he : c.receiver.enabled d.1 = true
    · rw [if_pos he] at hsucc ⊢
      refine ⟨n + 1, h.base_le, h.start_le.trans (Nat.le_succ _), hpushed, fun _ => ⟨?_, ?_⟩,
        fun hf' => ?_, fun m hm => (hpend m hm).elim⟩
      · exact congrArg (· + 1) hnext
      · change c.yielded ++ [.ok d.2] = (delivered c.receiver N log c.start (n + 1)).map .ok
        rw [hsucc, hy, List.map_append]
        rfl
      · rw [show c.receiver.finished = true from hf'] at hf
        cases hf
    · rw [if_neg he] at hsucc ⊢
      refine ⟨n + 1, h.base_le, h.start_le.trans (Nat.le_succ _), hpushed, fun _ => ⟨?_, ?_⟩,
        fun hf' => ?_, fun m hm => (hpend m hm).elim⟩
      · exact congrArg (· + 1) hnext
      · change c.yielded = (delivered c.receiver N log c.start (n + 1)).map .ok
        rw [hsucc, hy, List.append_nil]
      · rw [show c.receiver.finished = true from hf'] at hf
        cases hf

theorem Delivers.read (h : Delivers N log lost closeBegan c n) (hpc : c.pc ≠ .idle)
    (ht : item.Tells N log n) (hclosed : item.closed = true → closeBegan = true)
    (hlost : item.data = none → n < N + log.length → lost n) :
    ∃ n', Delivers N log lost closeBegan (c.read item) n' := by
  have hnext := (h.unfinished (h.running hpc).1).1
  rw [Client.read]
  split
  · rename_i hc
    exact ⟨n, h.fail hpc (fun he => by cases he) fun _ => hclosed hc⟩
  · split
    · exact ⟨n, h.setPc hpc _⟩
    · rename_i hpos
      exact h.take hpc ((not_not.mp hpos).trans hnext) ht hlost

theorem Delivers.recheck (h : Delivers N log lost closeBegan c n) (hpc : c.pc ≠ .idle)
    (ht : item.Tells N log n) (hclosed : item.closed = true → closeBegan = true)
    (hlost : item.data = none ∨ item.pos ≠ n → n < N + log.length → lost n) :
    ∃ n', Delivers N log lost closeBegan (c.recheck item log.length) n' := by
  obtain ⟨hf, -⟩ := h.running hpc
  have hnext := (h.unfinished hf).1
  rw [Client.recheck, hnext]
  split
  · rename_i hc
    exact ⟨n, h.fail hpc (fun he => by cases he) fun _ => hclosed hc⟩
  · split
    · rename_i hpos
      split
      · rename_i hlt
        -- the position has not been written yet, so everything has been yielded
        refine ⟨n, h.base_le, h.start_le, h.le_pushed, h.unfinished, fun hf' => ?_, fun m hm => ?_⟩
        · rw [show c.receiver.finished = true from hf'] at hf
          cases hf
        · cases hm
          exact ⟨rfl, hf, hnext.trans (le_antisymm h.le_pushed (ht.behind hlt))⟩
      · rename_i hge
        have hpushed := ht.pushed (not_lt.mp hge)
        exact ⟨n, h.fail hpc (fun _ => hlost (.inr hpos) hpushed) fun he => by cases he⟩
    · rename_i hpos
      exact h.take hpc (not_not.mp hpos) ht fun hd => hlost (.inl hd)

end

end Dragonmouth.Plugin
