import Dragonmouth.Richat.RingReaders

/-!
# The message cache of a worker

Every worker keeps, for each commitment level, the messages it has read lately,
so that clients at the same position do not all read the ring. The cache answers
from the cell of a position if it holds that position and the position is not
too far behind the newest one asked for.

The first position in range is computed in 64 bits and wraps, as in the release
build.

## Main definitions

- `messageAt`, `MessagesFrom`: the messages pushed at the positions of a ring
- `MessagesCache`: the cache, with the parts of `try_recv` before and after the
  ring is read
- `MessagesCache.Faithful`: what it holds are messages of the ring
-/

namespace Dragonmouth.Grpc

open Richat

structure MessagesCacheItem where
  pos : ℕ
  msg : Option ParsedMessage

structure MessagesCache where
  head : ℕ
  mask : ℕ
  buffer : ℕ → MessagesCacheItem

namespace MessagesCache

def new (maxMessages : ℕ) : MessagesCache where
  head := 0
  mask := maxMessages - 1
  buffer := fun _ => { pos := 2 ^ 64 - 1, msg := none }

def getIdx (cache : MessagesCache) (pos : ℕ) : ℕ := pos &&& cache.mask

/-- Remember the newest position asked for. -/
def touch (cache : MessagesCache) (head : ℕ) : MessagesCache :=
  if head > cache.head then { cache with head := head } else cache

/-- `head >= self.head - self.mask`. -/
def inrange (cache : MessagesCache) (head : ℕ) : Bool :=
  (cache.head + 2 ^ 64 - cache.mask) % 2 ^ 64 ≤ head

/-- The answer, if the position is cached. -/
def cached (cache : MessagesCache) (head : ℕ) : Option (Option ParsedMessage) :=
  let item := cache.buffer (cache.getIdx head)
  if cache.inrange head ∧ item.pos = head then some item.msg else none

/-- Save what has been read from the ring, if the position is in range. -/
def save (cache : MessagesCache) (head : ℕ) (item : ParsedMessage) : MessagesCache :=
  if cache.inrange head then
    { cache with
      buffer := Function.update cache.buffer (cache.getIdx head)
        { pos := head, msg := some item } }
  else cache

end MessagesCache

/-- The message pushed at a position; the first position of a ring of `N` cells
is `N`. -/
def messageAt (N : ℕ) (ring : Ring) (pos : ℕ) : Option ParsedMessage :=
  if N ≤ pos then (ring.log[pos - N]?).map Prod.snd else none

section

variable {N pos : ℕ} {ring ring' : Ring} {cache : MessagesCache} {message : ParsedMessage}

theorem messageAt_eq_some : messageAt N ring pos = some message ↔
    N ≤ pos ∧ ∃ x, ring.log[pos - N]? = some x ∧ x.2 = message := by
  rw [messageAt]
  split
  · rename_i hle
    simp [hle]
  · rename_i hlt
    simp [hlt]

/-- What has been pushed stays. -/
theorem messageAt_step (hs : ring.Step ring') (h : messageAt N ring pos = some message) :
    messageAt N ring' pos = some message := by
  obtain ⟨hle, x, hx, hm⟩ := messageAt_eq_some.mp h
  obtain ⟨ws, hh⟩ := hs.history
  obtain ⟨new, hlog⟩ := Ring.log_append hh
  obtain ⟨hlt, -⟩ := List.getElem?_eq_some_iff.mp hx
  exact messageAt_eq_some.mpr
    ⟨hle, x, by rw [hlog, List.getElem?_append_left hlt, hx], hm⟩

/-- The messages of a ring from a position on, without a gap. -/
def MessagesFrom (N : ℕ) (ring : Ring) (head : ℕ) (messages : List ParsedMessage) : Prop :=
  ∀ i message, messages[i]? = some message → messageAt N ring (head + i) = some message

theorem MessagesFrom.step {messages : List ParsedMessage} (hs : ring.Step ring')
    (h : MessagesFrom N ring pos messages) : MessagesFrom N ring' pos messages :=
  fun i message hi => messageAt_step hs (h i message hi)

theorem MessagesFrom.concat {messages : List ParsedMessage}
    (h : MessagesFrom N ring pos messages)
    (hm : messageAt N ring (pos + messages.length) = some message) :
    MessagesFrom N ring pos (messages ++ [message]) := by
  intro i found hi
  rcases Nat.lt_or_ge i messages.length with hlt | hge
  · rw [List.getElem?_append_left hlt] at hi
    exact h i found hi
  · rw [List.getElem?_append_right hge, List.getElem?_singleton] at hi
    split at hi
    · rename_i hzero
      have heq : i = messages.length := by omega
      rw [heq, hm, hi]
    · cases hi

/-- A cell never holds a message for a position before the first. -/
theorem recv_before (h : ring.Inv N) (hlt : pos < N) :
    (ring.view.item pos).recv pos ≠ .ok (some message) := by
  obtain ⟨head, hw, -⟩ := h.window
  have hN : 0 < N := by omega
  intro hrecv
  have hitem : ring.view.cells (pos % N) = (ring.view.item pos).cell := by
    rw [View.item, h.getIdx]
    rfl
  rw [Item.recv] at hrecv
  split at hrecv
  · cases hrecv
  · rename_i hpos
    rw [not_not] at hpos
    cases hdata : (ring.view.item pos).data with
    | none =>
      simp only [hdata] at hrecv
      cases hrecv
    | some found =>
      have hval : (ring.view.cells (pos % N)).val =
          some ((ring.view.item pos).slot, found) := by
        rw [hitem, Item.cell, hdata]
        rfl
      obtain ⟨q, hq, hq', hmod, -⟩ := hw.exists_of_val (Nat.mod_lt pos hN) hval
      have hqle : N ≤ q := hw.base_le.trans hq
      obtain ⟨y, -, hcell⟩ := hw.held hq hq'
      rw [hmod, hitem, Item.cell, RingLog.Cell.mk.injEq] at hcell
      omega

/-- Whatever a call of `try_recv` returns is the message pushed at its position. -/
def Read (N : ℕ) (ring : Ring) : Reader → Prop
  | .loading _ => True
  | .reading head _ _ => N ≤ head → head < N + ring.log.length
  | .done head _ _ result =>
    ∀ message, result = .ok (some message) → messageAt N ring head = some message

@[simp] theorem load_head (head : ℕ) (ring : Ring) : (Reader.load head ring).head = head := by
  rw [Reader.load]
  split <;> rfl

theorem Read.load (h : ring.Inv N) (head : ℕ) : Read N ring (Reader.load head ring) := by
  rw [Reader.load]
  split
  · rename_i hlt
    intro hle
    have := h.tail.2 (by omega)
    omega
  · intro message hres
    cases hres

theorem Read.read (h : ring.Inv N) {head tail loadedAt : ℕ}
    (hr : Read N ring (.reading head tail loadedAt)) :
    Read N ring (Reader.read head tail loadedAt ring) := by
  intro message hres
  by_cases hle : N ≤ head
  · rcases h.recv hle (hr hle) with ⟨hlag, -⟩ | ⟨x, hx, hok⟩
    · rw [hlag] at hres
      cases hres
    · rw [hok, Except.ok.injEq, Option.some.injEq] at hres
      exact messageAt_eq_some.mpr ⟨hle, x, hx, hres⟩
  · exact absurd hres (recv_before h (Nat.not_le.mp hle))

theorem Read.step (hs : ring.Step ring') {reader : Reader} (h : Read N ring reader) :
    Read N ring' reader := by
  cases reader with
  | loading head => trivial
  | reading head tail loadedAt =>
    intro hle
    obtain ⟨ws, hh⟩ := hs.history
    obtain ⟨new, hlog⟩ := Ring.log_append hh
    have hlt := h hle
    rw [hlog, List.length_append]
    omega
  | done head tail loadedAt result =>
    exact fun message hres => messageAt_step hs (h message hres)

namespace MessagesCache

/-- Every cell holds the message pushed at its position, or none. -/
def Faithful (N : ℕ) (ring : Ring) (cache : MessagesCache) : Prop :=
  ∀ i message, (cache.buffer i).msg = some message →
    messageAt N ring (cache.buffer i).pos = some message

theorem Faithful.new (N : ℕ) (ring : Ring) (maxMessages : ℕ) :
    Faithful N ring (new maxMessages) := fun _ _ h => (nomatch h)

theorem Faithful.step (h : Faithful N ring cache) (hs : ring.Step ring') :
    Faithful N ring' cache :=
  fun i message hm => messageAt_step hs (h i message hm)

theorem Faithful.touch (h : Faithful N ring cache) (head : ℕ) :
    Faithful N ring (cache.touch head) := by
  rw [MessagesCache.touch]
  split
  · exact h
  · exact h

theorem Faithful.save (h : Faithful N ring cache) {head : ℕ}
    (hm : messageAt N ring head = some message) : Faithful N ring (cache.save head message) := by
  rw [MessagesCache.save]
  split
  · intro i found hfound
    by_cases hi : i = cache.getIdx head
    · subst hi
      simp only [Function.update_self] at hfound ⊢
      rwa [← Option.some.inj hfound]
    · simp only [Function.update_of_ne hi] at hfound ⊢
      exact h i found hfound
  · exact h

/-- A cached answer is the message pushed at the position. -/
theorem Faithful.cached (h : Faithful N ring cache) {head : ℕ}
    (hc : cache.cached head = some (some message)) : messageAt N ring head = some message := by
  simp only [MessagesCache.cached] at hc
  split at hc
  · rename_i hpos
    have hm := h _ message (Option.some.inj hc)
    rwa [hpos.2] at hm
  · cases hc

end MessagesCache

end

end Dragonmouth.Grpc
