import Dragonmouth.Grpc.Client

/-!
# One client among the others

What happens to one client, whoever does it: it waits in the queue, a worker takes it,
serves it and puts it back or gives it up, and meanwhile its request task and its
stream act on it, except while a worker has locked it. Nothing else of the server is
left here: no queue, no other client and no number of workers.

`drained` is history: the client has been taken by a worker that had noticed the
shutdown.

## Main definitions

- `Place`, `Seat`: a client and where it is
- `Seat.Step`: what may happen to it
- `Seat.Inv`: what holds of it at any time
-/

namespace Dragonmouth.Grpc

open Richat

inductive Place where
  | queued
  /-- taken, not locked yet -/
  | popped
  /-- locked, in the loop over messages -/
  | ticking
  /-- locked, in `try_recv` -/
  | receiving
  | leaving
  | dropping
  /-- neither in the queue nor held by a worker -/
  | left
  deriving DecidableEq

/-- A worker has locked the client. -/
def Place.locked : Place → Bool
  | ticking | receiving => true
  | _ => false

/-- The handles the queue and the workers have on the client. -/
def Place.handles : Place → ℕ
  | left => 0
  | _ => 1

/-- The client has been given up. -/
def Place.gone : Place → Bool
  | dropping | left => true
  | _ => false

structure Seat (F : Type) where
  client : Subscriber F
  place : Place
  drained : Bool

namespace Seat

variable {F : Type}

def new (messagesLenMax : ℕ) : Seat F := ⟨.new messagesLenMax, .queued, false⟩

/-- What may happen to a client, where the rings are at `tail`. -/
inductive Step (api : FilterApi F) (tail : CommitmentLevel → ℕ) (seat : Seat F) :
    Seat F → Prop where
  | act (client : Subscriber F) (free : seat.place.locked = false)
      (step : seat.client.Step api tail client) : Step api tail seat { seat with client := client }
  | take (waits : seat.place = .queued) : Step api tail seat { seat with place := .popped }
  | drain (waits : seat.place = .queued) :
      Step api tail seat { seat with place := .dropping, drained := true }
  /-- only one instance is left -/
  | abandon (taken : seat.place = .popped) (last : seat.client.state.refCount = 1) :
      Step api tail seat { seat with place := .dropping }
  | lock (taken : seat.place = .popped) (ping : Option Bytes)
      (used : seat.client.state.refCount ≠ 1) (place : Place)
      (goes : place = .leaving ∨ place = .ticking) :
      Step api tail seat { seat with client := seat.client.sendPing ping, place := place }
  | receive (ticks : seat.place = .ticking) (open_ : seat.client.state.isFull = false) :
      Step api tail seat { seat with place := .receiving }
  | deliver (message : ParsedMessage)
      (serves : seat.place = .receiving ∨
        seat.place = .ticking ∧ seat.client.state.isFull = false) :
      Step api tail seat
        { seat with client := seat.client.deliver api message, place := .ticking }
  | unlock (serves : seat.place.locked = true) : Step api tail seat { seat with place := .leaving }
  | fail (reads : seat.place = .receiving) (error : Status) :
      Step api tail seat { seat with client := seat.client.fail error, place := .dropping }
  | back (leaves : seat.place = .leaving) : Step api tail seat { seat with place := .queued }
  | drop (drops : seat.place = .dropping) :
      Step api tail seat { seat with client := seat.client.dropHandle, place := .left }

end Seat

-- ════════════════════════════════════════════════════════════════════════
-- The invariant
-- ════════════════════════════════════════════════════════════════════════

/-- The bytes of queued data. -/
def dataLen (messages : List Queued) : ℕ := ((dataOf messages).map List.length).sum

@[simp] theorem dataLen_append (messages messages' : List Queued) :
    dataLen (messages ++ messages') = dataLen messages + dataLen messages' := by
  simp [dataLen]

/-- Data are no more than all that is queued. -/
theorem dataLen_le (messages : List Queued) :
    dataLen messages ≤ (messages.map fun message => message.data.length).sum := by
  induction messages with
  | nil => exact Nat.le_refl 0
  | cons message messages ih =>
    have hsplit : message :: messages = [message] ++ messages := rfl
    rw [hsplit, dataLen_append, List.map_append, List.sum_append]
    refine Nat.add_le_add ?_ ih
    obtain ⟨data, ping⟩ := message
    cases ping with
    | true => exact Nat.zero_le _
    | false => exact Nat.le_refl _

/-- The updates of a message are together at most `bound` bytes. -/
def FilterApi.BoundedBy {F : Type} (api : FilterApi F) (bound : ℕ) : Prop :=
  ∀ filter message level, ((api.getUpdates filter message level).map List.length).sum ≤ bound

namespace SubscribeClientState

variable {F : Type} {api : FilterApi F} {state : SubscribeClientState F}

/-- A stored waker waits for the first thing to read. -/
def Parked (state : SubscribeClientState F) : Prop :=
  state.messagesWaker.isSome → state.messages = [] ∧ state.messagesError = none

theorem Parked.pushMessage (message : Queued) : (state.pushMessage message).Parked :=
  fun h => (nomatch h)

theorem Parked.popMessage (h : state.Parked) (waker : ℕ) : (state.popMessage waker).2.Parked := by
  rw [SubscribeClientState.popMessage]
  split
  · rename_i error herror
    intro hwaker
    rw [(h hwaker).2] at herror
    cases herror
  · rename_i herror
    split
    · rename_i message messages hmessages
      intro hwaker
      rw [(h hwaker).1] at hmessages
      cases hmessages
    · rename_i hmessages
      exact fun _ => ⟨hmessages, herror⟩

/-- What pushing updates leaves as it is. -/
theorem pushAll_fields (datas : List Bytes) (state : SubscribeClientState F) :
    let state' := datas.foldl (fun state data => state.pushMessage ⟨data, false⟩) state
    state'.refCount = state.refCount ∧ state'.messagesError = state.messagesError ∧
      state'.messagesLenMax = state.messagesLenMax ∧ (state.Parked → state'.Parked) := by
  induction datas generalizing state with
  | nil => exact ⟨rfl, rfl, rfl, id⟩
  | cons data datas ih =>
    obtain ⟨hcount, herror, hmax, hparked⟩ := ih (state.pushMessage ⟨data, false⟩)
    exact ⟨hcount, herror, hmax, fun _ => hparked (.pushMessage _)⟩

theorem deliver_fields (api : FilterApi F) (state : SubscribeClientState F)
    (message : ParsedMessage) :
    (state.deliver api message).refCount = state.refCount ∧
      (state.deliver api message).messagesError = state.messagesError ∧
      (state.deliver api message).messagesLenMax = state.messagesLenMax ∧
      (state.Parked → (state.deliver api message).Parked) := by
  cases hfilter : state.filter with
  | none =>
    rw [deliver_none hfilter]
    exact ⟨rfl, rfl, rfl, id⟩
  | some filter =>
    simp only [SubscribeClientState.deliver, hfilter]
    exact pushAll_fields _ { state with head := state.head + 1, filter := some filter }

/-- A message adds at most its updates. -/
theorem dataLen_deliver {bound : ℕ} (hbound : api.BoundedBy bound)
    (state : SubscribeClientState F) (message : ParsedMessage) :
    dataLen (state.deliver api message).messages ≤ dataLen state.messages + bound := by
  cases hfilter : state.filter with
  | none =>
    rw [deliver_none hfilter]
    exact Nat.le_add_right _ _
  | some filter =>
    have hpushed : Pushed { state with head := state.head + 1 } (state.deliver api message)
        (api.getUpdates filter message state.commitment) := deliver_some hfilter message
    rw [dataLen, hpushed.messages, List.map_append, List.sum_append]
    exact Nat.add_le_add_left (hbound filter message state.commitment) _

end SubscribeClientState

namespace Subscriber

variable {F : Type} {api : FilterApi F} {tail : CommitmentLevel → ℕ}
  {client client' : Subscriber F}

/-- The stream has yielded an error or will. -/
def Told (client : Subscriber F) : Prop :=
  client.state.messagesError.isSome ∨ client.finished = true

/-- Neither the request task nor the stream is left. -/
def Unused (client : Subscriber F) : Prop := client.task = false ∧ client.stream = false

/-- The handles of the task and of the stream. -/
def uses (client : Subscriber F) : ℕ := client.task.toNat + client.stream.toNat

/-- What the stream and the task leave true. -/
structure Acts (client client' : Subscriber F) : Prop where
  refs : ∀ n, client.state.refCount = n + client.uses → client'.state.refCount = n + client'.uses
  told : client.Told → client'.Told
  unused : client.Unused → client'.Unused
  parked : client.state.Parked → client'.state.Parked
  lenMax : client'.state.messagesLenMax = client.state.messagesLenMax
  data : dataLen client'.state.messages ≤ dataLen client.state.messages

/-- Only the queue has changed. -/
theorem Acts.of_eq (htask : client'.task = client.task) (hstream : client'.stream = client.stream)
    (hcount : client'.state.refCount = client.state.refCount) (htold : client.Told → client'.Told)
    (hparked : client.state.Parked → client'.state.Parked)
    (hmax : client'.state.messagesLenMax = client.state.messagesLenMax)
    (hdata : dataLen client'.state.messages ≤ dataLen client.state.messages) :
    Acts client client' where
  refs n h := by rw [hcount, h, uses, uses, htask, hstream]
  told := htold
  unused h := ⟨htask.trans h.1, hstream.trans h.2⟩
  parked := hparked
  lenMax := hmax
  data := hdata

theorem acts_fail (client : Subscriber F) (error : Status) (serving : Bool) :
    Acts client { client.fail error with serving := serving } :=
  .of_eq rfl rfl rfl (fun _ => .inl rfl) (fun _ h => (nomatch h)) rfl (Nat.le_refl _)

theorem acts_ping (client : Subscriber F) (data : Bytes) :
    Acts client (client.push ⟨data, true⟩) := by
  refine .of_eq rfl rfl rfl id (fun _ => .pushMessage _) rfl ?_
  change dataLen (client.state.messages ++ [⟨data, true⟩]) ≤ _
  rw [dataLen_append]
  exact Nat.le_refl _

theorem acts_sendPing (client : Subscriber F) (ping : Option Bytes) :
    Acts client (client.sendPing ping) := by
  have hsame : Acts client client := .of_eq rfl rfl rfl id id rfl (Nat.le_refl _)
  cases ping with
  | none => exact hsame
  | some data =>
    rw [sendPing]
    split
    · exact hsame
    · exact acts_ping client data

theorem acts_pollNext (client : Subscriber F) (waker : ℕ) :
    Acts client (client.pollNext waker) := by
  have hparked : client.state.Parked → (client.state.popMessage waker).2.Parked :=
    fun h => h.popMessage waker
  rw [pollNext]
  split
  · exact .of_eq rfl rfl rfl id id rfl (Nat.le_refl _)
  · rename_i hopen
    rw [SubscribeClientState.popMessage] at hparked ⊢
    cases herror : client.state.messagesError with
    | some error =>
      simp only [herror] at hparked ⊢
      exact .of_eq rfl rfl rfl (fun _ => .inr rfl) hparked rfl (Nat.le_refl _)
    | none =>
      have hno : ¬client.Told := by
        rintro (hsome | hfinished)
        · rw [herror] at hsome
          cases hsome
        · exact hopen hfinished
      cases hmessages : client.state.messages with
      | nil =>
        simp only [herror, hmessages] at hparked ⊢
        exact .of_eq rfl rfl rfl (fun h => absurd h hno) hparked rfl
          (by rw [hmessages])
      | cons message messages =>
        simp only [herror, hmessages] at hparked ⊢
        refine .of_eq rfl rfl rfl (fun h => absurd h hno) hparked rfl ?_
        have hsplit : message :: messages = [message] ++ messages := rfl
        rw [hmessages, hsplit, dataLen_append]
        exact Nat.le_add_left _ _

theorem acts_request (client : Subscriber F) (newFilter : Except Status F)
    (currentTail : CommitmentLevel → Option ℕ) :
    Acts client (client.request api newFilter currentTail) := by
  cases newFilter with
  | error error => exact acts_fail client error false
  | ok filter =>
    simp only [request]
    split
    · exact .of_eq rfl rfl rfl id id rfl (Nat.le_refl _)
    · exact .of_eq rfl rfl rfl id id rfl (Nat.le_refl _)

theorem Step.acts (hs : Step api tail client client') : Acts client client' := by
  cases hs with
  | poll waker => exact acts_pollNext client waker
  | pong data => exact acts_ping client data
  | request newFilter fromSlot slots => exact acts_request client newFilter _
  | shutdown => exact acts_fail client _ false
  | dropTask kept =>
    refine ⟨fun n h => ?_, id, fun h => ⟨rfl, h.2⟩, id, rfl, Nat.le_refl _⟩
    rw [uses, kept] at h
    change client.state.refCount - 1 = n + (0 + client.stream.toNat)
    rw [h, Bool.toNat_true]
    omega
  | dropStream kept =>
    refine ⟨fun n h => ?_, id, fun h => ⟨h.1, rfl⟩, id, rfl, Nat.le_refl _⟩
    rw [uses, kept] at h
    change client.state.refCount - 1 = n + (client.task.toNat + 0)
    rw [h, Bool.toNat_true]
    omega

end Subscriber

namespace Seat

variable {F : Type} {api : FilterApi F} {tail : CommitmentLevel → ℕ} {seat seat' : Seat F}
  {limit bound : ℕ}

/-- What holds of a client at any time. -/
structure Inv (limit : ℕ) (seat : Seat F) : Prop where
  refs : seat.client.state.refCount = seat.place.handles + seat.client.uses
  /-- A client is given up for a reason. -/
  given : seat.place.gone = true →
    seat.client.Unused ∨ seat.client.Told ∨ seat.drained = true
  parked : seat.client.state.Parked
  kept : seat.client.Kept
  lenMax : seat.client.state.messagesLenMax = limit
  receiving : seat.place = .receiving → seat.client.state.isFull = false

theorem Inv.new : (new limit : Seat F).Inv limit where
  refs := rfl
  given h := (nomatch h)
  parked h := (nomatch h)
  kept := .new limit
  lenMax := rfl
  receiving h := (nomatch h)

/-- The client goes to a place where it is not given up. -/
theorem Inv.move (h : seat.Inv limit) {place : Place}
    (hhandles : place.handles = seat.place.handles) (hgone : place.gone = false)
    (hopen : place = .receiving → seat.client.state.isFull = false) :
    Inv limit { seat with place := place } where
  refs := by rw [hhandles]; exact h.refs
  given hg := by rw [hgone] at hg; cases hg
  parked := h.parked
  kept := h.kept
  lenMax := h.lenMax
  receiving := hopen

/-- The client is changed and goes to another place. -/
theorem Inv.acts (h : seat.Inv limit) {client : Subscriber F} {place : Place}
    (hacts : Subscriber.Acts seat.client client) (hkept : client.Kept)
    (hhandles : place.handles = seat.place.handles)
    (hgiven : place.gone = true → client.Unused ∨ client.Told ∨ seat.drained = true)
    (hopen : place ≠ .receiving) :
    Inv limit { seat with client := client, place := place } where
  refs := by
    rw [hhandles]
    exact hacts.refs _ h.refs
  given := hgiven
  parked := hacts.parked h.parked
  kept := hkept
  lenMax := hacts.lenMax.trans h.lenMax
  receiving he := absurd he hopen

theorem Inv.deliver (h : seat.Inv limit) (hhandles : seat.place.handles = 1)
    (message : ParsedMessage) :
    Inv limit { seat with client := seat.client.deliver api message, place := .ticking } := by
  obtain ⟨hcount, herror, hmax, hparked⟩ :=
    SubscribeClientState.deliver_fields api seat.client.state message
  refine
    { refs := ?_
      given := fun hg => (nomatch hg)
      parked := hparked h.parked
      kept := h.kept.deliver message
      lenMax := hmax.trans h.lenMax
      receiving := fun he => (nomatch he) }
  have hrefs := h.refs
  rw [hhandles] at hrefs
  exact hcount.trans hrefs

theorem Step.inv (hs : Step api tail seat seat') (h : seat.Inv limit) : seat'.Inv limit := by
  cases hs with
  | act client hfree hstep =>
    have hacts := hstep.acts
    refine h.acts hacts (hstep.kept h.kept) rfl (fun hg => ?_) fun he => ?_
    · obtain hunused | htold | hdrained := h.given hg
      · exact .inl (hacts.unused hunused)
      · exact .inr (.inl (hacts.told htold))
      · exact .inr (.inr hdrained)
    · rw [he] at hfree
      cases hfree
  | take hwaits =>
    refine h.move ?_ rfl fun he => (nomatch he)
    rw [hwaits]
    rfl
  | drain hwaits =>
    have hrefs := h.refs
    rw [hwaits] at hrefs
    exact ⟨hrefs, fun _ => .inr (.inr rfl), h.parked, h.kept, h.lenMax, fun he => (nomatch he)⟩
  | abandon htaken hlast =>
    have hrefs := h.refs
    rw [htaken] at hrefs
    refine ⟨hrefs, fun _ => .inl ?_, h.parked, h.kept, h.lenMax, fun he => (nomatch he)⟩
    have hone : Place.popped.handles = 1 := rfl
    rw [hlast, hone, Subscriber.uses] at hrefs
    constructor
    · cases htask : seat.client.task with
      | false => rfl
      | true =>
        rw [htask, Bool.toNat_true] at hrefs
        omega
    · cases hstream : seat.client.stream with
      | false => rfl
      | true =>
        rw [hstream, Bool.toNat_true] at hrefs
        omega
  | lock htaken ping hused place hgoes =>
    have hkept := h.kept.sendPing ping
    obtain rfl | rfl := hgoes
    · exact h.acts (Subscriber.acts_sendPing _ ping) hkept (by rw [htaken]; rfl)
        (fun hg => (nomatch hg)) fun he => (nomatch he)
    · exact h.acts (Subscriber.acts_sendPing _ ping) hkept (by rw [htaken]; rfl)
        (fun hg => (nomatch hg)) fun he => (nomatch he)
  | receive hticks hopen =>
    refine h.move ?_ rfl fun _ => hopen
    rw [hticks]
    rfl
  | deliver message hserves =>
    obtain hreads | ⟨hticks, -⟩ := hserves
    · exact h.deliver (by rw [hreads]; rfl) message
    · exact h.deliver (by rw [hticks]; rfl) message
  | unlock hserves =>
    refine h.move ?_ rfl fun he => (nomatch he)
    cases hplace : seat.place with
    | left =>
      rw [hplace] at hserves
      cases hserves
    | _ => rfl
  | fail hreads error =>
    have hacts := Subscriber.acts_fail seat.client error seat.client.serving
    exact h.acts hacts ⟨h.kept.total, h.kept.unfinished, h.kept.last⟩ (by rw [hreads]; rfl)
      (fun _ => .inr (.inl (.inl rfl))) fun he => (nomatch he)
  | back hleaves =>
    refine h.move ?_ rfl fun he => (nomatch he)
    rw [hleaves]
    rfl
  | drop hdrops =>
    have hrefs := h.refs
    rw [hdrops] at hrefs
    refine ⟨?_, fun _ => ?_, h.parked, ⟨h.kept.total, h.kept.unfinished, h.kept.last⟩, h.lenMax,
      fun he => (nomatch he)⟩
    · have hone : Place.dropping.handles = 1 := rfl
      change seat.client.state.refCount - 1 = 0 + seat.client.uses
      rw [hrefs, hone]
      omega
    · exact h.given (by rw [hdrops]; rfl)

/-- A client that is not full takes a message whatever its size, and nothing else adds
data. -/
theorem Step.dataLen_le (hs : Step api tail seat seat') (hbound : api.BoundedBy bound)
    (h : seat.Inv limit) (hdata : dataLen seat.client.state.messages ≤ limit + bound) :
    dataLen seat'.client.state.messages ≤ limit + bound := by
  cases hs with
  | act client hfree hstep => exact hstep.acts.data.trans hdata
  | lock htaken ping => exact (Subscriber.acts_sendPing _ ping).data.trans hdata
  | deliver message hserves =>
    have hopen : seat.client.state.isFull = false := by
      obtain hreads | ⟨-, hopen⟩ := hserves
      · exact h.receiving hreads
      · exact hopen
    have hroom : dataLen seat.client.state.messages ≤ limit := by
      have hle := Grpc.dataLen_le seat.client.state.messages
      have htotal := h.kept.total
      rw [SubscribeClientState.Total] at htotal
      have hfull : ¬seat.client.state.messagesLenTotal > seat.client.state.messagesLenMax :=
        of_decide_eq_false hopen
      rw [h.lenMax] at hfull
      omega
    exact (SubscribeClientState.dataLen_deliver hbound _ message).trans
      (Nat.add_le_add_right hroom bound)
  | _ => exact hdata

end Seat

end Dragonmouth.Grpc
