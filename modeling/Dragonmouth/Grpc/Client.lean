import Dragonmouth.Grpc.MessagesCache
import Dragonmouth.Richat.Sender

/-!
# A subscribed client

The state of a client is shared by the queue of clients, the task that reads its
requests and the stream that yields its messages, each of which locks it. The
operations of this file are what they and the workers do under the lock.

The filter of a request is a parameter: its commitment, and the encoded updates
it makes of a message. The time, which decides when pings are sent, is left open.

## Main definitions

- `SubscribeClientState`: the shared state
- `Subscriber`: the state with its stream and its request task
- `Subscriber.Step`: what the stream and the task do
- `Subscriber.Kept`: what holds of a client at any time
-/

namespace Dragonmouth.Grpc

open Richat

/-- The codes of the statuses sent to a client. -/
inductive Code where
  | dataLoss
  | internal
  | invalidArgument
  deriving DecidableEq

structure Status where
  code : Code
  message : String
  deriving DecidableEq

/-- The status for an error of `try_recv`. -/
def Status.ofRecvError : RecvError → Status
  | .lagged => ⟨.dataLoss, "lagged"⟩
  | .closed => ⟨.dataLoss, "closed"⟩

/-- A queued message. `ping` is a history variable: the message is a ping or a
pong. -/
structure Queued where
  data : Bytes
  ping : Bool
  deriving DecidableEq

/-- `get_current_tail` on a ring, with the first positions its slots have at that
moment. -/
def currentTail (tail : ℕ) (slots : SlotHeads) : Option Slot → Option ℕ
  | some slot => (slots.lookup slot).map SlotHead.head
  | none => some tail

theorem getCurrentTail_eq (messages : Messages) (commitment : CommitmentLevel)
    (replayFromSlot : Option Slot) : messages.getCurrentTail commitment replayFromSlot =
      currentTail (messages.shared commitment).tail (messages.shared commitment).slots
        replayFromSlot := by
  cases replayFromSlot <;> rfl

/-- What the server asks of a filter: `commitment`, and `get_updates_ref` with
every update encoded. -/
structure FilterApi (F : Type) where
  commitment : F → CommitmentLevel
  getUpdates : F → ParsedMessage → CommitmentLevel → List Bytes

structure SubscribeClientState (F : Type) where
  refCount : ℕ
  commitment : CommitmentLevel
  head : ℕ
  filter : Option F
  messagesError : Option Status
  messagesLenMax : ℕ
  messagesLenTotal : ℕ
  messages : List Queued
  messagesWaker : Option ℕ

namespace SubscribeClientState

variable {F : Type}

def new (messagesLenMax : ℕ) : SubscribeClientState F where
  refCount := 1
  commitment := .finalized
  head := 0
  filter := none
  messagesError := none
  messagesLenMax := messagesLenMax
  messagesLenTotal := 0
  messages := []
  messagesWaker := none

def isFull (state : SubscribeClientState F) : Bool :=
  state.messagesLenTotal > state.messagesLenMax

def pushError (state : SubscribeClientState F) (error : Status) : SubscribeClientState F :=
  { state with messagesError := some error, messagesWaker := none }

def pushMessage (state : SubscribeClientState F) (message : Queued) : SubscribeClientState F :=
  { state with
    messagesLenTotal := state.messagesLenTotal + message.data.length
    messages := state.messages ++ [message]
    messagesWaker := none }

def popMessage (state : SubscribeClientState F) (waker : ℕ) :
    Option (Except Status Queued) × SubscribeClientState F :=
  match state.messagesError with
  | some error => (some (.error error), { state with messagesError := none })
  | none =>
    match state.messages with
    | message :: messages =>
      (some (.ok message),
        { state with
          messagesLenTotal := state.messagesLenTotal - message.data.length
          messages := messages })
    | [] => (none, { state with messagesWaker := some waker })

/-- The next message has been read: move on, and push the updates of the filter. -/
def deliver (state : SubscribeClientState F) (api : FilterApi F) (message : ParsedMessage) :
    SubscribeClientState F :=
  let state := { state with head := state.head + 1 }
  match state.filter with
  | some filter =>
    (api.getUpdates filter message state.commitment).foldl
      (fun state data => state.pushMessage ⟨data, false⟩) state
  | none => state

end SubscribeClientState

/-- The data among messages: all but pings and pongs. -/
def dataOf (messages : List Queued) : List Bytes :=
  (messages.filter fun message => !message.ping).map Queued.data

/-- The messages among the items of a stream. -/
def itemsOk (items : List (Except Status Queued)) : List Queued :=
  items.filterMap fun item => item.toOption

/-- An accepted request: its filter, the position it starts from, the data queued
when it was accepted, and whether it was the first of its client. -/
structure Accepted (F : Type) where
  filter : F
  head : ℕ
  queued : List Bytes
  first : Bool

/-- A client with its `ReceiverStream` and its request task. `accepted` and
`yielded` are history variables: the request in force, and what the stream has
yielded since. -/
structure Subscriber (F : Type) where
  state : SubscribeClientState F
  finished : Bool
  /-- the stream exists -/
  stream : Bool
  /-- the request task holds the client -/
  task : Bool
  /-- the request task reads requests -/
  serving : Bool
  accepted : Option (Accepted F)
  yielded : List (Except Status Queued)

namespace Subscriber

variable {F : Type}

/-- A client after `subscribe`: the queue, the task and the stream hold it. -/
def new (messagesLenMax : ℕ) : Subscriber F where
  state := { SubscribeClientState.new messagesLenMax with refCount := 3 }
  finished := false
  stream := true
  task := true
  serving := true
  accepted := none
  yielded := []

/-- `poll_next`. -/
def pollNext (client : Subscriber F) (waker : ℕ) : Subscriber F :=
  if client.finished then client
  else
    match client.state.popMessage waker with
    | (some item, state) =>
      { client with
        state := state
        finished := item.toOption.isNone
        yielded := client.yielded ++ [item] }
    | (none, state) => { client with state := state }

def push (client : Subscriber F) (message : Queued) : Subscriber F :=
  { client with state := client.state.pushMessage message }

/-- Send a ping, if it is time for one and the queue is not full. -/
def sendPing (client : Subscriber F) : Option Bytes → Subscriber F
  | some data => if client.state.isFull then client else client.push ⟨data, true⟩
  | none => client

def fail (client : Subscriber F) (error : Status) : Subscriber F :=
  { client with state := client.state.pushError error }

def deliver (client : Subscriber F) (api : FilterApi F) (message : ParsedMessage) :
    Subscriber F :=
  { client with state := client.state.deliver api message }

/-- A handle of the client is dropped. -/
def dropHandle (client : Subscriber F) : Subscriber F :=
  { client with state := { client.state with refCount := client.state.refCount - 1 } }

/-- A request other than a ping. `currentTail` answers for its `from_slot`. Where
there is no answer the commitment is changed all the same, and
the error made of it is the value of the closure, not of `new_filter.map`: the
task goes on as after an accepted request. -/
def request (client : Subscriber F) (api : FilterApi F) (newFilter : Except Status F)
    (currentTail : CommitmentLevel → Option ℕ) : Subscriber F :=
  match newFilter with
  | .error error => { client.fail error with serving := false }
  | .ok filter =>
    let commitment := api.commitment filter
    match currentTail commitment with
    | none =>
      { client with state := { client.state with commitment := commitment }, accepted := none }
    | some head =>
      { client with
        state :=
          { client.state with commitment := commitment, head := head, filter := some filter }
        accepted := some ⟨filter, head, dataOf client.state.messages, client.state.filter.isNone⟩
        yielded := [] }

/-- What the stream and the request task do to a client, where the rings are at
`tail`. A task that serves no more, or whose request stream has ended, drops its
handle. -/
inductive Step (api : FilterApi F) (tail : CommitmentLevel → ℕ) (client : Subscriber F) :
    Subscriber F → Prop where
  | poll (waker : ℕ) (kept : client.stream = true) : Step api tail client (client.pollNext waker)
  | pong (data : Bytes) (serves : client.serving = true) :
      Step api tail client (client.push ⟨data, true⟩)
  | request (newFilter : Except Status F) (fromSlot : Option Slot)
      (slots : CommitmentLevel → SlotHeads) (serves : client.serving = true) :
      Step api tail client
        (client.request api newFilter fun level => currentTail (tail level) (slots level) fromSlot)
  | shutdown (serves : client.serving = true) :
      Step api tail client { client.fail ⟨.internal, "shutdown"⟩ with serving := false }
  | dropTask (kept : client.task = true) :
      Step api tail client { client.dropHandle with task := false, serving := false }
  | dropStream (kept : client.stream = true) :
      Step api tail client { client.dropHandle with stream := false }

end Subscriber

-- ════════════════════════════════════════════════════════════════════════
-- Queued messages and their total length
-- ════════════════════════════════════════════════════════════════════════

section

variable {F : Type} {api : FilterApi F} {state : SubscribeClientState F} {message : Queued}

@[simp] theorem dataOf_append (messages messages' : List Queued) :
    dataOf (messages ++ messages') = dataOf messages ++ dataOf messages' := by
  simp [dataOf]

@[simp] theorem dataOf_ping (data : Bytes) : dataOf [⟨data, true⟩] = [] := rfl

@[simp] theorem itemsOk_append (items items' : List (Except Status Queued)) :
    itemsOk (items ++ items') = itemsOk items ++ itemsOk items' :=
  List.filterMap_append

@[simp] theorem itemsOk_error (error : Status) : itemsOk [.error error] = [] := rfl

@[simp] theorem itemsOk_ok (message : Queued) : itemsOk [.ok message] = [message] := rfl

/-- The updates a filter makes of messages, one after the other. -/
def FilterApi.updates (api : FilterApi F) (filter : F) (messages : List ParsedMessage) :
    List Bytes :=
  messages.flatMap fun message => api.getUpdates filter message (api.commitment filter)

theorem FilterApi.updates_concat (filter : F) (messages : List ParsedMessage)
    (message : ParsedMessage) : api.updates filter (messages ++ [message]) =
      api.updates filter messages ++ api.getUpdates filter message (api.commitment filter) := by
  simp [updates]

namespace SubscribeClientState

/-- The total is that of the queued messages. -/
def Total (state : SubscribeClientState F) : Prop :=
  state.messagesLenTotal = (state.messages.map fun message => message.data.length).sum

theorem Total.pushMessage (h : state.Total) : (state.pushMessage message).Total := by
  simp only [Total, SubscribeClientState.pushMessage, List.map_append, List.sum_append] at h ⊢
  simp [h]

theorem Total.popMessage (h : state.Total) (waker : ℕ) : (state.popMessage waker).2.Total := by
  rw [SubscribeClientState.popMessage]
  split
  · exact h
  · split
    · rename_i message messages hmessages
      simp only [Total, hmessages, List.map_cons, List.sum_cons] at h ⊢
      omega
    · exact h

/-- Pushing updates changes the queue and its total only. -/
structure Pushed (state state' : SubscribeClientState F) (datas : List Bytes) : Prop where
  commitment : state'.commitment = state.commitment
  head : state'.head = state.head
  filter : state'.filter = state.filter
  messages : dataOf state'.messages = dataOf state.messages ++ datas
  total : state.Total → state'.Total

theorem pushAll (datas : List Bytes) (state : SubscribeClientState F) :
    Pushed state (datas.foldl (fun state data => state.pushMessage ⟨data, false⟩) state) datas := by
  induction datas generalizing state with
  | nil => exact ⟨rfl, rfl, rfl, (List.append_nil _).symm, id⟩
  | cons data datas ih =>
    obtain ⟨hc, hh, hf, hm, ht⟩ := ih (state.pushMessage ⟨data, false⟩)
    refine ⟨hc, hh, hf, ?_, fun h => ht h.pushMessage⟩
    rw [List.foldl_cons, hm, SubscribeClientState.pushMessage, dataOf_append, List.append_assoc]
    rfl

theorem deliver_none (hf : state.filter = none) (found : ParsedMessage) :
    state.deliver api found = { state with head := state.head + 1 } := by
  rw [SubscribeClientState.deliver, hf]

theorem deliver_some {filter : F} (hf : state.filter = some filter) (found : ParsedMessage) :
    Pushed { state with head := state.head + 1 } (state.deliver api found)
      (api.getUpdates filter found state.commitment) := by
  simp only [SubscribeClientState.deliver, hf]
  exact pushAll _ _

theorem Total.deliver (h : state.Total) (found : ParsedMessage) :
    (state.deliver api found).Total := by
  cases hf : state.filter with
  | none =>
    rw [deliver_none hf]
    exact h
  | some filter => exact (deliver_some hf found).total h

end SubscribeClientState

-- ════════════════════════════════════════════════════════════════════════
-- What holds of a client at any time
-- ════════════════════════════════════════════════════════════════════════

namespace Subscriber

variable {client client' : Subscriber F} {tail : CommitmentLevel → ℕ} {N : ℕ}
  {rings rings' : CommitmentLevel → Ring}

/-- The total is right, and an error is the last item the stream yields. -/
structure Kept (client : Subscriber F) : Prop where
  total : client.state.Total
  unfinished : client.finished = false → ∀ item ∈ client.yielded, item.toOption.isSome
  last : ∀ item ∈ client.yielded.dropLast, item.toOption.isSome

theorem Kept.new (messagesLenMax : ℕ) : (new messagesLenMax : Subscriber F).Kept :=
  ⟨rfl, fun _ _ h => (nomatch h), fun _ h => (nomatch h)⟩

theorem Kept.push (h : client.Kept) : (client.push message).Kept :=
  ⟨h.total.pushMessage, h.unfinished, h.last⟩

theorem Kept.sendPing (h : client.Kept) (ping : Option Bytes) : (client.sendPing ping).Kept := by
  cases ping with
  | none => exact h
  | some data =>
    rw [Subscriber.sendPing]
    split
    · exact h
    · exact h.push

theorem Kept.deliver (h : client.Kept) (found : ParsedMessage) : (client.deliver api found).Kept :=
  ⟨h.total.deliver found, h.unfinished, h.last⟩

theorem Kept.pollNext (h : client.Kept) (waker : ℕ) : (client.pollNext waker).Kept := by
  have htotal := h.total.popMessage waker
  rw [Subscriber.pollNext]
  split
  · exact h
  · rename_i hfinished
    have hok := h.unfinished (Bool.not_eq_true _ ▸ hfinished)
    split
    · rename_i item state heq
      rw [heq] at htotal
      refine ⟨htotal, fun hf found hmem => ?_, fun found hmem => ?_⟩
      · rcases List.mem_append.mp hmem with hmem | hmem
        · exact hok found hmem
        · rw [List.mem_singleton.mp hmem]
          simpa using hf
      · rw [List.dropLast_concat] at hmem
        exact hok found hmem
    · rename_i state heq
      rw [heq] at htotal
      exact ⟨htotal, h.unfinished, h.last⟩

theorem Kept.request (h : client.Kept) (newFilter : Except Status F)
    (currentTail : CommitmentLevel → Option ℕ) :
    (client.request api newFilter currentTail).Kept := by
  cases newFilter with
  | error error => exact ⟨h.total, h.unfinished, h.last⟩
  | ok filter =>
    simp only [Subscriber.request]
    split
    · exact ⟨h.total, h.unfinished, h.last⟩
    · exact ⟨h.total, fun _ _ hmem => (nomatch hmem), fun _ hmem => (nomatch hmem)⟩

theorem Step.kept (hs : Step api tail client client') (h : client.Kept) : client'.Kept := by
  cases hs with
  | poll waker => exact h.pollNext waker
  | pong data => exact h.push
  | request newFilter fromSlot slots => exact h.request newFilter _
  | shutdown => exact ⟨h.total, h.unfinished, h.last⟩
  | dropTask => exact ⟨h.total, h.unfinished, h.last⟩
  | dropStream => exact ⟨h.total, h.unfinished, h.last⟩

-- ════════════════════════════════════════════════════════════════════════
-- What a client has been given since its request was accepted
-- ════════════════════════════════════════════════════════════════════════

/-- The data given to a client since its request was accepted: yielded or queued. -/
def data (client : Subscriber F) : List Bytes :=
  dataOf (itemsOk client.yielded) ++ dataOf client.state.messages

/-- The client has been given what was queued and the updates of the messages from
the position of its request up to its head. -/
structure Given (N : ℕ) (ring : Ring) (api : FilterApi F) (client : Subscriber F)
    (accepted : Accepted F) (messages : List ParsedMessage) : Prop where
  first : accepted.first = true → accepted.queued = []
  filter : client.state.filter = some accepted.filter
  commitment : client.state.commitment = api.commitment accepted.filter
  head : client.state.head = accepted.head + messages.length
  from_ : MessagesFrom N ring accepted.head messages
  data : client.data = accepted.queued ++ api.updates accepted.filter messages

/-- The request in force has been served up to the head; without a filter there are
no data. -/
structure Served (N : ℕ) (rings : CommitmentLevel → Ring) (api : FilterApi F)
    (client : Subscriber F) : Prop where
  unfiltered : client.state.filter = none → client.data = []
  given : ∀ accepted, client.accepted = some accepted →
    ∃ messages, Given N (rings (api.commitment accepted.filter)) api client accepted messages

theorem Served.new (messagesLenMax : ℕ) : (new messagesLenMax).Served N rings api :=
  ⟨fun _ => rfl, fun _ h => (nomatch h)⟩

/-- What the request is served from and what has been given of it. -/
structure Same (client client' : Subscriber F) : Prop where
  accepted : client'.accepted = client.accepted
  filter : client'.state.filter = client.state.filter
  commitment : client'.state.commitment = client.state.commitment
  head : client'.state.head = client.state.head
  data : client'.data = client.data

theorem Served.same (h : client.Served N rings api) (hs : Same client client') :
    client'.Served N rings api := by
  refine ⟨fun hf => hs.data.trans (h.unfiltered (hs.filter.symm.trans hf)), fun accepted ha => ?_⟩
  obtain ⟨messages, hg⟩ := h.given accepted (hs.accepted ▸ ha)
  exact ⟨messages, hg.first, hs.filter.trans hg.filter, hs.commitment.trans hg.commitment,
    hs.head.trans hg.head, hg.from_, hs.data.trans hg.data⟩

theorem Served.step (h : client.Served N rings api)
    (hs : ∀ level, rings' level = rings level ∨ (rings level).Step (rings' level)) :
    client.Served N rings' api := by
  refine ⟨h.unfiltered, fun accepted ha => ?_⟩
  obtain ⟨messages, hg⟩ := h.given accepted ha
  rcases hs (api.commitment accepted.filter) with heq | hstep
  · exact ⟨messages, heq ▸ hg⟩
  · exact ⟨messages, hg.first, hg.filter, hg.commitment, hg.head, hg.from_.step hstep, hg.data⟩

theorem same_ping (data : Bytes) : Same client (client.push ⟨data, true⟩) := by
  refine ⟨rfl, rfl, rfl, rfl, ?_⟩
  simp [Subscriber.data, push, SubscribeClientState.pushMessage]

theorem same_sendPing (ping : Option Bytes) : Same client (client.sendPing ping) := by
  cases ping with
  | none => exact ⟨rfl, rfl, rfl, rfl, rfl⟩
  | some data =>
    rw [sendPing]
    split
    · exact ⟨rfl, rfl, rfl, rfl, rfl⟩
    · exact same_ping data

/-- A message moves from the queue to the stream. -/
theorem same_pollNext (waker : ℕ) : Same client (client.pollNext waker) := by
  rw [pollNext]
  split
  · exact ⟨rfl, rfl, rfl, rfl, rfl⟩
  · rw [SubscribeClientState.popMessage]
    cases client.state.messagesError with
    | some error => exact ⟨rfl, rfl, rfl, rfl, by simp [Subscriber.data]⟩
    | none =>
      cases hmessages : client.state.messages with
      | nil => exact ⟨rfl, rfl, rfl, rfl, by simp [Subscriber.data, hmessages]⟩
      | cons message messages =>
        refine ⟨rfl, rfl, rfl, rfl, ?_⟩
        have hcons : message :: messages = [message] ++ messages := rfl
        simp only [Subscriber.data, hmessages, hcons, itemsOk_append, itemsOk_ok, dataOf_append,
          List.append_assoc]

theorem Served.request (h : client.Served N rings api) (newFilter : Except Status F)
    (currentTail : CommitmentLevel → Option ℕ) :
    (client.request api newFilter currentTail).Served N rings api := by
  cases newFilter with
  | error error => exact h.same ⟨rfl, rfl, rfl, rfl, rfl⟩
  | ok filter =>
    simp only [Subscriber.request]
    split
    · exact ⟨h.unfiltered, fun _ ha => (nomatch ha)⟩
    · refine ⟨fun hf => (nomatch hf), fun accepted ha => ?_⟩
      obtain rfl := Option.some.inj ha
      refine ⟨[], fun hfirst => ?_, rfl, rfl, rfl, fun i message hi => by simp at hi, ?_⟩
      · exact (List.append_eq_nil_iff.mp (h.unfiltered (Option.isNone_iff_eq_none.mp hfirst))).2
      · simp [Subscriber.data, FilterApi.updates, itemsOk, dataOf]

theorem Step.served (hs : Step api tail client client') (h : client.Served N rings api) :
    client'.Served N rings api := by
  cases hs with
  | poll waker => exact h.same (same_pollNext waker)
  | pong data => exact h.same (same_ping data)
  | request newFilter fromSlot slots => exact h.request newFilter _
  | shutdown => exact h.same ⟨rfl, rfl, rfl, rfl, rfl⟩
  | dropTask => exact h.same ⟨rfl, rfl, rfl, rfl, rfl⟩
  | dropStream => exact h.same ⟨rfl, rfl, rfl, rfl, rfl⟩

/-- The message at the head is delivered. -/
theorem Served.deliver (h : client.Served N rings api) {found : ParsedMessage}
    (hm : messageAt N (rings client.state.commitment) client.state.head = some found) :
    (client.deliver api found).Served N rings api := by
  cases hfilter : client.state.filter with
  | none =>
    have hstate : client.state.deliver api found =
        { client.state with head := client.state.head + 1 } :=
      SubscribeClientState.deliver_none hfilter found
    refine ⟨fun _ => ?_, fun accepted ha => ?_⟩
    · rw [Subscriber.data, Subscriber.deliver, hstate]
      exact h.unfiltered hfilter
    · obtain ⟨messages, hg⟩ := h.given accepted ha
      exact absurd (hfilter.symm.trans hg.filter) fun hf => (nomatch hf)
  | some filter =>
    have hpushed : SubscribeClientState.Pushed { client.state with head := client.state.head + 1 }
        (client.state.deliver api found) (api.getUpdates filter found client.state.commitment) :=
      SubscribeClientState.deliver_some hfilter found
    obtain ⟨hcommitment, hhead, hf, hmessages, -⟩ := hpushed
    refine ⟨fun hnone => ?_, fun accepted ha => ?_⟩
    · exact absurd ((hf.trans hfilter).symm.trans hnone) fun h => (nomatch h)
    · obtain ⟨messages, hg⟩ := h.given accepted ha
      obtain rfl : filter = accepted.filter := Option.some.inj (hfilter.symm.trans hg.filter)
      rw [hg.commitment, hg.head] at hm
      refine ⟨messages ++ [found], hg.first, hf.trans hfilter, hcommitment.trans hg.commitment, ?_,
        hg.from_.concat hm, ?_⟩
      · rw [Subscriber.deliver, hhead, hg.head, List.length_append]
        rfl
      · have hdata := hg.data
        rw [Subscriber.data] at hdata ⊢
        rw [Subscriber.deliver, hmessages, api.updates_concat, ← List.append_assoc,
          ← List.append_assoc, ← hdata, hg.commitment]

end Subscriber

end

end Dragonmouth.Grpc
