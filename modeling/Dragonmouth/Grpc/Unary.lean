import Mathlib.Logic.Relation
import Dragonmouth.Filters.Parse
import Dragonmouth.Grpc.BlockMeta
import Dragonmouth.Grpc.MessagesCache

/-!
# Unary requests

One thread reads the ring of processed messages and passes statuses and block metas on
to a task, which keeps what it needs to answer requests. The messages wait in a channel
without a bound and the requests in one with a bound. The task polls the messages first,
and the requests only if it has found no message; another message may be passed on, and
another call begin, between the two polls. Calls come and go at any time; a call that is
given up leaves its request in the channel.

A request and its answer are kept in the channel as the method and the commitment level
of the call.

## Main definitions

- `UnaryMethod`, `UnaryRequest`, `UnaryResponse`: the methods
- `parseCommitment`, `Work.answer`: what a method checks and what it answers
- `UnaryServer`, `UnaryServer.Step`: the thread, the task and the calls
- `UnaryServer.poll`: what the task does, one poll of a channel at a time
-/

namespace Dragonmouth.Grpc

open Richat (ParsedMessage Reader Recv Ring)
open Proto (CommitmentLevel)

/-- The codes of the statuses of unary calls. -/
inductive UnaryCode where
  | unknown
  | unimplemented
  | resourceExhausted
  | aborted
  deriving DecidableEq

structure UnaryStatus where
  code : UnaryCode
  message : String
  deriving DecidableEq

inductive UnaryMethod where
  | getLatestBlockhash
  | getBlockHeight
  | getSlot
  | isBlockhashValid (blockhash : String)
  deriving DecidableEq

structure UnaryRequest where
  method : UnaryMethod
  commitment : Option ℤ
  deriving DecidableEq

inductive UnaryResponse where
  | latestBlockhash (slot : Slot) (blockhash : String) (lastValidBlockHeight : ℕ)
  | blockHeight (blockHeight : ℕ)
  | slot (slot : Slot)
  | blockhashValid (valid : Bool) (slot : Slot)
  deriving DecidableEq

/-- A channel of size zero cannot be made, so that a server with one does not start. Here it
refuses every call. -/
structure ConfigAppsGrpcUnary where
  enabled : Bool
  requestsQueueSize : ℕ

def parseCommitment (commitment : Option ℤ) : Except UnaryStatus CommitmentLevel :=
  let commitment := commitment.getD CommitmentLevel.processed.toInt32
  match CommitmentLevel.ofInt32 commitment with
  | none => .error ⟨.unknown, "failed to create CommitmentLevel from " ++ toString commitment⟩
  | some level =>
    if level = .processed ∨ level = .confirmed ∨ level = .finalized then .ok level
    else .error ⟨.unknown, "only Processed, Confirmed and Finalized are allowed"⟩

/-- What the task and the method make of a request. -/
def Work.answer (w : Work) (level : CommitmentLevel) : UnaryMethod → Option UnaryResponse
  | .getLatestBlockhash => (w.getBlock level).map fun block =>
    .latestBlockhash block.slot block.blockhash ((block.blockHeight + maxProcessingAge) % 2 ^ 64)
  | .getBlockHeight => (w.getBlock level).map fun block => .blockHeight block.blockHeight
  | .getSlot => (w.getBlock level).map fun block => .slot block.slot
  | .isBlockhashValid blockhash =>
    (w.isBlockhashValid blockhash level).map fun (valid, slot) => .blockhashValid valid slot

/-- The end of `send_request`. -/
def Work.respond (w : Work) (method : UnaryMethod) (level : CommitmentLevel) :
    Except UnaryStatus UnaryResponse :=
  (w.answer level method).elim (.error ⟨.aborted, "failed to get result"⟩) .ok

/-- The messages `worker_block_meta` passes on. -/
def isMetaInput : ParsedMessage → Bool
  | .slot _ | .blockMeta _ => true
  | _ => false

/-- Where `worker_block_meta` is. -/
inductive MetaWorker where
  | starting
  | receiving (reader : Reader)
  | stopped

/-- The channel the task polls next: `select!` is biased. -/
inductive MetaPoll where
  | messages
  | requests
  deriving DecidableEq

/-- A call of a method. The rest is history, of the moment when it began: how many
messages had been passed on and how many of them handled, how many requests were in the
channel, and what the task was about to poll. -/
structure UnaryCall where
  request : UnaryRequest
  pushed : ℕ
  handled : ℕ
  queued : ℕ
  polls : MetaPoll
  result : Option (Except UnaryStatus UnaryResponse)

structure UnaryQueued where
  id : ℕ
  method : UnaryMethod
  level : CommitmentLevel

/-- `received` and `handled` are history: what the thread has read since it started at
`start`, and what the task has taken from its channel. -/
structure UnaryServer where
  ring : Ring
  worker : MetaWorker
  start : ℕ
  received : List ParsedMessage
  /-- `messages_tx` -/
  messages : List ParsedMessage
  polls : MetaPoll
  handled : List ParsedMessage
  work : Work
  /-- `requests_tx` -/
  requests : List UnaryQueued
  calls : ℕ → Option UnaryCall
  nextId : ℕ

namespace UnaryServer

/-- A server over a ring of `N` cells. -/
def new (N : ℕ) : UnaryServer where
  ring := .new N
  worker := .starting
  start := 0
  received := []
  messages := []
  polls := .messages
  handled := []
  work := .new
  requests := []
  calls := fun _ => none
  nextId := 0

/-- How many messages have been passed on. -/
def pushed (server : UnaryServer) : ℕ := server.handled.length + server.messages.length

/-- What `worker_block_meta` does with the answer of the ring. -/
def receive (server : UnaryServer) (head : ℕ) : Recv → UnaryServer
  | .ok (some message) =>
    { server with
      worker := .receiving (.loading (head + 1))
      received := server.received ++ [message]
      messages := if isMetaInput message then server.messages ++ [message] else server.messages }
  | .ok none => { server with worker := .receiving (.loading head) }
  | .error _ => { server with worker := .stopped }

/-- A call that begins now. -/
def callOf (server : UnaryServer) (request : UnaryRequest)
    (result : Option (Except UnaryStatus UnaryResponse)) : UnaryCall where
  request := request
  pushed := server.pushed
  handled := server.handled.length
  queued := server.requests.length
  polls := server.polls
  result := result

/-- A call that returns at once or waits. -/
def begin (server : UnaryServer) (request : UnaryRequest)
    (result : Option (Except UnaryStatus UnaryResponse)) : UnaryServer :=
  { server with
    calls := Function.update server.calls server.nextId (some (server.callOf request result))
    nextId := server.nextId + 1 }

/-- A method up to the point where it waits for the task. -/
def call (server : UnaryServer) (config : ConfigAppsGrpcUnary) (request : UnaryRequest) :
    UnaryServer :=
  match parseCommitment request.commitment with
  | .error status => server.begin request (some (.error status))
  | .ok level =>
    if config.enabled = false then
      server.begin request (some (.error ⟨.unimplemented, "method disabled"⟩))
    else if config.requestsQueueSize ≤ server.requests.length then
      server.begin request (some (.error ⟨.resourceExhausted, "queue channel is full"⟩))
    else
      { server.begin request none with
        requests := server.requests ++ [⟨server.nextId, request.method, level⟩] }

/-- The task answers a request and starts its loop again. Nobody may be waiting for the
answer any more. -/
def reply (server : UnaryServer) (queued : UnaryQueued) (requests : List UnaryQueued) :
    UnaryServer :=
  { server with
    polls := .messages
    requests := requests
    calls := Function.update server.calls queued.id
      ((server.calls queued.id).map fun call =>
        { call with result := some (server.work.respond queued.method queued.level) }) }

/-- `BlockMetaStorage::work`, one poll of a channel. Where both channels have been found
empty, the task is polled again when there is something, from the messages on. -/
def poll (server : UnaryServer) : UnaryServer :=
  match server.polls with
  | .messages =>
    match server.messages with
    | message :: messages =>
      { server with
        messages := messages
        handled := server.handled ++ [message]
        work := server.work.process message }
    | [] => { server with polls := .requests }
  | .requests =>
    match server.requests with
    | queued :: requests => server.reply queued requests
    | [] => { server with polls := .messages }

/-- One step. The thread may notice the shutdown whenever it is about to read. -/
inductive Step (config : ConfigAppsGrpcUnary) (server : UnaryServer) : UnaryServer → Prop where
  | write (ring : Ring) (step : server.ring.Step ring) :
      Step config server { server with ring := ring }
  | start (enabled : config.enabled = true) (starts : server.worker = .starting) :
      Step config server
        { server with
          worker := .receiving (.loading server.ring.view.tail)
          start := server.ring.view.tail }
  | load (head : ℕ) (loads : server.worker = .receiving (.loading head)) :
      Step config server { server with worker := .receiving (.load head server.ring) }
  | read (head tail loadedAt : ℕ)
      (reads : server.worker = .receiving (.reading head tail loadedAt)) :
      Step config server
        { server with worker := .receiving (.read head tail loadedAt server.ring) }
  | receive (head tail loadedAt : ℕ) (result : Recv)
      (returned : server.worker = .receiving (.done head tail loadedAt result)) :
      Step config server (server.receive head result)
  | stop (head : ℕ) (loads : server.worker = .receiving (.loading head)) :
      Step config server { server with worker := .stopped }
  | poll : Step config server server.poll
  | call (request : UnaryRequest) : Step config server (server.call config request)
  | cancel (id : ℕ) (call : UnaryCall) (is : server.calls id = some call)
      (waits : call.result = none) :
      Step config server { server with calls := Function.update server.calls id none }

def Reachable (config : ConfigAppsGrpcUnary) (N : ℕ) (server : UnaryServer) : Prop :=
  Relation.ReflTransGen (Step config) (new N) server

end UnaryServer

end Dragonmouth.Grpc
