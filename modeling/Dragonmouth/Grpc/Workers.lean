import Mathlib.Logic.Relation
import Dragonmouth.Grpc.Client

/-!
# The workers of the gRPC server

Clients wait in a queue. A worker takes the first, locks it, pushes a ping if it
is time, hands it a bounded number of messages, and puts it back at the end of
the queue; a client whose reading failed is not put back. Any number of workers
do so while the rings are written and clients send requests and poll their
streams. The steps of a worker are the points where it looks at something others
change: the queue, a lock, the tail and the cells of a ring.

The three rings are written independently of each other, and any worker may
notice the shutdown at any time; the source allows fewer runs.

## Main definitions

- `Stage`, `Worker`: a thread that runs `worker_messages`
- `Server`: the rings, the clients, the queue and the workers
- `Server.Step`, `Server.Reachable`: the runs of the server
-/

namespace Dragonmouth.Grpc

open Richat

structure ConfigAppsGrpc where
  messagesLenMax : ℕ
  messagesMaxPerTick : ℕ
  messagesCachedMax : ℕ

/-- Where a worker is. -/
inductive Stage where
  | idle
  /-- about to lock the client it has taken -/
  | popped (k : ℕ)
  /-- in the loop over messages, after `count` of them -/
  | ticking (k count : ℕ)
  /-- in `try_recv` of the ring -/
  | receiving (k count : ℕ) (reader : Reader)
  /-- about to put the client back -/
  | leaving (k : ℕ)
  /-- about to drop the client -/
  | dropping (k : ℕ)
  | stopped

namespace Stage

/-- The client a worker has taken. -/
def holds : Stage → Option ℕ
  | popped k | ticking k _ | receiving k _ _ | leaving k | dropping k => some k
  | idle | stopped => none

/-- The client a worker has locked between two steps. -/
def locks : Stage → Option ℕ
  | ticking k _ | receiving k _ _ => some k
  | _ => none

end Stage

/-- The local variables of `worker_messages`. -/
structure Worker where
  stage : Stage
  /-- the shutdown has been noticed -/
  draining : Bool
  caches : CommitmentLevel → MessagesCache

def Worker.new (config : ConfigAppsGrpc) : Worker where
  stage := .idle
  draining := false
  caches := fun _ => .new config.messagesCachedMax.nextPowerOfTwo

structure Server (F : Type) where
  rings : CommitmentLevel → Ring
  clients : ℕ → Option (Subscriber F)
  /-- `subscribe_id` -/
  nextId : ℕ
  /-- `subscribe_clients` -/
  deque : List ℕ
  workers : ℕ → Worker

namespace Server

variable {F : Type}

/-- A server without clients; the rings have `N` cells. -/
def new (config : ConfigAppsGrpc) (N : ℕ) : Server F where
  rings := fun _ => .new N
  clients := fun _ => none
  nextId := 0
  deque := []
  workers := fun _ => .new config

/-- No worker has locked the client. -/
def Free (server : Server F) (k : ℕ) : Prop := ∀ w, (server.workers w).stage.locks ≠ some k

def setClient (server : Server F) (k : ℕ) (client : Subscriber F) : Server F :=
  { server with clients := Function.update server.clients k (some client) }

def setStage (server : Server F) (w : ℕ) (stage : Stage) : Server F :=
  { server with
    workers := Function.update server.workers w { server.workers w with stage := stage } }

def setCache (server : Server F) (w : ℕ) (level : CommitmentLevel) (cache : MessagesCache) :
    Server F :=
  { server with
    workers := Function.update server.workers w
      { server.workers w with caches := Function.update (server.workers w).caches level cache } }

def cache (server : Server F) (w : ℕ) (level : CommitmentLevel) : MessagesCache :=
  (server.workers w).caches level

def subscribe (server : Server F) (config : ConfigAppsGrpc) : Server F :=
  { server.setClient server.nextId (.new config.messagesLenMax) with
    nextId := server.nextId + 1
    deque := server.deque ++ [server.nextId] }

def pop (server : Server F) (w k : ℕ) (deque : List ℕ) : Server F :=
  { server.setStage w (if (server.workers w).draining then .dropping k else .popped k) with
    deque := deque }

/-- The beginning of an iteration, up to the loop over messages. `ping` is the
ping to send, if it is time. -/
def lock (server : Server F) (w k : ℕ) (client : Subscriber F) (ping : Option Bytes) :
    Server F :=
  if client.state.refCount = 1 then server.setStage w (.dropping k)
  else
    let client := client.sendPing ping
    (server.setClient k client).setStage w
      (if client.state.filter.isNone then .leaving k else .ticking k 0)

/-- A message has been received. -/
def accept (server : Server F) (api : FilterApi F) (w k count : ℕ) (client : Subscriber F)
    (message : ParsedMessage) : Server F :=
  (server.setClient k (client.deliver api message)).setStage w (.ticking k (count + 1))

/-- The loop over messages, up to the ring. -/
def tick (server : Server F) (api : FilterApi F) (config : ConfigAppsGrpc) (w k count : ℕ)
    (client : Subscriber F) : Server F :=
  if client.state.isFull = false ∧ count < config.messagesMaxPerTick then
    let level := client.state.commitment
    let cache := (server.cache w level).touch client.state.head
    let server := server.setCache w level cache
    match cache.cached client.state.head with
    | some (some message) => server.accept api w k count client message
    | some none => server.setStage w (.leaving k)
    | none => server.setStage w (.receiving k count (.loading client.state.head))
  else server.setStage w (.leaving k)

/-- The loop over messages, from the answer of the ring on. -/
def received (server : Server F) (api : FilterApi F) (w k count : ℕ) (client : Subscriber F)
    (head : ℕ) : Recv → Server F
  | .ok (some message) =>
    let level := client.state.commitment
    (server.setCache w level ((server.cache w level).save head message)).accept api w k count
      client message
  | .ok none => server.setStage w (.leaving k)
  | .error error =>
    (server.setClient k (client.fail (.ofRecvError error))).setStage w (.dropping k)

/-- The client is put back. -/
def pushClient (server : Server F) (w k : ℕ) : Server F :=
  { server.setStage w .idle with deque := server.deque ++ [k] }

/-- One step of a worker. -/
inductive WorkerStep (api : FilterApi F) (config : ConfigAppsGrpc) (server : Server F) (w : ℕ) :
    Server F → Prop where
  | pop (k : ℕ) (deque : List ℕ) (idle : (server.workers w).stage = .idle)
      (first : server.deque = k :: deque) : WorkerStep api config server w (server.pop w k deque)
  | drain (idle : (server.workers w).stage = .idle) :
      WorkerStep api config server w
        { server with
          workers := Function.update server.workers w
            { server.workers w with draining := true } }
  | stop (idle : (server.workers w).stage = .idle) (drains : (server.workers w).draining = true)
      (nobody : server.deque = []) : WorkerStep api config server w (server.setStage w .stopped)
  | lock (k : ℕ) (client : Subscriber F) (ping : Option Bytes)
      (taken : (server.workers w).stage = .popped k) (is : server.clients k = some client)
      (free : server.Free k) : WorkerStep api config server w (server.lock w k client ping)
  | tick (k count : ℕ) (client : Subscriber F)
      (ticks : (server.workers w).stage = .ticking k count) (is : server.clients k = some client) :
      WorkerStep api config server w (server.tick api config w k count client)
  | load (k count head : ℕ) (client : Subscriber F)
      (loads : (server.workers w).stage = .receiving k count (.loading head))
      (is : server.clients k = some client) :
      WorkerStep api config server w
        (server.setStage w (.receiving k count (.load head (server.rings client.state.commitment))))
  | read (k count head tail loadedAt : ℕ) (client : Subscriber F)
      (reads : (server.workers w).stage = .receiving k count (.reading head tail loadedAt))
      (is : server.clients k = some client) :
      WorkerStep api config server w
        (server.setStage w (.receiving k count
          (.read head tail loadedAt (server.rings client.state.commitment))))
  | received (k count head tail loadedAt : ℕ) (result : Recv) (client : Subscriber F)
      (returned : (server.workers w).stage = .receiving k count (.done head tail loadedAt result))
      (is : server.clients k = some client) :
      WorkerStep api config server w (server.received api w k count client head result)
  | leave (k : ℕ) (leaves : (server.workers w).stage = .leaving k) :
      WorkerStep api config server w (server.pushClient w k)
  | drop (k : ℕ) (client : Subscriber F) (drops : (server.workers w).stage = .dropping k)
      (is : server.clients k = some client) (free : server.Free k) :
      WorkerStep api config server w ((server.setClient k client.dropHandle).setStage w .idle)

/-- One step of the server. -/
inductive Step (api : FilterApi F) (config : ConfigAppsGrpc) (server : Server F) :
    Server F → Prop where
  | ring (level : CommitmentLevel) (ring : Ring) (step : (server.rings level).Step ring) :
      Step api config server { server with rings := Function.update server.rings level ring }
  | subscribe : Step api config server (server.subscribe config)
  | client (k : ℕ) (client client' : Subscriber F) (is : server.clients k = some client)
      (free : server.Free k)
      (step : client.Step api (fun level => (server.rings level).view.tail) client') :
      Step api config server (server.setClient k client')
  | worker (w : ℕ) (server' : Server F) (step : server.WorkerStep api config w server') :
      Step api config server server'

def Reachable (api : FilterApi F) (config : ConfigAppsGrpc) (N : ℕ) (server : Server F) : Prop :=
  Relation.ReflTransGen (Step api config) (new config N) server

end Server

end Dragonmouth.Grpc
