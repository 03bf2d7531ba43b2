import Dragonmouth.Plugin.ChannelPush

/-!
# Subscribers at work while messages are pushed

The channel with all its threads. A push holds the mutex and writes one locked
cell after the other; `close` marks one cell after the other; a poll of a
receiver reads a cell, and if the position is not its own it takes the mutex and
reads the cell again. Every step touches one cell or the mutex.

A push computes its outcome from the state it finds under the mutex; the writes
of that outcome are then carried out one by one. No other thread changes the
state or the positions and the data of the cells in between.

## Main definitions

- `Client`: a receiver and the place its poll has reached
- `System`: the channel, the holder of the mutex, closers and clients
- `Step`, `Reachable`: the interleavings
-/

namespace Dragonmouth.Plugin

inductive RecvError where
  | lagged
  | closed
  deriving DecidableEq

/-- An item of a stream. -/
abbrev Yield := Except RecvError RecvItem

/-- Messages of this kind are not skipped. -/
def Receiver.enabled (receiver : Receiver) : PluginNotification → Bool
  | .account => receiver.enableNotificationsAccounts
  | .transaction => receiver.enableNotificationsTransactions
  | .entry => receiver.enableNotificationsEntries
  | _ => true

/-- The end of an iteration of `recv_ref`, with the item of the next position;
without a result the loop goes on. -/
def Receiver.takeItem (receiver : Receiver) (item : Item) : Receiver × Option Yield :=
  let receiver := { receiver with next := receiver.next + 1 }
  match item.data with
  | none => (receiver, some (.error .lagged))
  | some (pluginNotification, data) =>
    (receiver, if receiver.enabled pluginNotification then some (.ok data) else none)

/-- Where a poll of a receiver is. -/
inductive Pc where
  /-- no poll is going on -/
  | idle
  /-- about to read the item of the next position -/
  | reading
  /-- about to acquire the state -/
  | locking
  /-- holding the state, about to read the item again -/
  | locked
  deriving DecidableEq

/-- A receiver. The last three fields are history variables: the position it was
created at, the items its stream has yielded, and how many messages had been
pushed when its last poll returned `Pending`. -/
structure Client where
  receiver : Receiver
  pc : Pc
  /-- the last poll returned `Pending` and its waker has not been woken since -/
  waiting : Bool
  start : ℕ
  yielded : List Yield
  pendingAt : Option ℕ

namespace Client

/-- A new stream. -/
def new (receiver : Receiver) : Client :=
  { receiver := receiver, pc := .idle, waiting := false, start := receiver.next, yielded := []
    pendingAt := none }

/-- `poll_next` begins; a finished stream returns `Ready(None)` at once. -/
def poll (c : Client) : Client :=
  if c.receiver.finished then c
  else { c with pc := .reading, waiting := false, pendingAt := none }

/-- `poll_next` returns `Ready(Some(y))`. -/
def ready (c : Client) (y : Yield) : Client :=
  let c := { c with pc := .idle, yielded := c.yielded ++ [y] }
  match y with
  | .ok _ => c
  | .error _ => { c with receiver := { c.receiver with finished := true } }

/-- `poll_next` returns `Pending`. -/
def pending (c : Client) (pushed : ℕ) : Client :=
  { c with pc := .idle, waiting := true, pendingAt := some pushed }

/-- Take the item of the next position. -/
def take (c : Client) (item : Item) : Client :=
  match c.receiver.takeItem item with
  | (receiver, some y) => { c with receiver := receiver }.ready y
  | (receiver, none) => { c with receiver := receiver, pc := .reading }

/-- Read the item of the next position. -/
def read (c : Client) (item : Item) : Client :=
  if item.closed then c.ready (.error .closed)
  else if item.pos ≠ c.receiver.next then { c with pc := .locking }
  else c.take item

/-- The waker is stored: the position did not change and is not written yet. -/
def parks (c : Client) (item : Item) : Bool := !item.closed && item.pos < c.receiver.next

/-- Make sure under the lock that the position did not change. -/
def recheck (c : Client) (item : Item) (pushed : ℕ) : Client :=
  if item.closed then c.ready (.error .closed)
  else if item.pos ≠ c.receiver.next then
    if item.pos < c.receiver.next then c.pending pushed else c.ready (.error .lagged)
  else c.take item

end Client

/-- The channel an outcome leaves behind. -/
def Outcome.shared : Outcome → Shared
  | .ok sh => sh
  | .error e => e.shared

/-- Who holds the mutex: nobody, a push with the writes it has still to do, or
the poll of a receiver. -/
inductive Lock where
  | free
  | pushing (todo : List CellWrite) (outcome : Outcome)
  | receiving (id : ℕ)

structure System where
  state : State
  mask : ℕ
  buffer : ℕ → Item
  lock : Lock
  /-- for every `close` in progress, the cell it marks next -/
  closers : ℕ → Option ℕ
  clients : ℕ → Option Client
  /-- history variable: the writes done so far -/
  history : List CellWrite
  /-- history variable: some `close` has begun -/
  closeBegan : Bool

namespace System

def new (config : ConfigChannel) : System :=
  { state := (Sender.new config).state
    mask := (Sender.new config).mask
    buffer := (Sender.new config).buffer
    lock := .free
    closers := fun _ => none
    clients := fun _ => none
    history := []
    closeBegan := false }

/-- What the holder of the mutex sees. -/
def shared (sys : System) : Shared :=
  { state := sys.state, mask := sys.mask, buffer := sys.buffer, writes := [] }

/-- The messages pushed so far. -/
def log (sys : System) : List Stored :=
  sys.history.filterMap fun w => w.toStore.map Prod.fst

/-- The item of a position. -/
def item (sys : System) (pos : ℕ) : Item := sys.buffer (sys.shared.getIdx pos)

def setClient (sys : System) (id : ℕ) (c : Client) : System :=
  { sys with clients := Function.update sys.clients id (some c) }

def setWakers (sys : System) (wakers : List ℕ) : System :=
  { sys with state := { sys.state with wakers := wakers } }

/-- Wake the receivers. -/
def wake (sys : System) (ids : List ℕ) : System :=
  { sys with
    clients := fun id => (sys.clients id).map fun c =>
      { c with waiting := c.waiting && !ids.contains id } }

/-- The end of a push: a push that returns has drained the wakers. -/
def unlock (sys : System) (outcome : Outcome) : System :=
  let sys' := { sys with state := outcome.shared.state, lock := .free }
  match outcome with
  | .ok _ => sys'.wake sys.state.wakers
  | .error _ => sys'

def markClosed (sys : System) (idx : ℕ) : System :=
  { sys with buffer := Function.update sys.buffer idx { sys.buffer idx with closed := true } }

end System

/-- The steps of all threads. -/
inductive Step (sys : System) : System → Prop where
  | subscribe (id : ℕ) (replayFromSlot : Option Slot) (filter : RichatFilter) (receiver : Receiver)
      (free : sys.lock = .free) (fresh : sys.clients id = none)
      (subscribed : sys.shared.subscribe replayFromSlot filter = .ok receiver) :
      Step sys (sys.setClient id (.new receiver))
  | pushLock (encode : ProtobufMessage → Bytes) (message : ProtobufMessage) (outcome : Outcome)
      (free : sys.lock = .free) (run : sys.shared.push encode message = some outcome) :
      Step sys { sys with lock := .pushing outcome.shared.writes outcome }
  | pushWrite (w : CellWrite) (todo : List CellWrite) (outcome : Outcome)
      (holds : sys.lock = .pushing (w :: todo) outcome) :
      Step sys { sys with
        buffer := writeItem sys.mask sys.buffer w
        lock := .pushing todo outcome
        history := sys.history ++ [w] }
  | pushUnlock (outcome : Outcome) (holds : sys.lock = .pushing [] outcome) :
      Step sys (sys.unlock outcome)
  | closeBegin (id : ℕ) (fresh : sys.closers id = none) :
      Step sys { sys with closers := Function.update sys.closers id (some 0), closeBegan := true }
  | closeMark (id idx : ℕ) (at_ : sys.closers id = some idx) (more : idx < sys.mask + 1) :
      Step sys { sys.markClosed idx with
        closers := Function.update sys.closers id (some (idx + 1)) }
  | closeEnd (id : ℕ) (done : sys.closers id = some (sys.mask + 1)) (free : sys.lock = .free) :
      Step sys { (sys.wake sys.state.wakers).setWakers [] with
        closers := Function.update sys.closers id none }
  | poll (id : ℕ) (c : Client) (client : sys.clients id = some c) (idle : c.pc = .idle) :
      Step sys (sys.setClient id c.poll)
  | read (id : ℕ) (c : Client) (client : sys.clients id = some c) (reading : c.pc = .reading) :
      Step sys (sys.setClient id (c.read (sys.item c.receiver.next)))
  | lockState (id : ℕ) (c : Client) (client : sys.clients id = some c) (locking : c.pc = .locking)
      (free : sys.lock = .free) :
      Step sys { sys.setClient id { c with pc := .locked } with lock := .receiving id }
  | recheck (id : ℕ) (c : Client) (client : sys.clients id = some c) (locked : c.pc = .locked)
      (holds : sys.lock = .receiving id) :
      Step sys { (sys.setClient id (c.recheck (sys.item c.receiver.next) sys.log.length)).setWakers
          (if c.parks (sys.item c.receiver.next) then sys.state.wakers ++ [id]
           else sys.state.wakers) with
        lock := .free }

/-- The states the threads can bring a channel of the configuration to. -/
inductive Reachable (config : ConfigChannel) : System → Prop where
  | new : Reachable config (.new config)
  | step {sys sys' : System} (reachable : Reachable config sys) (step : Step sys sys') :
      Reachable config sys'

end Dragonmouth.Plugin
