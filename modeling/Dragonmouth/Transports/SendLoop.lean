import Mathlib.Data.Finset.Max
import Mathlib.Logic.Relation
import Mathlib.Order.Lattice.Nat
import Dragonmouth.Encoding.Wire
import Dragonmouth.Plugin.Stream

/-!
# The send loop of the QUIC server

After a request has been accepted, `handle_incoming` opens the streams of the
subscription and hands every message of the channel to a task that writes it on
an idle stream. Tasks write at any time and end in any order; the loop is
entered again after each event it has selected. What is written is bytes, any
number of them at a time. Transport errors, which end the connection, are left
out. Message ids are natural numbers; the source counts in 64 bits. The encoding of
the close message is that of the protobuf library, a parameter.

`written`, `spawned`, `received` and `failed` are history: what has been written
on each stream, the tasks spawned, the messages the channel has yielded, and
whether it has yielded an error.

## Main definitions

- `Frame`: what a task writes
- `SendLoop`: the local variables of the loop and the place it has reached
- `SendLoop.Step`, `SendLoop.Reachable`: its runs
-/

namespace Dragonmouth.Transports

open Plugin (RecvItem RecvError)
open Encoding (Prost fieldsWrite)

/-- `write_u64`: eight bytes, the most significant first. -/
def writeU64 (value : ℕ) : Bytes :=
  (List.range 8).map fun i => UInt8.ofNat (value / 256 ^ (7 - i))

/-- The number of a `QuicSubscribeCloseError`. -/
def closeError : RecvError → ℤ
  | .lagged => 0
  | .closed => 1

/-- An encoded `QuicSubscribeClose`. -/
def quicSubscribeClose (P : Prost) (error : RecvError) : Bytes :=
  fieldsWrite P [.implicit 1 (.int32 (closeError error))]

inductive Frame where
  | message (msgId : ℕ) (data : RecvItem)
  | close (error : RecvError)
  deriving DecidableEq

namespace Frame

/-- The number in front of a frame; a close frame has the largest one. -/
def id : Frame → ℕ
  | message msgId _ => msgId
  | close _ => 2 ^ 64 - 1

def payload (P : Prost) : Frame → Bytes
  | message _ data => data
  | close error => quicSubscribeClose P error

/-- What the three writes of a task put on its stream. -/
def bytes (P : Prost) (frame : Frame) : Bytes :=
  writeU64 frame.id ++ writeU64 (frame.payload P).length ++ frame.payload P

/-- The message of a data frame, with its id. -/
def numbered : Frame → Option (RecvItem × ℕ)
  | message msgId data => some (data, msgId)
  | close _ => none

end Frame

/-- A spawned task: the stream it holds, its frame, what it has still to write,
and the id it returns. -/
structure Task where
  stream : ℕ
  frame : Frame
  rest : Bytes
  msgId : ℕ

/-- The id of a task that writes a message. -/
def Task.dataId (task : Task) : Option ℕ := task.frame.numbered.map Prod.snd

/-- Where the loop is. The last two are the failures the source guards against. -/
inductive Phase where
  | head
  | select
  /-- waiting for a stream to write the close frame on -/
  | closing (error : RecvError)
  | ended
  /-- already verified -/
  | panicked
  /-- `ConnectionError::StreamNotAvailable` -/
  | unavailable
  deriving DecidableEq

structure SendLoop where
  streams : List ℕ
  msgId : ℕ
  msgIds : Finset ℕ
  nextMessage : Option RecvItem
  set : List Task
  phase : Phase
  written : ℕ → Bytes
  spawned : List (ℕ × Frame)
  received : List RecvItem
  failed : Bool

namespace SendLoop

/-- The loop after the streams have been opened. -/
def start (recvStreams : ℕ) : SendLoop where
  streams := List.range recvStreams
  msgId := 0
  msgIds := ∅
  nextMessage := none
  set := []
  phase := .head
  written := fun _ => []
  spawned := []
  received := []
  failed := false

/-- `msg_ids.first().copied().unwrap_or(msg_id)`. -/
def firstId (loop : SendLoop) : ℕ :=
  if h : loop.msgIds.Nonempty then loop.msgIds.min' h else loop.msgId

section

variable (P : Prost)

/-- Spawn a task that writes a frame and returns the current id. -/
def spawn (loop : SendLoop) (stream : ℕ) (frame : Frame) : SendLoop :=
  { loop with
    set := ⟨stream, frame, frame.bytes P, loop.msgId⟩ :: loop.set
    spawned := loop.spawned ++ [(stream, frame)] }

/-- The beginning of an iteration: hand the waiting message to a task, if the
window and the streams allow it. -/
def dispatch (loop : SendLoop) (maxBacklog : ℕ) : SendLoop :=
  let loop := { loop with phase := .select }
  if loop.msgId - loop.firstId < maxBacklog then
    match loop.nextMessage with
    | some message =>
      match loop.streams with
      | stream :: streams =>
        { loop.spawn P stream (.message loop.msgId message) with
          streams := streams
          msgIds := insert loop.msgId loop.msgIds
          nextMessage := none
          msgId := loop.msgId + 1 }
      | [] => loop
    | none => loop
  else loop

/-- The end of a task that has been joined. -/
def join (loop : SendLoop) (task : Task) (set : List Task) : SendLoop :=
  { loop with
    set := set
    msgIds := loop.msgIds.erase task.msgId
    streams := loop.streams ++ [task.stream] }

/-- Spawn the task that writes the close frame. -/
def sendClose (loop : SendLoop) (error : RecvError) : SendLoop :=
  match loop.streams with
  | stream :: streams =>
    { loop.spawn P stream (.close error) with streams := streams, phase := .head }
  | [] => { loop with phase := .unavailable }

/-- The channel has yielded an error. -/
def fail (loop : SendLoop) (error : RecvError) : SendLoop :=
  let loop := { loop with failed := true }
  if loop.streams = [] then { loop with phase := .closing error } else loop.sendClose P error

/-- A task writes the next bytes of its frame. -/
def write (loop : SendLoop) (task : Task) (before after : List Task) (n : ℕ) : SendLoop :=
  { loop with
    set := before ++ { task with rest := task.rest.drop n } :: after
    written := Function.update loop.written task.stream
      (loop.written task.stream ++ task.rest.take n) }

/-- One step of the loop or of a task. The channel is asked for a message only if
none is waiting, and yields nothing but its end after an error. -/
inductive Step (maxBacklog : ℕ) (loop : SendLoop) : SendLoop → Prop where
  | dispatch (at_head : loop.phase = .head) : Step maxBacklog loop (loop.dispatch P maxBacklog)
  | message (selects : loop.phase = .select) (empty : loop.nextMessage = none)
      (open_ : loop.failed = false) (message : RecvItem) :
      Step maxBacklog loop
        { loop with
          nextMessage := some message
          received := loop.received ++ [message]
          phase := .head }
  | fail (selects : loop.phase = .select) (empty : loop.nextMessage = none)
      (open_ : loop.failed = false) (error : RecvError) :
      Step maxBacklog loop (loop.fail P error)
  | finish (selects : loop.phase = .select) (empty : loop.nextMessage = none) :
      Step maxBacklog loop { loop with phase := .ended }
  | join (selects : loop.phase = .select) (task : Task) (before after : List Task)
      (running : loop.set = before ++ task :: after) (done : task.rest = []) :
      Step maxBacklog loop { loop.join task (before ++ after) with phase := .head }
  | joinClosing (error : RecvError) (closes : loop.phase = .closing error) (task : Task)
      (before after : List Task) (running : loop.set = before ++ task :: after)
      (done : task.rest = []) :
      Step maxBacklog loop ((loop.join task (before ++ after)).sendClose P error)
  | joinNothing (error : RecvError) (closes : loop.phase = .closing error)
      (nothing : loop.set = []) : Step maxBacklog loop { loop with phase := .panicked }
  | write (task : Task) (before after : List Task)
      (running : loop.set = before ++ task :: after) (n : ℕ) :
      Step maxBacklog loop (loop.write task before after n)

def Reachable (recvStreams maxBacklog : ℕ) (loop : SendLoop) : Prop :=
  Relation.ReflTransGen (Step P maxBacklog) (start recvStreams) loop

end

end SendLoop

end Dragonmouth.Transports
