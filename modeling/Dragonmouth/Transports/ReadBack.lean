import Dragonmouth.Foundations.Framing
import Dragonmouth.Transports.SendLoopSafety

/-!
# Reading streams back

What the servers write after the response, and how the clients read it. Over TCP a
message follows its size; the largest size announces an error, whose own size comes
next. On a QUIC stream a frame has an id in front of its size, and the largest id
announces an error. The readers take what was written frame by frame, in whatever
pieces it arrives.

A buffer of the announced size is reserved without failure; errors of the transport
other than its end are left out. The encoding of `QuicSubscribeClose` and its decoder
are parameters.

## Main results

- `tcp_read_back`: the TCP client receives what the TCP server was given
- `quic_read_back`: the reader of a QUIC stream receives the frames of its tasks
-/

namespace Dragonmouth.Transports

open Framing
open Plugin (RecvItem RecvError Yield)
open Encoding (Prost wire wire_varints)

/-- `u64::MAX`. -/
def u64Max : ℕ := 2 ^ 64 - 1

/-- The errors a receiver of frames ends with. -/
inductive ReceiveError where
  /-- `Io`: the stream has ended -/
  | unexpectedEof
  /-- `QuicRecv`: the stream has ended within a payload -/
  | finishedEarly
  | decode (description : String)
  | unknown (error : ℤ)
  | lagged
  | closed
  deriving DecidableEq

namespace ReceiveError

/-- `From<QuicSubscribeClose>`. -/
def ofClose (error : ℤ) : ReceiveError :=
  if error = 0 then .lagged
  else if error = 1 then .closed
  else .unknown error

def isEof : ReceiveError → Bool
  | unexpectedEof => true
  | _ => false

/-- What `poll_next` yields in place of an error: nothing at the end of the stream. -/
def yielded (error : ReceiveError) : Option ReceiveError :=
  if error.isEof then none else some error

/-- The error that stands for one of the channel. -/
def ofRecvError : RecvError → ReceiveError
  | .lagged => .lagged
  | .closed => .closed

theorem ofClose_closeError (error : RecvError) :
    ofClose (closeError error) = ofRecvError error := by
  cases error with
  | lagged => rfl
  | closed => rfl

theorem yielded_ofRecvError (error : RecvError) :
    (ofRecvError error).yielded = some (ofRecvError error) := by
  cases error with
  | lagged => rfl
  | closed => rfl

end ReceiveError

/-- The receiver returns `items`, then its stream ends with `last`. -/
def Receives {β : Type} (recv : Pieces UInt8 → Except ReceiveError (Pieces UInt8 × β))
    (stream : Pieces UInt8) (items : List β) (last : Option ReceiveError) : Prop :=
  ∃ error, Repeated recv stream items error ∧ error.yielded = last

-- ════════════════════════════════════════════════════════════════════════
-- The servers and the clients
-- ════════════════════════════════════════════════════════════════════════

namespace TcpServer

def sendMessage (message : RecvItem) : Bytes := writeU64 message.length ++ message

def sendError (P : Prost) (error : RecvError) : Bytes :=
  writeU64 u64Max ++ writeU64 (quicSubscribeClose P error).length ++ quicSubscribeClose P error

/-- The send loop of `handle_incoming`, which ends when `rx` has nothing more. -/
def sendLoop (P : Prost) : List Yield → Bytes
  | [] => []
  | .ok message :: rx => sendMessage message ++ sendLoop P rx
  | .error error :: rx => sendError P error ++ sendLoop P rx

end TcpServer

/-- `read_u64`. -/
def recvU64 (stream : Pieces UInt8) : Except ReceiveError (ℕ × Pieces UInt8) :=
  match readExact 8 stream with
  | some (bytes, stream) => .ok (ofBigEndian bytes, stream)
  | none => .error .unexpectedEof

/-- `read_exact`; each transport has its own error. -/
def recvExact (short : ReceiveError) (size : ℕ) (stream : Pieces UInt8) :
    Except ReceiveError (Bytes × Pieces UInt8) :=
  match readExact size stream with
  | some (buffer, stream) => .ok (buffer, stream)
  | none => .error short

section

variable (decode : Bytes → Except String ℤ)

/-- Parse message if error. -/
def parseClose {α : Type} (buffer : Bytes) : Except ReceiveError α := do
  let close ← (decode buffer).mapError .decode
  .error (.ofClose close)

def TcpClient.recv (stream : Pieces UInt8) : Except ReceiveError (Pieces UInt8 × Bytes) := do
  -- read size / error
  let (first, stream) ← recvU64 stream
  let (size, stream) ← if first = u64Max then recvU64 stream else .ok (first, stream)
  let (buffer, stream) ← recvExact .unexpectedEof size stream
  if first = u64Max then parseClose decode buffer else .ok (stream, buffer)

def QuicClient.recv (stream : Pieces UInt8) :
    Except ReceiveError (Pieces UInt8 × ℕ × Bytes) := do
  let (msgId, stream) ← recvU64 stream
  let (size, stream) ← recvU64 stream
  let (buffer, stream) ← recvExact .finishedEarly size stream
  if msgId = u64Max then parseClose decode buffer else .ok (stream, msgId, buffer)

end

-- ════════════════════════════════════════════════════════════════════════
-- One read
-- ════════════════════════════════════════════════════════════════════════

section

variable {stream : Pieces UInt8} {back : Bytes} {value : ℕ}

theorem recvU64_writeU64 (hvalue : value < 2 ^ 64)
    (h : stream.flatten = writeU64 value ++ back) :
    ∃ rest, recvU64 stream = .ok (value, rest) ∧ rest.flatten = back := by
  obtain ⟨rest, hread, hrest⟩ := readExact_append h
  have hlength : (writeU64 value).length = 8 := length_bigEndian 8 value
  have hfits : value < 256 ^ 8 := hvalue
  have hback : ofBigEndian (writeU64 value) = value := ofBigEndian_bigEndian hfits
  rw [hlength] at hread
  refine ⟨rest, ?_, hrest⟩
  rw [recvU64, hread]
  exact congrArg (fun n => Except.ok (n, rest)) hback

theorem recvU64_nil (h : stream.flatten = []) : recvU64 stream = .error .unexpectedEof := by
  rw [recvU64, readExact_nil h]

theorem recvExact_append (short : ReceiveError) {buffer : Bytes}
    (h : stream.flatten = buffer ++ back) :
    ∃ rest, recvExact short buffer.length stream = .ok (buffer, rest) ∧ rest.flatten = back := by
  obtain ⟨rest, hread, hrest⟩ := readExact_append h
  refine ⟨rest, ?_, hrest⟩
  rw [recvExact, hread]

end

-- ════════════════════════════════════════════════════════════════════════
-- TCP
-- ════════════════════════════════════════════════════════════════════════

/-- The decoder takes the encoded error back. -/
def DecodesClose (P : Prost) (decode : Bytes → Except String ℤ) : Prop :=
  ∀ error, decode (quicSubscribeClose P error) = .ok (closeError error)

theorem length_quicSubscribeClose {P : Prost} (hP : P.Varints) (error : RecvError) :
    (quicSubscribeClose P error).length < 2 ^ 64 := by
  have hwrite := hP.int32 1 (closeError error)
  rw [quicSubscribeClose, Encoding.fieldsWrite, List.flatMap_singleton, Encoding.Field.write]
  split
  · exact Nat.two_pow_pos 64
  · exact Nat.lt_of_le_of_lt hwrite (by decide)

theorem parseClose_eq {P : Prost} {decode : Bytes → Except String ℤ}
    (hdecode : DecodesClose P decode) {α : Type} (error : RecvError) :
    parseClose decode (quicSubscribeClose P error) =
      (.error (.ofRecvError error) : Except ReceiveError α) := by
  rw [parseClose, hdecode error, ← ReceiveError.ofClose_closeError]
  rfl

section

variable {P : Prost} {decode : Bytes → Except String ℤ} {stream : Pieces UInt8} {back : Bytes}

theorem TcpClient.takes_message {message : Bytes} (h : message.length < u64Max) :
    Takes (TcpClient.recv decode) (TcpServer.sendMessage message) message := by
  intro stream back hstream
  rw [TcpServer.sendMessage, List.append_assoc] at hstream
  have hfits : message.length < 2 ^ 64 := Nat.lt_of_lt_of_le h (Nat.sub_le _ _)
  obtain ⟨stream', hsize, hstream'⟩ := recvU64_writeU64 hfits hstream
  obtain ⟨rest, hbuffer, hrest⟩ := recvExact_append .unexpectedEof hstream'
  refine ⟨rest, ?_, hrest⟩
  rw [TcpClient.recv, hsize]
  simp only [Except.bind, bind, if_neg (Nat.ne_of_lt h), hbuffer]

theorem TcpClient.recv_error (hP : P.Varints) (hdecode : DecodesClose P decode)
    {error : RecvError} (h : stream.flatten = TcpServer.sendError P error ++ back) :
    TcpClient.recv decode stream = .error (.ofRecvError error) := by
  rw [TcpServer.sendError, List.append_assoc, List.append_assoc] at h
  have hmax : u64Max < 2 ^ 64 := Nat.sub_lt (Nat.two_pow_pos 64) Nat.one_pos
  obtain ⟨stream₁, hfirst, hstream₁⟩ := recvU64_writeU64 hmax h
  obtain ⟨stream₂, hsize, hstream₂⟩ :=
    recvU64_writeU64 (length_quicSubscribeClose hP error) hstream₁
  obtain ⟨rest, hbuffer, -⟩ := recvExact_append .unexpectedEof hstream₂
  rw [TcpClient.recv, hfirst]
  simp only [Except.bind, bind, if_true, hsize, hbuffer, parseClose_eq hdecode]

theorem TcpClient.recv_nil (h : stream.flatten = []) :
    TcpClient.recv decode stream = .error .unexpectedEof := by
  rw [TcpClient.recv, recvU64_nil h]
  rfl

/-- What is read where the messages end. -/
theorem TcpClient.recv_close (hP : P.Varints) (hdecode : DecodesClose P decode)
    (close : Option RecvError)
    (h : stream.flatten = close.toList.flatMap (TcpServer.sendError P)) :
    TcpClient.recv decode stream =
      .error (close.elim .unexpectedEof ReceiveError.ofRecvError) := by
  cases close with
  | none => exact recv_nil h
  | some error =>
    rw [Option.toList_some, List.flatMap_singleton, ← List.append_nil (TcpServer.sendError P error)]
      at h
    exact recv_error hP hdecode h

end

theorem TcpServer.sendLoop_append (P : Prost) (messages : List RecvItem) (rx : List Yield) :
    sendLoop P (messages.map .ok ++ rx) = messages.flatMap sendMessage ++ sendLoop P rx := by
  induction messages with
  | nil => rfl
  | cons message messages ih =>
    rw [List.map_cons, List.cons_append, sendLoop, ih, List.flatMap_cons, List.append_assoc]

theorem TcpServer.sendLoop_errors (P : Prost) (errors : List RecvError) :
    sendLoop P (errors.map .error) = errors.flatMap (sendError P) := by
  induction errors with
  | nil => rfl
  | cons error errors ih => rw [List.map_cons, sendLoop, ih, List.flatMap_cons]

theorem ReceiveError.yielded_close (close : Option RecvError) :
    (close.elim unexpectedEof ofRecvError).yielded = close.map ofRecvError := by
  cases close with
  | none => rfl
  | some error => exact yielded_ofRecvError error

/-- What a receiver returns is determined by its calls. -/
theorem receives_iff {β : Type} {recv : Pieces UInt8 → Except ReceiveError (Pieces UInt8 × β)}
    {stream : Pieces UInt8} {items items' : List β} {error : ReceiveError}
    {last : Option ReceiveError} (h : Repeated recv stream items error) :
    Receives recv stream items' last ↔ items' = items ∧ last = error.yielded := by
  constructor
  · rintro ⟨error', h', rfl⟩
    obtain ⟨rfl, rfl⟩ := h.unique h'
    exact ⟨rfl, rfl⟩
  · rintro ⟨rfl, rfl⟩
    exact ⟨error, h, rfl⟩

-- ════════════════════════════════════════════════════════════════════════
-- QUIC
-- ════════════════════════════════════════════════════════════════════════

section

variable {P : Prost} {decode : Bytes → Except String ℤ} {stream : Pieces UInt8} {back : Bytes}

/-- The frame of a message, from its id and the message. -/
def Frame.ofNumbered (numbered : ℕ × Bytes) : Frame := .message numbered.1 numbered.2

/-- The id, the size and the payload of a frame are read one after the other. -/
theorem recv_frame (decode : Bytes → Except String ℤ) (frame : Frame) (hid : frame.id < 2 ^ 64)
    (hlen : (frame.payload P).length < 2 ^ 64) (h : stream.flatten = frame.bytes P ++ back) :
    ∃ rest, QuicClient.recv decode stream =
        (if frame.id = u64Max then parseClose decode (frame.payload P)
        else .ok (rest, frame.id, frame.payload P)) ∧ rest.flatten = back := by
  rw [Frame.bytes, List.append_assoc, List.append_assoc] at h
  obtain ⟨stream₁, hmsgId, hstream₁⟩ := recvU64_writeU64 hid h
  obtain ⟨stream₂, hsize, hstream₂⟩ := recvU64_writeU64 hlen hstream₁
  obtain ⟨rest, hbuffer, hrest⟩ := recvExact_append .finishedEarly hstream₂
  refine ⟨rest, ?_, hrest⟩
  rw [QuicClient.recv, hmsgId]
  simp only [Except.bind, bind, hsize, hbuffer]

theorem QuicClient.takes_message {numbered : ℕ × Bytes} (hid : numbered.1 < u64Max)
    (hlen : numbered.2.length < 2 ^ 64) :
    Takes (QuicClient.recv decode) ((Frame.ofNumbered numbered).bytes P) numbered := by
  intro stream back hstream
  have hfits : numbered.1 < 2 ^ 64 := Nat.lt_of_lt_of_le hid (Nat.sub_le _ _)
  obtain ⟨rest, hrecv, hrest⟩ :=
    recv_frame decode (.ofNumbered numbered) hfits hlen hstream
  have hne : ¬(Frame.ofNumbered numbered).id = u64Max := Nat.ne_of_lt hid
  rw [if_neg hne] at hrecv
  exact ⟨rest, hrecv, hrest⟩

theorem QuicClient.recv_nil (h : stream.flatten = []) :
    QuicClient.recv decode stream = .error .unexpectedEof := by
  rw [QuicClient.recv, recvU64_nil h]
  rfl

theorem QuicClient.recv_close (hP : P.Varints) (hdecode : DecodesClose P decode)
    (close : Option RecvError)
    (h : stream.flatten = close.toList.flatMap fun error => (Frame.close error).bytes P) :
    QuicClient.recv decode stream =
      .error (close.elim .unexpectedEof ReceiveError.ofRecvError) := by
  cases close with
  | none => exact recv_nil h
  | some error =>
    rw [Option.toList_some, List.flatMap_singleton, ← List.append_nil ((Frame.close error).bytes P)]
      at h
    have hmax : (Frame.close error).id < 2 ^ 64 := Nat.sub_lt (Nat.two_pow_pos 64) Nat.one_pos
    obtain ⟨rest, hrecv, -⟩ :=
      recv_frame decode (.close error) hmax (length_quicSubscribeClose hP error) h
    have hid : (Frame.close error).id = u64Max := rfl
    rw [hrecv, if_pos hid]
    exact parseClose_eq hdecode error

end

-- ════════════════════════════════════════════════════════════════════════
-- The frames of a stream
-- ════════════════════════════════════════════════════════════════════════

/-- A frame that carries a message. -/
def Frame.IsData (frame : Frame) : Prop := ∃ numbered, frame = .ofNumbered numbered

namespace SendLoop

variable {P : Prost} {loop loop' : SendLoop} {recvStreams maxBacklog : ℕ}

/-- The frames of the tasks of a stream, in order. -/
def framesOf (loop : SendLoop) (stream : ℕ) : List Frame :=
  (loop.spawned.filter fun spawned => spawned.1 = stream).map Prod.snd

theorem frames_eq (stream : ℕ) :
    loop.frames P stream = (loop.framesOf stream).flatMap (Frame.bytes P) := by
  rw [frames, framesOf, List.flatMap_map]

/-- Only the last task may write a close frame, and none before the channel has failed
and a stream has been found. -/
structure CloseLast (loop : SendLoop) : Prop where
  waiting : loop.failed = true → loop.nextMessage = none
  closing : ∀ error, loop.phase = .closing error → loop.failed = true
  before : (loop.failed = false ∨ ∃ error, loop.phase = .closing error) →
    ∀ spawned ∈ loop.spawned, spawned.2.IsData
  last : ∀ spawned ∈ loop.spawned.dropLast, spawned.2.IsData

theorem CloseLast.start : CloseLast (start recvStreams) where
  waiting _ := rfl
  closing _ h := (nomatch h)
  before _ _ h := (nomatch h)
  last _ h := (nomatch h)

/-- Unless it waits for a stream, the place of the loop is of no importance. -/
theorem CloseLast.atPhase (h : CloseLast loop) {phase : Phase}
    (hphase : ∀ error, phase ≠ .closing error) : CloseLast { loop with phase := phase } where
  waiting := h.waiting
  closing error he := absurd he (hphase error)
  before hopen := h.before (.inl (hopen.resolve_right fun ⟨error, he⟩ => hphase error he))
  last := h.last

/-- Before the channel has failed, every frame spawned carries a message. -/
theorem CloseLast.dispatch (h : CloseLast loop) : CloseLast (loop.dispatch P maxBacklog) := by
  obtain he | ⟨stream, streams, message, -, hnext, -, he⟩ := dispatch_cases P loop maxBacklog
  · rw [he]
    exact h.atPhase fun _ hp => (nomatch hp)
  · rw [he]
    have hopen : loop.failed = false := by
      by_contra hfailed
      rw [h.waiting (Bool.of_not_eq_false hfailed)] at hnext
      cases hnext
    have hall : ∀ spawned ∈ loop.spawned ++ [(stream, Frame.message loop.msgId message)],
        spawned.2.IsData := by
      intro spawned hspawned
      obtain hbefore | hnew := List.mem_append.mp hspawned
      · exact h.before (.inl hopen) spawned hbefore
      · rw [List.mem_singleton.mp hnew]
        exact ⟨(loop.msgId, message), rfl⟩
    exact ⟨fun _ => rfl, fun _ hp => (nomatch hp), fun _ => hall,
      fun spawned hs => hall spawned (List.mem_of_mem_dropLast hs)⟩

/-- The close frame follows the messages. -/
theorem CloseLast.sendClose (hnone : loop.nextMessage = none) (hfailed : loop.failed = true)
    (hdata : ∀ spawned ∈ loop.spawned, spawned.2.IsData) (error : RecvError) :
    CloseLast (loop.sendClose P error) := by
  rw [SendLoop.sendClose]
  split
  · refine ⟨fun _ => hnone, fun _ _ => hfailed, ?_, ?_⟩
    · rintro (hopen | ⟨error, hclosing⟩)
      · exact absurd (hfailed.symm.trans hopen) (by decide)
      · cases hclosing
    · intro spawned hs
      change spawned ∈ (loop.spawned ++ [_]).dropLast at hs
      rw [List.dropLast_concat] at hs
      exact hdata spawned hs
  · exact ⟨fun _ => hnone, fun _ _ => hfailed, fun _ => hdata,
      fun spawned hs => hdata spawned (List.mem_of_mem_dropLast hs)⟩

theorem CloseLast.step (h : CloseLast loop) (hstep : Step P maxBacklog loop loop') :
    CloseLast loop' := by
  cases hstep with
  | dispatch => exact h.dispatch
  | message _ _ hopen message =>
    refine ⟨fun hfailed => ?_, fun _ hp => (by cases hp), fun _ => h.before (.inl hopen), h.last⟩
    exact absurd (Eq.trans hfailed.symm hopen) (by decide)
  | fail _ hempty hopen error =>
    have hdata := h.before (.inl hopen)
    rw [SendLoop.fail]
    split
    · exact ⟨fun _ => hempty, fun _ _ => rfl, fun _ => hdata, h.last⟩
    · apply CloseLast.sendClose
      · exact hempty
      · rfl
      · exact hdata
  | finish => exact h.atPhase fun _ hp => by cases hp
  | join _ task before after =>
    have hjoin : CloseLast { loop.join task (before ++ after) with phase := loop.phase } :=
      ⟨h.waiting, h.closing, h.before, h.last⟩
    exact hjoin.atPhase fun _ hp => by cases hp
  | joinClosing error hcloses task before after =>
    have hfailed := h.closing error hcloses
    apply CloseLast.sendClose
    · exact h.waiting hfailed
    · exact hfailed
    · exact h.before (.inr ⟨error, hcloses⟩)
  | joinNothing => exact h.atPhase fun _ hp => by cases hp
  | write => exact ⟨h.waiting, h.closing, h.before, h.last⟩

theorem Reachable.closeLast (h : Reachable P recvStreams maxBacklog loop) : CloseLast loop := by
  induction h with
  | refl => exact .start
  | tail _ hstep ih => exact ih.step hstep

/-- Messages that are all data are what they are numbered by. -/
theorem exists_numbered {frames : List Frame} (h : ∀ frame ∈ frames, frame.IsData) :
    ∃ numbered : List (ℕ × Bytes), frames = numbered.map Frame.ofNumbered := by
  induction frames with
  | nil => exact ⟨[], rfl⟩
  | cons frame frames ih =>
    rw [List.forall_mem_cons] at h
    obtain ⟨⟨first, rfl⟩, hrest⟩ := h
    obtain ⟨numbered, rfl⟩ := ih hrest
    exact ⟨first :: numbered, rfl⟩

/-- The frames of a stream are messages, and a close frame at the end if there is one. -/
theorem CloseLast.framesOf (h : CloseLast loop) (stream : ℕ) :
    ∃ (numbered : List (ℕ × Bytes)) (close : Option RecvError),
      loop.framesOf stream = numbered.map .ofNumbered ++ close.toList.map .close := by
  have hdata : ∀ frame ∈ (loop.spawned.dropLast.filter fun spawned => spawned.1 = stream).map
      Prod.snd, frame.IsData := by
    intro frame hframe
    obtain ⟨spawned, hspawned, rfl⟩ := List.mem_map.mp hframe
    exact h.last spawned (List.mem_of_mem_filter hspawned)
  obtain ⟨numbered, hnumbered⟩ := exists_numbered hdata
  cases hlast : loop.spawned.getLast? with
  | none =>
    rw [List.getLast?_eq_none_iff] at hlast
    exact ⟨[], none, by rw [SendLoop.framesOf, hlast]; rfl⟩
  | some spawned =>
    have hsplit : loop.spawned = loop.spawned.dropLast ++ [spawned] :=
      (List.dropLast_append_getLast? spawned hlast).symm
    have hframes : loop.framesOf stream = numbered.map .ofNumbered ++
        (([spawned].filter fun s => s.1 = stream).map Prod.snd) := by
      rw [SendLoop.framesOf, ← hnumbered, ← List.map_append, ← List.filter_append, ← hsplit]
    obtain ⟨owner, frame⟩ := spawned
    by_cases howner : owner = stream
    · have hown : [(owner, frame)].filter (fun s => s.1 = stream) = [(owner, frame)] := by
        simp [howner]
      rw [hown] at hframes
      cases frame with
      | message msgId data =>
        refine ⟨numbered ++ [(msgId, data)], none, ?_⟩
        rw [hframes, List.map_append, Option.toList_none, List.map_nil, List.append_nil]
        rfl
      | close error => exact ⟨numbered, some error, hframes⟩
    · have hown : [(owner, frame)].filter (fun s => s.1 = stream) = [] := by simp [howner]
      rw [hown] at hframes
      exact ⟨numbered, none, hframes⟩

/-- The messages on a stream have ids that have been given out, and have been received
from the channel. -/
theorem Numbered.of_mem_framesOf (h : Numbered loop) {stream : ℕ} {numbered : ℕ × Bytes}
    (hmem : Frame.ofNumbered numbered ∈ loop.framesOf stream) :
    numbered.1 < loop.msgId ∧ numbered.2 ∈ loop.received := by
  obtain ⟨sent, hmessages, hlen, hreceived⟩ := h.handed
  obtain ⟨spawned, hspawned, hframe⟩ := List.mem_map.mp hmem
  have hmessage : (numbered.2, numbered.1) ∈ loop.messages := by
    apply List.mem_filterMap.mpr
    exact ⟨spawned, List.mem_of_mem_filter hspawned, by rw [hframe]; rfl⟩
  rw [hmessages] at hmessage
  obtain ⟨-, hlt, hget⟩ := List.mem_zipIdx hmessage
  constructor
  · rwa [Nat.zero_add, hlen] at hlt
  · rw [hreceived, hget]
    exact List.mem_append_left _ (List.getElem_mem _)

/-- On a stream whose tasks have written everything, there are whole frames. -/
theorem Pool.written_eq (h : Pool P recvStreams loop) {stream : ℕ}
    (hdone : ∀ task ∈ loop.set, task.stream = stream → task.rest = []) :
    loop.written stream = loop.frames P stream := by
  by_cases hidle : ∀ task ∈ loop.set, task.stream ≠ stream
  · exact h.idle stream hidle
  · simp only [not_forall, not_not] at hidle
    obtain ⟨task, htask, rfl⟩ := hidle
    have hbusy := (h.busy task htask).2
    rwa [hdone task htask rfl, List.append_nil] at hbusy

end SendLoop

-- ════════════════════════════════════════════════════════════════════════
-- The round trip
-- ════════════════════════════════════════════════════════════════════════

section

variable {P : Prost} {decode : Bytes → Except String ℤ}

/-- The TCP client receives the messages that the server was given, in order, and then
the end of the stream or the error. -/
theorem tcp_read_back (hP : P.Varints) (hdecode : DecodesClose P decode)
    {messages : List RecvItem} (close : Option RecvError)
    (hlen : ∀ message ∈ messages, message.length < u64Max) {stream : Pieces UInt8}
    (hstream : stream.flatten =
      TcpServer.sendLoop P (messages.map .ok ++ close.toList.map .error)) :
    Repeated (TcpClient.recv decode) stream messages
      (close.elim .unexpectedEof ReceiveError.ofRecvError) := by
  rw [TcpServer.sendLoop_append, TcpServer.sendLoop_errors] at hstream
  apply repeated_of_takes _ _ hstream
  · intro message hmessage
    exact TcpClient.takes_message (hlen message hmessage)
  · intro pieces hpieces
    exact TcpClient.recv_close hP hdecode close hpieces

/-- The reader of a QUIC stream receives the frames of its tasks, in order. -/
theorem quic_read_back (hP : P.Varints) (hdecode : DecodesClose P decode)
    {recvStreams maxBacklog : ℕ} (hpos : 0 < recvStreams) {loop : SendLoop}
    (hreach : SendLoop.Reachable P recvStreams maxBacklog loop) (hids : loop.msgId ≤ u64Max)
    (hlen : ∀ message ∈ loop.received, message.length < u64Max) {k : ℕ}
    (hdone : ∀ task ∈ loop.set, task.stream = k → task.rest = [])
    {numbered : List (ℕ × Bytes)} {close : Option RecvError}
    (hframes : loop.framesOf k = numbered.map .ofNumbered ++ close.toList.map .close)
    {stream : Pieces UInt8} (hstream : stream.flatten = loop.written k) :
    Repeated (QuicClient.recv decode) stream numbered
      (close.elim .unexpectedEof ReceiveError.ofRecvError) := by
  have hinv := (hreach.inv hpos).parts
  rw [hinv.pool.written_eq hdone, SendLoop.frames_eq, hframes, List.flatMap_append,
    List.flatMap_map, List.flatMap_map] at hstream
  apply repeated_of_takes _ _ hstream
  · intro message hmessage
    have hmem : Frame.ofNumbered message ∈ loop.framesOf k := by
      rw [hframes]
      exact List.mem_append_left _ (List.mem_map_of_mem hmessage)
    obtain ⟨hid, hreceived⟩ := hinv.numbered.of_mem_framesOf hmem
    exact QuicClient.takes_message (Nat.lt_of_lt_of_le hid hids)
      (Nat.lt_of_lt_of_le (hlen _ hreceived) (Nat.sub_le _ _))
  · intro pieces hpieces
    exact QuicClient.recv_close hP hdecode close hpieces

end

/-- What is written on a connection is received, whatever the pieces in which it arrives:
over TCP the messages of the channel and its error, on a QUIC stream the frames of its
tasks. -/
theorem framing_round_trip {P : Prost} (hP : P.Varints) {decode : Bytes → Except String ℤ}
    (hdecode : DecodesClose P decode) :
    (∀ (messages : List RecvItem) (close : Option RecvError),
      (∀ message ∈ messages, message.length < u64Max) →
      ∀ stream : Pieces UInt8,
        stream.flatten = TcpServer.sendLoop P (messages.map .ok ++ close.toList.map .error) →
        ∀ items last, Receives (TcpClient.recv decode) stream items last ↔
          items = messages ∧ last = close.map .ofRecvError) ∧
    ∀ (recvStreams maxBacklog : ℕ) (loop : SendLoop), 0 < recvStreams →
      SendLoop.Reachable P recvStreams maxBacklog loop → loop.msgId ≤ u64Max →
      (∀ message ∈ loop.received, message.length < u64Max) →
      ∀ k, (∀ task ∈ loop.set, task.stream = k → task.rest = []) →
        ∃ (numbered : List (ℕ × Bytes)) (close : Option RecvError),
          loop.framesOf k = numbered.map .ofNumbered ++ close.toList.map .close ∧
          ∀ stream : Pieces UInt8, stream.flatten = loop.written k →
            ∀ items last, Receives (QuicClient.recv decode) stream items last ↔
              items = numbered ∧ last = close.map .ofRecvError := by
  constructor
  · intro messages close hlen stream hstream items last
    rw [receives_iff (tcp_read_back hP hdecode close hlen hstream), ReceiveError.yielded_close]
  · intro recvStreams maxBacklog loop hpos hreach hids hlen k hdone
    obtain ⟨numbered, close, hframes⟩ := hreach.closeLast.framesOf k
    refine ⟨numbered, close, hframes, ?_⟩
    intro stream hstream items last
    rw [receives_iff (quic_read_back hP hdecode hpos hreach hids hlen hdone hframes hstream),
      ReceiveError.yielded_close]

/-- The two encodings of the schema. -/
def decodeClose (buffer : Bytes) : Except String ℤ :=
  if buffer = [] then .ok 0
  else if buffer = [8, 1] then .ok 1
  else .error "invalid wire type"

theorem decodeClose_decodes : DecodesClose wire decodeClose := by
  intro error
  cases error with
  | lagged => rfl
  | closed => rfl

/-- A message and an error over TCP, in three pieces; a message on a QUIC stream. -/
theorem framing_round_trip_pieces :
    Receives (TcpClient.recv decodeClose)
        [[0, 0, 0], [0, 0, 0, 0, 1, 7, 255, 255, 255, 255],
          [255, 255, 255, 255, 0, 0, 0, 0, 0, 0, 0, 2, 8, 1]] [[7]] (some .closed) ∧
      ∃ loop, SendLoop.Reachable wire 1 1 loop ∧ loop.framesOf 0 = [.message 0 [7]] ∧
        Receives (QuicClient.recv decodeClose) [loop.written 0] [(0, [7])] none := by
  obtain ⟨htcp, hquic⟩ := framing_round_trip wire_varints decodeClose_decodes
  refine ⟨(htcp [[7]] (some .closed) (by decide) _ (by decide) _ _).mpr ⟨rfl, rfl⟩, ?_⟩
  let first := (SendLoop.start 1).dispatch wire 1
  let second : SendLoop :=
    { first with
      nextMessage := some [7]
      received := first.received ++ [[7]]
      phase := .head }
  let third := second.dispatch wire 1
  let task : Task := ⟨0, .message 0 [7], (Frame.message 0 [7]).bytes wire, 0⟩
  let loop := third.write task [] [] 17
  have h₁ : SendLoop.Step wire 1 (.start 1) first := .dispatch rfl
  have h₂ : SendLoop.Step wire 1 first second := .message rfl rfl rfl [7]
  have h₃ : SendLoop.Step wire 1 second third := .dispatch rfl
  have h₄ : SendLoop.Step wire 1 third loop := .write task [] [] (by rfl) 17
  have hreach : SendLoop.Reachable wire 1 1 loop :=
    (((Relation.ReflTransGen.single h₁).tail h₂).tail h₃).tail h₄
  have hframes : loop.framesOf 0 = [.message 0 [7]] := by rfl
  have hreceived : ∀ message ∈ loop.received, message.length < u64Max := by
    intro message hmessage
    rw [List.mem_singleton.mp hmessage]
    decide
  obtain ⟨numbered, close, hsplit, hrecv⟩ := hquic 1 1 loop (by decide) hreach (by decide)
    hreceived 0 (by
      intro t ht _
      rw [List.mem_singleton.mp ht]
      rfl)
  have honly : numbered = [(0, [7])] ∧ close = none := by
    rw [hframes] at hsplit
    cases numbered with
    | nil => cases close <;> cases hsplit
    | cons first rest =>
      simp only [List.map_cons, List.cons_append, List.cons.injEq, Frame.ofNumbered,
        Frame.message.injEq] at hsplit
      obtain ⟨⟨hid, hdata⟩, htail⟩ := hsplit
      cases rest with
      | nil =>
        cases close with
        | none => exact ⟨congrArg (· :: []) (Prod.ext hid.symm hdata.symm), rfl⟩
        | some error => cases htail
      | cons second rest => cases htail
  refine ⟨loop, hreach, hframes, (hrecv _ (List.append_nil _) _ _).mpr ?_⟩
  rw [honly.1, honly.2]
  exact ⟨rfl, rfl⟩

end Dragonmouth.Transports
