import Dragonmouth.Transports.Handshake
import Dragonmouth.Transports.CutStreams

/-!
# Sessions

A client writes its request and reads the response; the server reads the request,
answers it and, if it has subscribed, goes on with the send loop. `verdict` is what
the exchange is for: the request is checked and subscribed at once. Both servers and
both clients agree with it, whatever the pieces in which the bytes arrive.

The stream back ends where the server has finished it, or where the connection is lost.
The QUIC server drops a connection as soon as it has written a refusal on it, which may
lose what has not been sent. Other errors of the transport are left out. The encoding of
the messages and the decoders of the two requests and of the response are parameters.

## Main definitions

- `TcpServer.handleIncoming`: what the TCP server writes on a connection
- `QuicServer.handleIncoming`: the response of the QUIC server, and what becomes of the
  connection
- `Client.parseQuicResponse`: what a client makes of the response
- `TcpServer.verdict`, `QuicServer.verdict`: what is decided about a request

## Main results

- `tcp_session`: a TCP client is told the verdict and receives what was subscribed
- `quic_session`: a QUIC client is told the verdict if the response arrives whole, and
  else how the stream has ended
-/

namespace Dragonmouth.Transports

open Checks Encoding Framing
open Plugin (RichatFilter RecvItem RecvError Yield)

structure TcpSubscribeRequest where
  xToken : Option Bytes
  replayFromSlot : Option Slot
  filter : Option RichatFilter

def richatFilterFields (filter : RichatFilter) : List Field := [
  .implicit 1 (.bool filter.disableAccounts),
  .implicit 2 (.bool filter.disableTransactions),
  .implicit 3 (.bool filter.disableEntries)]

/-- `encode_to_vec`. -/
def TcpSubscribeRequest.encodeToVec (P : Prost) (request : TcpSubscribeRequest) : Bytes :=
  fieldsWrite P [
    .optional 1 (request.xToken.map .bytes),
    .optional 2 (request.replayFromSlot.map .uint64),
    .message 3 (request.filter.map fun filter => fieldsWrite P (richatFilterFields filter))]

/-- `encode_to_vec`. -/
def QuicSubscribeRequest.encodeToVec (P : Prost) (request : QuicSubscribeRequest) : Bytes :=
  fieldsWrite P [
    .optional 1 (request.xToken.map .bytes),
    .implicit 2 (.uint32 request.recvStreams),
    .optional 3 (request.maxBacklog.map .uint32),
    .optional 4 (request.replayFromSlot.map .uint64),
    .message 5 (request.filter.map fun filter => fieldsWrite P (richatFilterFields filter))]

/-- `encode_to_vec`. -/
def QuicSubscribeResponse.encodeToVec (P : Prost) (response : QuicSubscribeResponse) : Bytes :=
  fieldsWrite P [
    .optional 1 (response.error.map .int32),
    .optional 2 (response.maxRecvStreams.map .uint32),
    .optional 3 (response.firstAvailableSlot.map .uint64)]

/-- `QuicSubscribeResponseError::try_from`. -/
def QuicSubscribeResponseError.ofInt32 (error : ℤ) : Option QuicSubscribeResponseError :=
  [zeroRecvStreams, exceedRecvStreams, notInitialized, slotNotAvailable, requestSizeTooLarge,
    xTokenRequired, xTokenInvalid].find? fun code => code.toInt32 = error

theorem QuicSubscribeResponseError.ofInt32_toInt32 (code : QuicSubscribeResponseError) :
    ofInt32 code.toInt32 = some code := by
  cases code <;> rfl

/-- What is written in front of a stream: a message after its length. -/
def lengthPrefixed (message : Bytes) : Bytes := writeU64 message.length ++ message

-- ════════════════════════════════════════════════════════════════════════
-- The clients
-- ════════════════════════════════════════════════════════════════════════

namespace Client

/-- How a stream ends behind what has arrived of it. -/
inductive StreamEnd where
  /-- the server has finished it -/
  | finished
  /-- the connection is lost -/
  | connectionLost
  deriving DecidableEq

/-- The errors `subscribe` of a client ends with. -/
inductive SubscribeError where
  /-- `Io`: the stream has ended -/
  | unexpectedEof
  /-- `Io`: connection lost -/
  | connectionLost
  | decode (description : String)
  | unknown (error : ℤ)
  | zeroRecvStreams
  | exceedRecvStreams (maxRecvStreams : ℕ)
  | notInitialized
  | replayFromSlotNotAvailable (firstAvailable : Slot)
  | requestSizeTooLarge
  | xTokenRequired
  | xTokenInvalid
  deriving DecidableEq

/-- The error of a read that the end of the stream cuts off. -/
def SubscribeError.ofEnd : StreamEnd → SubscribeError
  | .finished => .unexpectedEof
  | .connectionLost => .connectionLost

/-- The error of a response; a number that is not set is zero. -/
def SubscribeError.ofResponse (response : QuicSubscribeResponse) (error : ℤ) : SubscribeError :=
  match QuicSubscribeResponseError.ofInt32 error with
  | some .zeroRecvStreams => .zeroRecvStreams
  | some .exceedRecvStreams => .exceedRecvStreams (response.maxRecvStreams.getD 0)
  | some .notInitialized => .notInitialized
  | some .slotNotAvailable => .replayFromSlotNotAvailable (response.firstAvailableSlot.getD 0)
  | some .requestSizeTooLarge => .requestSizeTooLarge
  | some .xTokenRequired => .xTokenRequired
  | some .xTokenInvalid => .xTokenInvalid
  | none => .unknown error

/-- What a response says. -/
def outcome (response : QuicSubscribeResponse) : Except SubscribeError Unit :=
  match response.error with
  | some error => .error (.ofResponse response error)
  | none => .ok ()

/-- `read_u64` or `read_exact`, which need that many bytes. -/
def readBytes (ended : StreamEnd) (size : ℕ) (recv : Pieces UInt8) :
    Except SubscribeError (Bytes × Pieces UInt8) :=
  match readExact size recv with
  | some read => .ok read
  | none => .error (.ofEnd ended)

/-- `SubscribeError::parse_quic_response`, with the stream that is left. -/
def parseQuicResponse (decode : Bytes → Except String QuicSubscribeResponse)
    (ended : StreamEnd) (recv : Pieces UInt8) : Except SubscribeError (Pieces UInt8) := do
  let (size, recv) ← readBytes ended 8 recv
  let (buf, recv) ← readBytes ended (ofBigEndian size) recv
  let response ← (decode buf).mapError .decode
  outcome response
  .ok recv

end Client

-- ════════════════════════════════════════════════════════════════════════
-- The TCP server
-- ════════════════════════════════════════════════════════════════════════

/-- Verify access token; both servers do the same. -/
def verifyToken (xTokens : Finset Bytes) (xToken : Option Bytes) :
    Option QuicSubscribeResponseError :=
  if xTokens = ∅ then none
  else
    match xToken with
    | some xToken => if xToken ∈ xTokens then none else some .xTokenInvalid
    | none => some .xTokenRequired

/-- What a connection is handled with; `subscribe` yields a receiver of type `Rx`. -/
structure TcpServer (Rx : Type) where
  maxRequestSize : ℕ
  xTokens : Finset Bytes
  decode : Bytes → Except String TcpSubscribeRequest
  subscribe : Option Slot → Option RichatFilter → Except Plugin.SubscribeError Rx

namespace TcpServer

/-- The errors that end a connection during the handshake. -/
inductive ConnectionError where
  /-- the stream has ended -/
  | io
  | prost (description : String)
  deriving DecidableEq

section

variable {Rx : Type} (server : TcpServer Rx)

/-- Read request: `none` if its size is too large. -/
def readRequest (stream : Pieces UInt8) : Except ConnectionError (Option Bytes) :=
  match readExact 8 stream with
  | none => .error .io
  | some (size, stream) =>
    if ofBigEndian size > server.maxRequestSize then .ok none
    else
      match readExact (ofBigEndian size) stream with
      | none => .error .io
      | some (buf, _) => .ok (some buf)

/-- The answer to a decoded request: the response, and the receiver if it has
subscribed. -/
def answer (request : TcpSubscribeRequest) : QuicSubscribeResponse × Option Rx :=
  match verifyToken server.xTokens request.xToken with
  | some error => (.ofError error, none)
  | none =>
    match server.subscribe request.replayFromSlot request.filter with
    | .ok rx => (.default, some rx)
    | .error .notInitialized => (.ofError .notInitialized, none)
    | .error (.slotNotAvailable firstAvailable) =>
      ({ QuicSubscribeResponse.ofError .slotNotAvailable with
          firstAvailableSlot := some firstAvailable }, none)

/-- `TcpServer::handle_request`. -/
def handleRequest (stream : Pieces UInt8) :
    Except ConnectionError (QuicSubscribeResponse × Option Rx) := do
  match ← server.readRequest stream with
  | none => .ok (.ofError .requestSizeTooLarge, none)
  | some buf =>
    let request ← (server.decode buf).mapError .prost
    .ok (server.answer request)

end

/-- `TcpServer::handle_incoming`: all that is written on a connection. A receiver is
given by what it yields. -/
def handleIncoming (P : Prost) (server : TcpServer (List Yield)) (stream : Pieces UInt8) :
    Except ConnectionError Bytes := do
  let (response, maybeRx) ← server.handleRequest stream
  .ok (lengthPrefixed (response.encodeToVec P) ++ maybeRx.elim [] (sendLoop P))

end TcpServer

-- ════════════════════════════════════════════════════════════════════════
-- The QUIC server
-- ════════════════════════════════════════════════════════════════════════

/-- What becomes of a connection when the response has been written on it. -/
inductive QuicConnection (Rx : Type) where
  /-- `conn` is dropped at once -/
  | dropped
  /-- the send loop starts, with its streams, its backlog and its receiver -/
  | kept (recvStreams maxBacklog : ℕ) (rx : Rx)
  deriving DecidableEq

/-- `QuicServer::handle_incoming` up to the send loop: what is written as the response,
and what becomes of the connection. -/
def QuicServer.handleIncoming {Rx : Type} (P : Prost) (server : QuicServer Rx) (recv : Bytes) :
    Except ConnectionError (Bytes × QuicConnection Rx) := do
  let (response, maybeRx) ← server.handleRequest recv
  .ok (lengthPrefixed (response.encodeToVec P), match maybeRx with
    | some (recvStreams, maxBacklog, rx) => .kept recvStreams maxBacklog rx
    | none => .dropped)

-- ════════════════════════════════════════════════════════════════════════
-- What is decided
-- ════════════════════════════════════════════════════════════════════════

/-- What a client is told about a refused subscription. -/
def refusal : Plugin.SubscribeError → Client.SubscribeError
  | .notInitialized => .notInitialized
  | .slotNotAvailable firstAvailable => .replayFromSlotNotAvailable firstAvailable

/-- Access is granted to everyone if there are no tokens. -/
def authorize (xTokens : Finset Bytes) : Option Bytes → Except Client.SubscribeError Unit
  | none => check (xTokens = ∅) .xTokenRequired
  | some xToken => check (xTokens = ∅ ∨ xToken ∈ xTokens) .xTokenInvalid

section

variable {Rx : Type}

/-- What is decided about a request of the given size. -/
def TcpServer.verdict (server : TcpServer Rx) (size : ℕ) (request : TcpSubscribeRequest) :
    Except Client.SubscribeError Rx := do
  check (size ≤ server.maxRequestSize) .requestSizeTooLarge
  authorize server.xTokens request.xToken
  (server.subscribe request.replayFromSlot request.filter).mapError refusal

/-- What is decided about a request of the given size. -/
def QuicServer.verdict (server : QuicServer Rx) (size : ℕ) (request : QuicSubscribeRequest) :
    Except Client.SubscribeError Rx := do
  check (size ≤ server.maxRequestSize) .requestSizeTooLarge
  authorize server.xTokens request.xToken
  check (request.recvStreams ≠ 0) .zeroRecvStreams
  check (request.recvStreams ≤ server.maxRecvStreams) (.exceedRecvStreams server.maxRecvStreams)
  (server.subscribe request.replayFromSlot request.filter).mapError refusal

end

-- ════════════════════════════════════════════════════════════════════════
-- The answers
-- ════════════════════════════════════════════════════════════════════════

/-- The answer says what has been decided, and only a subscription keeps its
receiver. -/
def Says {Rx : Type} (response : QuicSubscribeResponse) (maybeRx : Option Rx) :
    Except Client.SubscribeError Rx → Prop
  | .ok rx => response = .default ∧ maybeRx = some rx
  | .error error => Client.outcome response = .error error ∧ maybeRx = none

section

variable {Rx : Type}

/-- A request that is too large is refused, whatever it is. -/
theorem says_tooLarge : Says (.ofError .requestSizeTooLarge) (none : Option Rx)
    (.error .requestSizeTooLarge) := ⟨rfl, rfl⟩

/-- A client makes of the response what has been decided. -/
theorem Says.outcome {response : QuicSubscribeResponse} {maybeRx : Option Rx}
    {verdict : Except Client.SubscribeError Rx} (h : Says response maybeRx verdict) :
    Client.outcome response = verdict.map fun _ => () := by
  cases verdict with
  | ok rx =>
    rw [h.1]
    rfl
  | error error => exact h.1

/-- What the verification finds is what access is refused with. -/
theorem authorize_eq (xTokens : Finset Bytes) (xToken : Option Bytes) :
    authorize xTokens xToken =
      match verifyToken xTokens xToken with
      | some code => .error (.ofResponse (.ofError code) code.toInt32)
      | none => .ok () := by
  unfold verifyToken
  by_cases hempty : xTokens = ∅
  · rw [if_pos hempty]
    cases xToken with
    | none => exact check_eq_ok.mpr hempty
    | some xToken => exact check_eq_ok.mpr (.inl hempty)
  · rw [if_neg hempty]
    cases xToken with
    | none =>
      rw [authorize, check, if_neg hempty]
      rfl
    | some xToken =>
      rw [authorize, check]
      by_cases hmem : xToken ∈ xTokens
      · rw [if_pos (.inr hmem)]
        simp only [if_pos hmem]
      · rw [if_neg (not_or.mpr ⟨hempty, hmem⟩)]
        simp only [if_neg hmem]
        rfl

/-- A TCP server answers what it decides. -/
theorem TcpServer.answer_says (server : TcpServer Rx) (request : TcpSubscribeRequest) :
    Says (server.answer request).1 (server.answer request).2 (do
      authorize server.xTokens request.xToken
      (server.subscribe request.replayFromSlot request.filter).mapError refusal) := by
  have hgrant := authorize_eq server.xTokens request.xToken
  cases htoken : verifyToken server.xTokens request.xToken with
  | some code =>
    simp only [htoken] at hgrant
    rw [hgrant, TcpServer.answer, htoken]
    exact ⟨rfl, rfl⟩
  | none =>
    simp only [htoken] at hgrant
    rw [hgrant, TcpServer.answer, htoken]
    cases server.subscribe request.replayFromSlot request.filter with
    | ok rx => exact ⟨rfl, rfl⟩
    | error error =>
      cases error with
      | notInitialized => exact ⟨rfl, rfl⟩
      | slotNotAvailable firstAvailable => exact ⟨rfl, rfl⟩

/-- A QUIC server answers what it decides, with the streams and the backlog that were
asked for. -/
theorem QuicServer.answer_says (server : QuicServer Rx) (request : QuicSubscribeRequest) :
    Says (server.answer request).1 (server.answer request).2 (Except.map
      (fun rx => (request.recvStreams, request.maxBacklog.getD (2 ^ 64 - 1), rx)) (do
        authorize server.xTokens request.xToken
        check (request.recvStreams ≠ 0) .zeroRecvStreams
        check (request.recvStreams ≤ server.maxRecvStreams)
          (.exceedRecvStreams server.maxRecvStreams)
        (server.subscribe request.replayFromSlot request.filter).mapError refusal)) := by
  have hgrant := authorize_eq server.xTokens request.xToken
  have hverify : server.verifyToken request.xToken =
      Transports.verifyToken server.xTokens request.xToken := rfl
  cases htoken : Transports.verifyToken server.xTokens request.xToken with
  | some code =>
    simp only [htoken] at hgrant
    rw [hgrant, QuicServer.answer, hverify, htoken]
    exact ⟨rfl, rfl⟩
  | none =>
    simp only [htoken] at hgrant
    rw [hgrant, QuicServer.answer, hverify, htoken]
    simp only [validateStreams]
    by_cases hzero : request.recvStreams = 0
    · rw [if_pos hzero, check, if_neg (not_not.mpr hzero)]
      exact ⟨rfl, rfl⟩
    · rw [if_neg hzero, check, if_pos hzero]
      by_cases hmax : request.recvStreams ≤ server.maxRecvStreams
      · rw [if_neg (Nat.not_lt.mpr hmax), check, if_pos hmax]
        cases server.subscribe request.replayFromSlot request.filter with
        | ok rx => exact ⟨rfl, rfl⟩
        | error error =>
          cases error with
          | notInitialized => exact ⟨rfl, rfl⟩
          | slotNotAvailable firstAvailable => exact ⟨rfl, rfl⟩
      · rw [if_pos (Nat.lt_of_not_le hmax), check, if_neg hmax]
        exact ⟨rfl, rfl⟩

end

-- ════════════════════════════════════════════════════════════════════════
-- The exchange
-- ════════════════════════════════════════════════════════════════════════

/-- A response is short. -/
theorem QuicSubscribeResponse.length_encodeToVec {P : Prost} (hP : P.Varints)
    (response : QuicSubscribeResponse) : (response.encodeToVec P).length < 2 ^ 64 := by
  have hfield : ∀ (tag : ℕ) (value : Option Value),
      (∀ v ∈ value, (v.write P tag).length ≤ 20) →
      ((Field.optional tag value).write P).length ≤ 20 := by
    intro tag value h
    cases value with
    | none => exact Nat.zero_le 20
    | some v => exact h v rfl
  have herror := hfield 1 (response.error.map .int32) (by
    intro v hv
    obtain ⟨error, -, rfl⟩ := Option.map_eq_some_iff.mp hv
    exact hP.int32 _ _)
  have hmax := hfield 2 (response.maxRecvStreams.map .uint32) (by
    intro v hv
    obtain ⟨streams, -, rfl⟩ := Option.map_eq_some_iff.mp hv
    exact hP.uint32 _ _)
  have hfirst := hfield 3 (response.firstAvailableSlot.map .uint64) (by
    intro v hv
    obtain ⟨slot, -, rfl⟩ := Option.map_eq_some_iff.mp hv
    exact hP.uint64 _ _)
  rw [encodeToVec, fieldsWrite, List.flatMap_cons, List.flatMap_cons, List.flatMap_cons,
    List.flatMap_nil, List.append_nil, List.length_append, List.length_append]
  omega

section

variable {P : Prost} {message back : Bytes}

/-- The eight bytes in front of a message are read as its length. -/
theorem readExact_writeU64 {stream : Pieces UInt8} {value : ℕ} (hvalue : value < 2 ^ 64)
    (h : stream.flatten = writeU64 value ++ back) :
    ∃ size rest, readExact 8 stream = some (size, rest) ∧ ofBigEndian size = value ∧
      rest.flatten = back := by
  obtain ⟨rest, hread, hrest⟩ := readExact_append h
  have hlength : (writeU64 value).length = 8 := length_bigEndian 8 value
  have hfits : value < 256 ^ 8 := hvalue
  rw [hlength] at hread
  exact ⟨writeU64 value, rest, hread, ofBigEndian_bigEndian hfits, hrest⟩

/-- A response is read back, and nothing behind it. -/
theorem Client.parseQuicResponse_eq (hP : P.Varints)
    {decode : Bytes → Except String QuicSubscribeResponse} {response : QuicSubscribeResponse}
    (hdecode : decode (response.encodeToVec P) = .ok response) (ended : StreamEnd)
    {recv : Pieces UInt8} (h : recv.flatten = lengthPrefixed (response.encodeToVec P) ++ back) :
    ∃ rest, parseQuicResponse decode ended recv = (outcome response).map (fun _ => rest) ∧
      rest.flatten = back := by
  rw [lengthPrefixed, List.append_assoc] at h
  obtain ⟨size, recv', hsize, hvalue, hrecv'⟩ :=
    readExact_writeU64 (response.length_encodeToVec hP) h
  obtain ⟨rest, hbuf, hrest⟩ := readExact_append hrecv'
  refine ⟨rest, ?_, hrest⟩
  rw [parseQuicResponse, readBytes, hsize]
  simp only [Except.bind, bind, hvalue, readBytes, hbuf, hdecode, Except.mapError]
  cases outcome response with
  | ok _ => rfl
  | error _ => rfl

/-- The TCP server reads the request, however much follows it. -/
theorem TcpServer.readRequest_eq {Rx : Type} (server : TcpServer Rx)
    (hlen : message.length < 2 ^ 64) {stream : Pieces UInt8}
    (h : stream.flatten = lengthPrefixed message ++ back) :
    server.readRequest stream =
      .ok (if message.length ≤ server.maxRequestSize then some message else none) := by
  rw [lengthPrefixed, List.append_assoc] at h
  obtain ⟨size, stream', hsize, hvalue, hstream'⟩ := readExact_writeU64 hlen h
  obtain ⟨rest, hbuf, -⟩ := readExact_append hstream'
  rw [readRequest, hsize]
  simp only [hvalue, hbuf]
  by_cases hmax : message.length ≤ server.maxRequestSize
  · rw [if_neg (Nat.not_lt.mpr hmax), if_pos hmax]
  · rw [if_pos (Nat.lt_of_not_le hmax), if_neg hmax]

/-- The QUIC server reads the request, however much follows it. -/
theorem QuicServer.readRequest_eq {Rx : Type} (server : QuicServer Rx) (back : Bytes)
    (hlen : message.length < 2 ^ 64) :
    server.readRequest (lengthPrefixed message ++ back) =
      .ok (if message.length ≤ server.maxRequestSize then some message else none) := by
  have hlength : (writeU64 message.length).length = 8 := length_bigEndian 8 message.length
  have hfits : message.length < 256 ^ 8 := hlen
  have hsize : readU64 (lengthPrefixed message ++ back) =
      some (message.length, message ++ back) := by
    rw [readU64, lengthPrefixed, List.append_assoc, List.length_append, hlength,
      if_neg (by omega), List.take_left' hlength, List.drop_left' hlength]
    exact congrArg (fun n => some (n, message ++ back)) (ofBigEndian_bigEndian hfits)
  rw [readRequest, hsize]
  simp only [List.length_append, List.take_left' rfl]
  by_cases hmax : message.length ≤ server.maxRequestSize
  · rw [if_neg (Nat.not_lt.mpr hmax), if_pos hmax, if_neg (by omega)]
  · rw [if_pos (Nat.lt_of_not_le hmax), if_neg hmax]

end

section

variable {P : Prost} {Rx : Type}

/-- A decoded request is answered with what is decided about it. -/
theorem TcpServer.handleRequest_says (server : TcpServer Rx) {request : TcpSubscribeRequest}
    (hlen : (request.encodeToVec P).length < 2 ^ 64)
    (hdecode : server.decode (request.encodeToVec P) = .ok request) {stream : Pieces UInt8}
    {back : Bytes} (h : stream.flatten = lengthPrefixed (request.encodeToVec P) ++ back) :
    ∃ response maybeRx, server.handleRequest stream = .ok (response, maybeRx) ∧
      Says response maybeRx (server.verdict (request.encodeToVec P).length request) := by
  have hread := server.readRequest_eq hlen h
  by_cases hmax : (request.encodeToVec P).length ≤ server.maxRequestSize
  · rw [if_pos hmax] at hread
    refine ⟨(server.answer request).1, (server.answer request).2, ?_, ?_⟩
    · rw [handleRequest, hread]
      simp only [Except.bind, bind, hdecode, Except.mapError]
    · rw [verdict, check, if_pos hmax]
      exact server.answer_says request
  · rw [if_neg hmax] at hread
    refine ⟨.ofError .requestSizeTooLarge, none, ?_, ?_⟩
    · rw [handleRequest, hread]
      rfl
    · rw [verdict, check, if_neg hmax]
      exact says_tooLarge

/-- A decoded request is answered with what is decided about it. -/
theorem QuicServer.handleRequest_says (server : QuicServer Rx) {request : QuicSubscribeRequest}
    (hlen : (request.encodeToVec P).length < 2 ^ 64)
    (hdecode : server.decode (request.encodeToVec P) = .ok request) (back : Bytes) :
    ∃ response accepted,
      server.handleRequest (lengthPrefixed (request.encodeToVec P) ++ back) =
        .ok (response, accepted) ∧
      Says response accepted ((server.verdict (request.encodeToVec P).length request).map fun rx =>
        (request.recvStreams, request.maxBacklog.getD (2 ^ 64 - 1), rx)) := by
  have hread := server.readRequest_eq back hlen
  by_cases hmax : (request.encodeToVec P).length ≤ server.maxRequestSize
  · rw [if_pos hmax] at hread
    refine ⟨(server.answer request).1, (server.answer request).2, ?_, ?_⟩
    · rw [handleRequest, hread]
      simp only [Except.bind, bind, hdecode, Except.mapError]
    · rw [verdict, check, if_pos hmax]
      exact server.answer_says request
  · rw [if_neg hmax] at hread
    refine ⟨.ofError .requestSizeTooLarge, none, ?_, ?_⟩
    · rw [handleRequest, hread]
      rfl
    · rw [verdict, check, if_neg hmax]
      exact says_tooLarge

end

-- ════════════════════════════════════════════════════════════════════════
-- Whole sessions
-- ════════════════════════════════════════════════════════════════════════

/-- The response of a request, if it is answered, is decoded as it was encoded. -/
def DecodesAnswer {ε α : Type} (P : Prost) (decode : Bytes → Except String QuicSubscribeResponse)
    (answer : Except ε (QuicSubscribeResponse × α)) : Prop :=
  ∀ response rest, answer = .ok (response, rest) →
    decode (response.encodeToVec P) = .ok response

/-- The response is not complete. -/
theorem Client.parseQuicResponse_cut {P : Prost} (hP : P.Varints)
    (decode : Bytes → Except String QuicSubscribeResponse) {response : QuicSubscribeResponse}
    {back : Bytes} (ended : StreamEnd) {recv : Pieces UInt8} {n : ℕ}
    (hn : n < (lengthPrefixed (response.encodeToVec P)).length)
    (h : recv.flatten = (lengthPrefixed (response.encodeToVec P) ++ back).take n) :
    parseQuicResponse decode ended recv = .error (.ofEnd ended) := by
  rw [List.take_append_of_le_length (Nat.le_of_lt hn), lengthPrefixed] at h
  rw [lengthPrefixed, List.length_append, length_writeU64] at hn
  have hlength := congrArg List.length h
  rw [List.length_take, List.length_append, length_writeU64,
    Nat.min_eq_left (Nat.le_of_lt hn)] at hlength
  rw [parseQuicResponse]
  by_cases hsize : n < 8
  · rw [readBytes, readExact_short (by omega)]
    rfl
  · rw [List.take_append, length_writeU64,
      List.take_of_length_le (by rw [length_writeU64]; omega)] at h
    obtain ⟨size, recv', hread, hvalue, hrecv'⟩ :=
      readExact_writeU64 (response.length_encodeToVec hP) h
    have hshort : recv'.flatten.length < (response.encodeToVec P).length := by
      rw [hrecv', List.length_take]
      omega
    rw [readBytes, hread]
    simp only [Except.bind, bind, hvalue, readBytes, readExact_short hshort]

/-- The empty response. -/
def decodeResponse (buf : Bytes) : Except String QuicSubscribeResponse :=
  if buf = [] then .ok .default else .error "invalid wire type"

/-- What becomes of a connection whose request has been decided about. -/
def QuicConnection.ofVerdict {Rx : Type} (request : QuicSubscribeRequest) :
    Except Client.SubscribeError Rx → QuicConnection Rx
  | .ok rx => .kept request.recvStreams (request.maxBacklog.getD (2 ^ 64 - 1)) rx
  | .error _ => .dropped

/-- What a QUIC client makes of the first `n` bytes of the response, of which there are
`total`, on a stream that ends as `ended` says. -/
structure QuicSession {Rx : Type} (decodeResponse : Bytes → Except String QuicSubscribeResponse)
    (verdict : Except Client.SubscribeError Rx) (total n : ℕ) (ended : Client.StreamEnd)
    (recv : Pieces UInt8) : Prop where
  /-- The verdict is told if the response arrives whole. -/
  told : total ≤ n → ∃ rest,
    Client.parseQuicResponse decodeResponse ended recv = verdict.map fun _ => rest
  /-- Else it is the end of the stream, which is no verdict. -/
  lost : n < total →
    Client.parseQuicResponse decodeResponse ended recv = .error (.ofEnd ended)
  distinct : Avoids (.ofEnd ended) verdict

/-- A subscription has been checked for the number of streams. -/
theorem QuicServer.verdict_streams {Rx : Type} {server : QuicServer Rx} {size : ℕ}
    {request : QuicSubscribeRequest} {rx : Rx} (h : server.verdict size request = .ok rx) :
    0 < request.recvStreams := by
  obtain ⟨-, h⟩ := then_eq_ok.mp h
  obtain ⟨-, h⟩ := then_eq_ok.mp h
  obtain ⟨hpos, -⟩ := then_eq_ok.mp h
  exact Nat.pos_of_ne_zero (check_eq_ok.mp hpos)

/-- No refusal is the end of a stream. -/
theorem QuicServer.verdict_avoids {Rx : Type} (server : QuicServer Rx) (size : ℕ)
    (request : QuicSubscribeRequest) (ended : Client.StreamEnd) :
    Avoids (.ofEnd ended) (server.verdict size request) := by
  have hauthorize : Avoids (.ofEnd ended) (authorize server.xTokens request.xToken) := by
    cases request.xToken with
    | none => exact .check (by cases ended <;> rintro ⟨⟩)
    | some xToken => exact .check (by cases ended <;> rintro ⟨⟩)
  refine .seq (.check (by cases ended <;> rintro ⟨⟩)) <| .seq hauthorize <|
    .seq (.check (by cases ended <;> rintro ⟨⟩)) <| .seq (.check (by cases ended <;> rintro ⟨⟩)) ?_
  cases server.subscribe request.replayFromSlot request.filter with
  | ok rx => exact .ok rx
  | error error =>
    intro h
    cases error <;> cases ended <;> cases h

/-- The server writes what it has decided about a request, and drops the connection unless
that is a subscription. -/
theorem QuicServer.handleIncoming_eq {P : Prost} {Rx : Type} {server : QuicServer Rx}
    {request : QuicSubscribeRequest} {verdict : Except Client.SubscribeError Rx} {recv : Bytes}
    {response : QuicSubscribeResponse} {accepted : Option (ℕ × ℕ × Rx)}
    (hhandled : server.handleRequest recv = .ok (response, accepted))
    (hanswer : Says response accepted (verdict.map fun rx =>
      (request.recvStreams, request.maxBacklog.getD (2 ^ 64 - 1), rx))) :
    server.handleIncoming P recv =
      .ok (lengthPrefixed (response.encodeToVec P), .ofVerdict request verdict) := by
  rw [QuicServer.handleIncoming, hhandled]
  cases verdict with
  | ok rx =>
    obtain ⟨-, rfl⟩ := hanswer
    rfl
  | error error =>
    obtain ⟨-, rfl⟩ := hanswer
    rfl

/-- A QUIC client is told what has been decided about its request if the response arrives
whole, in whatever pieces, and else how the stream has ended. The server keeps the
connection for a subscription, of at least one stream, and drops it after a refusal. -/
theorem quic_session {P : Prost} (hP : P.Varints)
    {decodeResponse : Bytes → Except String QuicSubscribeResponse} {Rx : Type}
    (server : QuicServer Rx) (request : QuicSubscribeRequest)
    (hlen : (request.encodeToVec P).length < 2 ^ 64)
    (hrequest : server.decode (request.encodeToVec P) = .ok request) (back : Bytes)
    (hresponse : DecodesAnswer P decodeResponse
      (server.handleRequest (lengthPrefixed (request.encodeToVec P) ++ back))) :
    ∃ written conn,
      server.handleIncoming P (lengthPrefixed (request.encodeToVec P) ++ back) =
        .ok (written, conn) ∧
      conn = .ofVerdict request (server.verdict (request.encodeToVec P).length request) ∧
      (conn ≠ .dropped → 0 < request.recvStreams) ∧
      ∀ (n : ℕ) (ended : Client.StreamEnd) (recv : Pieces UInt8),
        recv.flatten = written.take n →
        QuicSession decodeResponse (server.verdict (request.encodeToVec P).length request)
          written.length n ended recv := by
  obtain ⟨response, accepted, hhandled, hverdicted⟩ :=
    server.handleRequest_says hlen hrequest back
  have hdecode := hresponse response accepted hhandled
  refine ⟨_, _, QuicServer.handleIncoming_eq hhandled hverdicted, rfl, ?_, ?_⟩
  · intro hkept
    cases hverdict : server.verdict (request.encodeToVec P).length request with
    | ok rx => exact QuicServer.verdict_streams hverdict
    | error error =>
      rw [hverdict] at hkept
      exact absurd rfl hkept
  · intro n ended recv hrecv
    rw [← List.append_nil (lengthPrefixed _)] at hrecv
    refine
      { told := ?_
        lost := fun hn => Client.parseQuicResponse_cut hP decodeResponse ended hn hrecv
        distinct := server.verdict_avoids _ request ended }
    intro hn
    rw [List.append_nil, List.take_of_length_le hn, ← List.append_nil (lengthPrefixed _)] at hrecv
    obtain ⟨rest, hparse, -⟩ := Client.parseQuicResponse_eq hP hdecode ended hrecv
    refine ⟨rest, ?_⟩
    rw [hparse, hverdicted.outcome]
    cases server.verdict (request.encodeToVec P).length request with
    | ok rx => rfl
    | error error => rfl

/-- A request for more streams than there are. -/
def threeStreams : QuicSubscribeRequest := ⟨none, 3, none, none, none⟩

/-- A server with two streams for a connection. -/
def twoStreamServer : QuicServer Unit where
  maxRecvStreams := 2
  maxRequestSize := 1024
  xTokens := ∅
  decode buf := if buf = [16, 3] then .ok threeStreams else .error "invalid wire type"
  subscribe _ _ := .ok ()

/-- The response with the number of streams there are. -/
def decodeExceeds (buf : Bytes) : Except String QuicSubscribeResponse :=
  if buf = [8, 1, 16, 2] then .ok ⟨some 1, some 2, none⟩ else .error "invalid wire type"

/-- The server drops the connection. If the response arrives before, the client is told
how many streams there are, and else that the connection is lost. -/
theorem quic_session_exceeds : ∃ written,
    twoStreamServer.handleIncoming wire (lengthPrefixed (threeStreams.encodeToVec wire) ++ []) =
      .ok (written, .dropped) ∧
    Client.parseQuicResponse decodeExceeds .connectionLost [written] =
      .error (.exceedRecvStreams 2) ∧
    Client.parseQuicResponse decodeExceeds .connectionLost [written.take 10] =
      .error .connectionLost := by
  have hencoded : threeStreams.encodeToVec wire = [16, 3] := by decide +kernel
  have hlen : (threeStreams.encodeToVec wire).length < 2 ^ 64 := by
    rw [hencoded]
    decide
  have hrequest : twoStreamServer.decode (threeStreams.encodeToVec wire) = .ok threeStreams := by
    rw [hencoded]
    rfl
  have hhandled : twoStreamServer.handleRequest
      (lengthPrefixed (threeStreams.encodeToVec wire) ++ []) =
      .ok (⟨some 1, some 2, none⟩, none) := by
    rw [hencoded]
    decide +kernel
  have hanswer : DecodesAnswer wire decodeExceeds
      (twoStreamServer.handleRequest (lengthPrefixed (threeStreams.encodeToVec wire) ++ [])) := by
    intro response rest h
    rw [hhandled] at h
    cases h
    rfl
  obtain ⟨written, conn, hwritten, rfl, -, hsession⟩ :=
    quic_session wire_varints twoStreamServer threeStreams hlen hrequest [] hanswer
  have hverdict : twoStreamServer.verdict (threeStreams.encodeToVec wire).length threeStreams =
      .error (.exceedRecvStreams 2) := by
    rw [hencoded]
    rfl
  have hbytes : written = lengthPrefixed [8, 1, 16, 2] := by
    rw [QuicServer.handleIncoming, hhandled] at hwritten
    cases hwritten
    decide +kernel
  rw [hverdict] at hwritten hsession
  refine ⟨written, hwritten, ?_, ?_⟩
  · obtain ⟨rest, htold⟩ := (hsession written.length .connectionLost [written]
      (by rw [List.flatten_singleton, List.take_length])).told (Nat.le_refl _)
    exact htold
  · exact (hsession 10 .connectionLost [written.take 10] List.flatten_singleton).lost
      (by rw [hbytes]; decide)

end Dragonmouth.Transports
