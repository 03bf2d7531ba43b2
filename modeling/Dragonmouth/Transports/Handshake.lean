import Dragonmouth.Foundations.Checks
import Dragonmouth.Transports.SendLoop

/-!
# The handshake of the QUIC server

`handle_request` reads the request of a client, checks its token and the number
of streams it asks for, and subscribes. Transport errors other than the end of
the request are left out. Decoding and subscribing are parameters.

## Main definitions

- `QuicSubscribeRequest`, `QuicSubscribeResponse`: what is exchanged
- `QuicServer.handleRequest`: the response, and the subscription if accepted
- `QuicServer.Accepts`: what is checked of a request
-/

namespace Dragonmouth.Transports

open Checks
open Plugin (RichatFilter SubscribeError)

structure QuicSubscribeRequest where
  xToken : Option Bytes
  recvStreams : ℕ
  maxBacklog : Option ℕ
  replayFromSlot : Option Slot
  filter : Option RichatFilter

inductive QuicSubscribeResponseError where
  | zeroRecvStreams
  | exceedRecvStreams
  | notInitialized
  | slotNotAvailable
  | requestSizeTooLarge
  | xTokenRequired
  | xTokenInvalid
  deriving DecidableEq

/-- The number of an error in the schema. -/
def QuicSubscribeResponseError.toInt32 : QuicSubscribeResponseError → ℤ
  | .zeroRecvStreams => 0
  | .exceedRecvStreams => 1
  | .notInitialized => 2
  | .slotNotAvailable => 3
  | .requestSizeTooLarge => 4
  | .xTokenRequired => 5
  | .xTokenInvalid => 6

structure QuicSubscribeResponse where
  error : Option ℤ
  maxRecvStreams : Option ℕ
  firstAvailableSlot : Option Slot
  deriving DecidableEq

/-- `QuicSubscribeResponse::default`. -/
def QuicSubscribeResponse.default : QuicSubscribeResponse := ⟨none, none, none⟩

/-- A response that carries an error and nothing else. -/
def QuicSubscribeResponse.ofError (error : QuicSubscribeResponseError) : QuicSubscribeResponse :=
  { QuicSubscribeResponse.default with error := some error.toInt32 }

/-- The errors that end a connection during the handshake. -/
inductive ConnectionError where
  /-- the stream ended within the size -/
  | io
  /-- the stream ended within the request -/
  | quinnReadExact
  | prost (description : String)
  deriving DecidableEq

/-- `read_u64`: eight bytes, the most significant first, and what follows them. -/
def readU64 (recv : Bytes) : Option (ℕ × Bytes) :=
  if recv.length < 8 then none
  else some ((recv.take 8).foldl (fun value byte => value * 256 + byte.toNat) 0, recv.drop 8)

/-- What a connection is handled with; `subscribe` yields a receiver of type `Rx`. -/
structure QuicServer (Rx : Type) where
  maxRecvStreams : ℕ
  maxRequestSize : ℕ
  xTokens : Finset Bytes
  decode : Bytes → Except String QuicSubscribeRequest
  subscribe : Option Slot → Option RichatFilter → Except SubscribeError Rx

namespace QuicServer

variable {Rx : Type} (server : QuicServer Rx)

/-- Read request: `none` if its size is too large. -/
def readRequest (recv : Bytes) : Except ConnectionError (Option Bytes) :=
  match readU64 recv with
  | none => .error .io
  | some (size, rest) =>
    if size > server.maxRequestSize then .ok none
    else if rest.length < size then .error .quinnReadExact
    else .ok (some (rest.take size))

/-- Verify access token. -/
def verifyToken (xToken : Option Bytes) : Option QuicSubscribeResponseError :=
  if server.xTokens = ∅ then none
  else
    match xToken with
    | some xToken => if xToken ∈ server.xTokens then none else some .xTokenInvalid
    | none => some .xTokenRequired

/-- Validate number of streams. -/
def validateStreams (recvStreams : ℕ) : Option QuicSubscribeResponseError :=
  if recvStreams = 0 then some .zeroRecvStreams
  else if recvStreams > server.maxRecvStreams then some .exceedRecvStreams
  else none

/-- The answer to a decoded request: the response, and for an accepted one the
streams, the backlog and the receiver of its send loop. -/
def answer (request : QuicSubscribeRequest) :
    QuicSubscribeResponse × Option (ℕ × ℕ × Rx) :=
  match server.verifyToken request.xToken with
  | some error => (.ofError error, none)
  | none =>
    match server.validateStreams request.recvStreams with
    | some code =>
      ({ QuicSubscribeResponse.ofError code with
          maxRecvStreams := some server.maxRecvStreams }, none)
    | none =>
      match server.subscribe request.replayFromSlot request.filter with
      | .ok rx =>
        (.default, some (request.recvStreams, request.maxBacklog.getD (2 ^ 64 - 1), rx))
      | .error .notInitialized => (.ofError .notInitialized, none)
      | .error (.slotNotAvailable firstAvailable) =>
        ({ QuicSubscribeResponse.ofError .slotNotAvailable with
            firstAvailableSlot := some firstAvailable }, none)

/-- `QuicServer::handle_request`. -/
def handleRequest (recv : Bytes) :
    Except ConnectionError (QuicSubscribeResponse × Option (ℕ × ℕ × Rx)) := do
  match ← server.readRequest recv with
  | none => .ok (.ofError .requestSizeTooLarge, none)
  | some buf =>
    let request ← Except.mapError ConnectionError.prost (server.decode buf)
    .ok (server.answer request)

/-- What is checked of a request before its send loop starts. -/
structure Accepts (request : QuicSubscribeRequest) (recvStreams maxBacklog : ℕ) (rx : Rx) :
    Prop where
  token : server.xTokens = ∅ ∨ ∃ xToken ∈ server.xTokens, request.xToken = some xToken
  streams : 0 < request.recvStreams ∧ request.recvStreams ≤ server.maxRecvStreams
  subscribed : server.subscribe request.replayFromSlot request.filter = .ok rx
  recvStreams_eq : recvStreams = request.recvStreams
  maxBacklog_eq : maxBacklog = request.maxBacklog.getD (2 ^ 64 - 1)

variable {server} {recv : Bytes} {request : QuicSubscribeRequest}
  {response : QuicSubscribeResponse} {recvStreams maxBacklog : ℕ} {rx : Rx}

theorem verifyToken_none {xToken : Option Bytes} (h : server.verifyToken xToken = none) :
    server.xTokens = ∅ ∨ ∃ token ∈ server.xTokens, xToken = some token := by
  simp only [verifyToken] at h
  split at h
  · rename_i hempty
    exact .inl hempty
  · cases xToken with
    | none => cases h
    | some token =>
      by_cases hmem : token ∈ server.xTokens
      · exact .inr ⟨token, hmem, rfl⟩
      · simp only [if_neg hmem] at h
        cases h

theorem validateStreams_none {streams : ℕ} (h : server.validateStreams streams = none) :
    0 < streams ∧ streams ≤ server.maxRecvStreams := by
  rw [validateStreams] at h
  split at h
  · cases h
  · split at h
    · cases h
    · omega

/-- An accepted request has passed every check. -/
theorem answer_accepts
    (h : server.answer request = (response, some (recvStreams, maxBacklog, rx))) :
    response = .default ∧ server.Accepts request recvStreams maxBacklog rx := by
  rw [answer] at h
  cases htoken : server.verifyToken request.xToken with
  | some error =>
    rw [htoken] at h
    cases h
  | none =>
    cases hstreams : server.validateStreams request.recvStreams with
    | some code =>
      simp only [htoken, hstreams] at h
      cases h
    | none =>
      cases hsub : server.subscribe request.replayFromSlot request.filter with
      | ok rx' =>
        simp only [htoken, hstreams, hsub] at h
        cases h
        exact ⟨rfl, verifyToken_none htoken, validateStreams_none hstreams, hsub, rfl, rfl⟩
      | error e =>
        cases e <;> simp only [htoken, hstreams, hsub] at h <;> cases h

/-- A connection whose send loop starts has sent a request that was accepted. -/
theorem handleRequest_accepts
    (h : server.handleRequest recv = .ok (response, some (recvStreams, maxBacklog, rx))) :
    ∃ buf request, server.readRequest recv = .ok (some buf) ∧ server.decode buf = .ok request ∧
      server.Accepts request recvStreams maxBacklog rx := by
  obtain ⟨buf?, hread, hrest⟩ := bind_eq_ok.mp h
  cases buf? with
  | none => cases hrest
  | some buf =>
    obtain ⟨request, hdecode, hanswer⟩ := bind_eq_ok.mp hrest
    exact ⟨buf, request, hread, mapError_eq_ok.mp hdecode,
      (answer_accepts (Except.ok.inj hanswer)).2⟩

end QuicServer

end Dragonmouth.Transports
