import Dragonmouth.Transports.Handshake
import Dragonmouth.Transports.SendLoopSafety

/-!
# Progress of the send loop

A waiting message keeps the loop from asking the channel for another one, and
without tasks there is nothing to join: a loop with a message and no task waits
for ever. An iteration without tasks hands its message over, since every stream
is idle and no id is in flight, if the window has room for one message.

## Main definitions

- `SendLoop.CanBecomeReady`: a branch of the select is not pending for ever
- `SendLoop.NeverWedges`: the loop always has such a branch
-/

namespace Dragonmouth.Transports

open Plugin (RecvItem)
open Encoding (Prost wire)

namespace SendLoop

variable {P : Prost} {loop loop' : SendLoop} {recvStreams maxBacklog : ℕ}

/-- The channel is polled, or there is a task to join. -/
def CanBecomeReady (loop : SendLoop) : Prop := loop.nextMessage = none ∨ loop.set ≠ []

/-- No reachable state waits for ever, and once the tasks have completed an
iteration hands over the message that waits. -/
structure NeverWedges (P : Prost) (recvStreams maxBacklog : ℕ) : Prop where
  ready : ∀ loop, Reachable P recvStreams maxBacklog loop → loop.phase = .select →
    loop.CanBecomeReady
  sendable : ∀ loop, Reachable P recvStreams maxBacklog loop → loop.phase = .head →
    loop.set = [] → (loop.dispatch P maxBacklog).nextMessage = none

/-- Without tasks every stream is idle. -/
theorem Pool.streams_of_idle (h : Pool P recvStreams loop) (hset : loop.set = []) :
    loop.streams.length = recvStreams := by
  have hlen := h.streams.length_eq
  rwa [hset, List.map_nil, List.append_nil, List.length_range] at hlen

/-- Without tasks no id is in flight. -/
theorem InFlight.firstId_of_idle (h : InFlight maxBacklog loop) (hset : loop.set = []) :
    loop.firstId = loop.msgId := by
  have hempty : ¬loop.msgIds.Nonempty := by
    rintro ⟨k, hk⟩
    rw [h.mem_iff, hset] at hk
    cases hk
  rw [firstId, dif_neg hempty]

/-- An iteration without tasks hands over the message that waits. -/
theorem Parts.dispatch_idle (h : Parts P recvStreams maxBacklog loop) (hstreams : 0 < recvStreams)
    (hbacklog : 0 < maxBacklog) (hset : loop.set = []) :
    (loop.dispatch P maxBacklog).nextMessage = none := by
  have hwindow : loop.msgId - loop.firstId < maxBacklog := by
    rw [h.inFlight.firstId_of_idle hset, Nat.sub_self]
    exact hbacklog
  have hidle : loop.streams ≠ [] := by
    have hlen := h.pool.streams_of_idle hset
    intro hnil
    rw [hnil] at hlen
    exact hstreams.ne hlen
  obtain ⟨stream, streams, hs⟩ := List.exists_cons_of_ne_nil hidle
  cases hn : loop.nextMessage with
  | none =>
    rcases dispatch_cases P loop maxBacklog with he | ⟨_, _, message, _, hm, _, _⟩
    · rw [he]
      exact hn
    · rw [hn] at hm
      cases hm
  | some message =>
    have hwindow' : { loop with phase := .select }.msgId -
        { loop with phase := .select }.firstId < maxBacklog := hwindow
    rw [SendLoop.dispatch]
    simp only [if_pos hwindow']
    simp only [hn, hs]

/-- The iteration that has reached the select can become ready. -/
theorem Parts.dispatch_ready (h : Parts P recvStreams maxBacklog loop) (hstreams : 0 < recvStreams)
    (hbacklog : 0 < maxBacklog) : (loop.dispatch P maxBacklog).CanBecomeReady := by
  by_cases hset : loop.set = []
  · exact .inl (h.dispatch_idle hstreams hbacklog hset)
  · rcases dispatch_cases P loop maxBacklog with he | ⟨stream, _, message, _, _, _, he⟩
    · rw [he]
      exact .inr hset
    · rw [he]
      exact .inl rfl

/-- What is kept at the select: a branch that can become ready. -/
def Ready (loop : SendLoop) : Prop := loop.phase = .select → loop.CanBecomeReady

theorem sendClose_phase (P : Prost) (loop : SendLoop) (error : Plugin.RecvError) :
    (loop.sendClose P error).phase ≠ .select := by
  rw [sendClose]
  split <;> simp

/-- Only an iteration enters the select, and a task that writes stays. -/
theorem Ready.step (hinv : Inv P recvStreams maxBacklog loop) (h : loop.Ready)
    (hstreams : 0 < recvStreams) (hbacklog : 0 < maxBacklog)
    (hstep : Step P maxBacklog loop loop') : loop'.Ready := by
  intro hphase
  cases hstep with
  | dispatch => exact hinv.parts.dispatch_ready hstreams hbacklog
  | message => cases hphase
  | fail _ _ _ error =>
    exfalso
    rw [SendLoop.fail] at hphase
    split at hphase
    · cases hphase
    · exact sendClose_phase _ _ error hphase
  | finish => cases hphase
  | join => cases hphase
  | joinClosing error => exact absurd hphase (sendClose_phase _ _ error)
  | joinNothing => cases hphase
  | write task before after hrun n =>
    refine (h hphase).imp id fun _ => ?_
    simp [SendLoop.write]

/-- The loop never wedges if it has a stream and its window has room. -/
theorem neverWedges (hstreams : 0 < recvStreams) (hbacklog : 0 < maxBacklog) :
    NeverWedges P recvStreams maxBacklog where
  ready loop hreach := by
    have hready : loop.Ready := by
      induction hreach with
      | refl => exact fun hphase => by cases hphase
      | tail hrun hstep ih =>
        exact Ready.step (Reachable.inv hstreams hrun) ih hstreams hbacklog hstep
    exact hready
  sendable _ hreach _ hset :=
    (hreach.inv hstreams).parts.dispatch_idle hstreams hbacklog hset

/-- The loop once it has received its first message. -/
def firstReceived (P : Prost) (recvStreams maxBacklog : ℕ) (message : RecvItem) : SendLoop :=
  { (start recvStreams).dispatch P maxBacklog with
    nextMessage := some message
    received := [message]
    phase := .head }

theorem firstReceived_reachable (P : Prost) (recvStreams maxBacklog : ℕ) (message : RecvItem) :
    Reachable P recvStreams maxBacklog (firstReceived P recvStreams maxBacklog message) := by
  have hstart : (start recvStreams).dispatch P maxBacklog =
      { start recvStreams with phase := .select } := by
    rcases dispatch_cases P (start recvStreams) maxBacklog with he | ⟨_, _, _, _, hm, _, _⟩
    · exact he
    · cases hm
  have hdispatch : Step P maxBacklog (start recvStreams)
      ((start recvStreams).dispatch P maxBacklog) := .dispatch rfl
  refine (Relation.ReflTransGen.single hdispatch).tail ?_
  rw [firstReceived, hstart]
  exact .message rfl rfl rfl message

/-- Without room in the window nothing is handed over. -/
theorem dispatch_zero (P : Prost) (loop : SendLoop) :
    loop.dispatch P 0 = { loop with phase := .select } := by
  rcases dispatch_cases P loop 0 with he | ⟨_, _, _, hwindow, _, _, _⟩
  · exact he
  · exact absurd hwindow (Nat.not_lt_zero _)

/-- The first message keeps a loop without room in its window at the select. -/
theorem wedged (P : Prost) (recvStreams : ℕ) :
    ∃ loop, Reachable P recvStreams 0 loop ∧ loop.phase = .select ∧ ¬loop.CanBecomeReady := by
  refine ⟨_, (firstReceived_reachable P recvStreams 0 []).tail (.dispatch rfl),
    dispatch_phase _ _ _, ?_⟩
  rw [dispatch_zero, firstReceived, dispatch_zero]
  rintro (hnone | htasks)
  · cases hnone
  · exact htasks rfl

theorem neverWedges_iff (hstreams : 0 < recvStreams) :
    NeverWedges P recvStreams maxBacklog ↔ maxBacklog ≠ 0 := by
  refine ⟨?_, fun h => neverWedges hstreams (Nat.pos_of_ne_zero h)⟩
  rintro h rfl
  obtain ⟨loop, hreach, hphase, hwedged⟩ := wedged P recvStreams
  exact hwedged (h.ready loop hreach hphase)

end SendLoop

namespace QuicServer

open SendLoop

variable {P : Prost} {Rx : Type} {server : QuicServer Rx} {recv : Bytes}
  {response : QuicSubscribeResponse} {recvStreams maxBacklog : ℕ} {rx : Rx}

/-- The send loop of an accepted request never wedges, except when the client has
asked for a backlog of no message. -/
theorem accepted_neverWedges_iff
    (h : server.handleRequest recv = .ok (response, some (recvStreams, maxBacklog, rx))) :
    ∃ buf request, server.readRequest recv = .ok (some buf) ∧ server.decode buf = .ok request ∧
      (NeverWedges P recvStreams maxBacklog ↔ request.maxBacklog ≠ some 0) := by
  obtain ⟨buf, request, hread, hdecode, haccepts⟩ := handleRequest_accepts h
  refine ⟨buf, request, hread, hdecode, ?_⟩
  have hstreams : 0 < recvStreams := by
    rw [haccepts.recvStreams_eq]
    exact haccepts.streams.1
  rw [neverWedges_iff hstreams, haccepts.maxBacklog_eq]
  cases request.maxBacklog with
  | none => simp
  | some maxBacklog => simp

/-- A server without tokens that decodes every buffer to one request. -/
def answering (request : QuicSubscribeRequest) : QuicServer Unit where
  maxRecvStreams := 16
  maxRequestSize := 1024
  xTokens := ∅
  decode _ := .ok request
  subscribe _ _ := .ok ()

/-- A request for one stream with the given backlog. -/
def oneStream (maxBacklog : Option ℕ) : QuicSubscribeRequest where
  xToken := none
  recvStreams := 1
  maxBacklog := maxBacklog
  replayFromSlot := none
  filter := none

/-- The size of an empty request. -/
def emptyRequest : Bytes := [0, 0, 0, 0, 0, 0, 0, 0]

theorem answering_accepts (maxBacklog : Option ℕ) :
    (answering (oneStream maxBacklog)).handleRequest emptyRequest =
      .ok (.default, some (1, maxBacklog.getD (2 ^ 64 - 1), ())) := by
  have hread : (answering (oneStream maxBacklog)).readRequest emptyRequest = .ok (some []) := by
    have hsize : readU64 emptyRequest = some (0, []) := by decide
    rw [readRequest, hsize]
    rfl
  rw [handleRequest, hread]
  rfl

/-- The loop of a request without a bound on its backlog never wedges. -/
theorem accepted_neverWedges_unbounded : NeverWedges wire 1 (2 ^ 64 - 1) := by
  obtain ⟨_, request, _, hdecode, hiff⟩ := accepted_neverWedges_iff (answering_accepts none)
  refine hiff.mpr ?_
  cases hdecode
  simp [oneStream]

/-- A backlog of no message is accepted, and the loop wedges. -/
theorem zero_backlog_wedges :
    (answering (oneStream (some 0))).handleRequest emptyRequest = .ok (.default, some (1, 0, ())) ∧
      ∃ loop, Reachable wire 1 0 loop ∧ loop.phase = .select ∧ ¬loop.CanBecomeReady :=
  ⟨answering_accepts (some 0), wedged wire 1⟩

end QuicServer

end Dragonmouth.Transports
