import Dragonmouth.Grpc.Unary
import Dragonmouth.Grpc.UnaryAnswers

/-!
# Unary requests over whole runs

Whatever the order of the steps, the task has handled the statuses and block metas of
consecutive messages of the ring, in their order and each once. An answer is that of the
storage after some of them: no more than have been handled, and no fewer than had been
passed on when the call began. There is one exception: a call that begins when the task
has just found no message may be the next one it answers, and the messages passed on in
between are handled after that.

The task alone brings every call that waits to its answer.

## Main definitions

- `UnaryCall.owed`: how many messages an answer is promised to include
- `Answers`: the result a call may have
- `UnaryServer.Inv`: the invariant

## Main results

- `UnaryServer.answers_current`: what holds in every run
- `UnaryServer.waiting_answered`: the polls after which a call has its answer
-/

namespace Dragonmouth.Grpc

open Richat (ParsedMessage Reader Recv Ring slotUpdate)
open Proto (CommitmentLevel)

/-- What had been passed on when the call began. Of that, only what had been handled if the
task had found no message and no other request was there to be taken first. -/
def UnaryCall.owed (call : UnaryCall) : ℕ :=
  if call.polls = .requests ∧ call.queued = 0 then call.handled else call.pushed

/-- The result a call may have, where the task has handled `handled`. -/
def Answers (config : ConfigAppsGrpcUnary) (handled : List ParsedMessage) (call : UnaryCall)
    (result : Except UnaryStatus UnaryResponse) : Prop :=
  match parseCommitment call.request.commitment with
  | .error status => result = .error status
  | .ok level =>
    if config.enabled = false then result = .error ⟨.unimplemented, "method disabled"⟩
    else if config.requestsQueueSize ≤ call.queued then
      result = .error ⟨.resourceExhausted, "queue channel is full"⟩
    else ∃ n, call.owed ≤ n ∧ n ≤ handled.length ∧
      result = (Work.run (handled.take n)).respond call.request.method level

/-- What a call was answered stays an answer while the task goes on. -/
theorem Answers.mono {config : ConfigAppsGrpcUnary} {handled handled' : List ParsedMessage}
    {call : UnaryCall} {result : Except UnaryStatus UnaryResponse}
    (h : Answers config handled call result)
    (hhandled : handled <+: handled') : Answers config handled' call result := by
  rw [Answers] at h ⊢
  split at h
  · exact h
  · split at h
    · rename_i hdisabled
      rwa [if_pos hdisabled]
    · rename_i henabled
      rw [if_neg henabled]
      split at h
      · rename_i hfull
        rwa [if_pos hfull]
      · rename_i hroom
        rw [if_neg hroom]
        obtain ⟨n, howed, hle, hresult⟩ := h
        refine ⟨n, howed, hle.trans hhandled.length_le, ?_⟩
        obtain ⟨rest, rfl⟩ := hhandled
        rw [List.take_append_of_le_length hle]
        exact hresult

namespace UnaryServer

section

variable {config : ConfigAppsGrpcUnary} {N : ℕ} {server server' : UnaryServer}

/-- The thread reads for the position after what it has received. -/
def Reads (N : ℕ) (server : UnaryServer) : Prop :=
  ∀ reader, server.worker = .receiving reader →
    reader.head = server.start + server.received.length ∧ Grpc.Read N server.ring reader

/-- The request of a call that waits. -/
structure RequestOf (config : ConfigAppsGrpcUnary) (queued : UnaryQueued) (call : UnaryCall) :
    Prop where
  waits : call.result = none
  room : call.queued < config.requestsQueueSize
  method : queued.method = call.request.method
  level : parseCommitment call.request.commitment = .ok queued.level

structure Inv (config : ConfigAppsGrpcUnary) (N : ℕ) (server : UnaryServer) : Prop where
  ring : server.ring.Inv N
  reads : server.Reads N
  starting : server.worker = .starting → server.received = []
  from_ : MessagesFrom N server.ring server.start server.received
  input : server.handled ++ server.messages = server.received.filter isMetaInput
  work : server.work = Work.run server.handled
  bound : server.requests.length ≤ config.requestsQueueSize
  ids : (server.requests.map UnaryQueued.id).Nodup
  queued : ∀ queued ∈ server.requests, queued.id < server.nextId ∧
    ∀ call, server.calls queued.id = some call → RequestOf config queued call
  enabled : server.requests ≠ [] → config.enabled = true
  /-- The task has handled what the request it takes next is promised. -/
  looked : server.polls = .requests → ∀ queued, server.requests.head? = some queued →
    ∀ call, server.calls queued.id = some call → call.owed ≤ server.handled.length
  known : ∀ id call, server.calls id = some call → id < server.nextId ∧
    call.owed ≤ server.pushed ∧
    (call.result = none → ∃ queued ∈ server.requests, queued.id = id) ∧
    ∀ result, call.result = some result → Answers config server.handled call result

theorem Inv.new (hN : ∃ k, N = 2 ^ k) : (new N).Inv config N where
  ring := .new hN
  reads _ h := (nomatch h)
  starting _ := rfl
  from_ _ _ h := (nomatch h)
  input := rfl
  work := rfl
  bound := Nat.zero_le _
  ids := List.nodup_nil
  queued _ h := (nomatch h)
  enabled h := absurd rfl h
  looked h := (nomatch h)
  known _ _ h := (nomatch h)

-- ════════════════════════════════════════════════════════════════════════
-- The thread and the task
-- ════════════════════════════════════════════════════════════════════════

/-- The ring is written. -/
theorem Inv.write (h : server.Inv config N) {ring : Ring} (hs : server.ring.Step ring) :
    Inv config N { server with ring := ring } :=
  { h with
    ring := hs.inv h.ring
    reads := fun reader hr => ⟨(h.reads reader hr).1, (h.reads reader hr).2.step hs⟩
    from_ := h.from_.step hs }

/-- The thread goes on reading at its position. -/
theorem Inv.reading (h : server.Inv config N) {reader : Reader}
    (hhead : reader.head = server.start + server.received.length)
    (hread : Grpc.Read N server.ring reader) :
    Inv config N { server with worker := .receiving reader } :=
  { h with
    reads := by
      intro found hfound
      obtain rfl := MetaWorker.receiving.inj hfound
      exact ⟨hhead, hread⟩
    starting := fun hstarting => (nomatch hstarting) }

theorem Inv.stop (h : server.Inv config N) : Inv config N { server with worker := .stopped } :=
  { h with
    reads := fun _ hr => (nomatch hr)
    starting := fun hstarting => (nomatch hstarting) }

theorem Inv.receive (h : server.Inv config N) {head tail loadedAt : ℕ} {result : Recv}
    (hreturned : server.worker = .receiving (.done head tail loadedAt result)) :
    (server.receive head result).Inv config N := by
  obtain ⟨hhead, hread⟩ := h.reads _ hreturned
  change head = server.start + server.received.length at hhead
  match result with
  | .ok (some message) =>
    have hm : messageAt N server.ring head = some message := hread message rfl
    rw [hhead] at hm
    have hpushed : server.handled.length + (if isMetaInput message then
        server.messages ++ [message] else server.messages).length ≥ server.pushed := by
      rw [UnaryServer.pushed]
      split
      · rw [List.length_append]
        omega
      · exact Nat.le_refl _
    exact
      { h with
        reads := by
          intro found hfound
          obtain rfl := MetaWorker.receiving.inj hfound
          refine ⟨?_, trivial⟩
          change head + 1 = server.start + (server.received ++ [message]).length
          rw [List.length_append, hhead]
          rfl
        starting := fun hstarting => (nomatch hstarting)
        from_ := h.from_.concat hm
        input := by
          change server.handled ++ (if isMetaInput message then server.messages ++ [message]
            else server.messages) = (server.received ++ [message]).filter isMetaInput
          rw [List.filter_append, ← h.input]
          cases hinput : isMetaInput message with
          | true => simp [hinput]
          | false => simp [hinput]
        known := by
          intro id call hcall
          obtain ⟨hlt, hle, hknown⟩ := h.known id call hcall
          exact ⟨hlt, hle.trans hpushed, hknown⟩ }
  | .ok none => exact h.reading hhead trivial
  | .error error => exact h.stop

theorem poll_message {message : ParsedMessage} {messages : List ParsedMessage}
    (hpolls : server.polls = .messages) (hfirst : server.messages = message :: messages) :
    server.poll =
      { server with
        messages := messages
        handled := server.handled ++ [message]
        work := server.work.process message } := by
  simp only [poll, hpolls, hfirst]

theorem poll_no_message (hpolls : server.polls = .messages) (hnone : server.messages = []) :
    server.poll = { server with polls := .requests } := by
  simp only [poll, hpolls, hnone]

theorem poll_request {queued : UnaryQueued} {requests : List UnaryQueued}
    (hpolls : server.polls = .requests) (hfirst : server.requests = queued :: requests) :
    server.poll = server.reply queued requests := by
  simp only [poll, hpolls, hfirst]

theorem poll_no_request (hpolls : server.polls = .requests) (hnone : server.requests = []) :
    server.poll = { server with polls := .messages } := by
  simp only [poll, hpolls, hnone]

/-- The task takes the first message. -/
theorem Inv.handle (h : server.Inv config N) {message : ParsedMessage}
    {messages : List ParsedMessage} (hpolls : server.polls = .messages)
    (hfirst : server.messages = message :: messages) :
    Inv config N
      { server with
        messages := messages
        handled := server.handled ++ [message]
        work := server.work.process message } :=
  { h with
    input := by
      have hinput := h.input
      rw [hfirst] at hinput
      rw [← hinput, List.append_assoc]
      rfl
    work := by
      change server.work.process message = _
      rw [h.work, Work.run_concat]
    looked := fun hrequests => (nomatch hpolls.symm.trans hrequests)
    known := by
      intro id call hcall
      obtain ⟨hlt, hle, hwaits, hanswers⟩ := h.known id call hcall
      refine ⟨hlt, ?_, hwaits, fun result hresult =>
        (hanswers result hresult).mono (List.prefix_append _ _)⟩
      rw [UnaryServer.pushed, hfirst] at hle
      change call.owed ≤ (server.handled ++ [message]).length + messages.length
      rw [List.length_append]
      simp only [List.length_cons, List.length_nil] at hle ⊢
      omega }

/-- The task finds no message: it has handled all that have been passed on. -/
theorem Inv.look (h : server.Inv config N) (hnone : server.messages = []) :
    Inv config N { server with polls := .requests } :=
  { h with
    looked := by
      intro _ queued _ call hcall
      have hle := (h.known queued.id call hcall).2.1
      rw [UnaryServer.pushed, hnone] at hle
      exact hle }

theorem Inv.wait (h : server.Inv config N) : Inv config N { server with polls := .messages } :=
  { h with looked := fun hrequests => (nomatch hrequests) }

-- ════════════════════════════════════════════════════════════════════════
-- The calls
-- ════════════════════════════════════════════════════════════════════════

theorem begin_calls (server : UnaryServer) (request : UnaryRequest)
    (result : Option (Except UnaryStatus UnaryResponse)) (id : ℕ) :
    (server.begin request result).calls id =
      if id = server.nextId then some (server.callOf request result) else server.calls id :=
  Function.update_apply ..

/-- What a call is promised has been passed on when it begins. -/
theorem owed_callOf_le (server : UnaryServer) (request : UnaryRequest)
    (result : Option (Except UnaryStatus UnaryResponse)) :
    (server.callOf request result).owed ≤ server.pushed := by
  rw [UnaryCall.owed]
  split
  · exact Nat.le_add_right _ _
  · exact Nat.le_refl _

/-- A call that begins leaves the others alone. -/
theorem Inv.begin_calls (h : server.Inv config N) {request : UnaryRequest}
    {result : Option (Except UnaryStatus UnaryResponse)} {queued : UnaryQueued}
    (hqueued : queued ∈ server.requests) {call : UnaryCall}
    (hcall : (server.begin request result).calls queued.id = some call) :
    server.calls queued.id = some call := by
  rwa [UnaryServer.begin_calls, if_neg (h.queued queued hqueued).1.ne] at hcall

/-- A call that returns at once. -/
theorem Inv.begin (h : server.Inv config N) {request : UnaryRequest}
    {result : Except UnaryStatus UnaryResponse}
    (hresult : Answers config server.handled (server.callOf request (some result)) result) :
    (server.begin request (some result)).Inv config N :=
  { h with
    queued := fun queued hqueued => ⟨Nat.lt_succ_of_lt (h.queued queued hqueued).1,
      fun call hcall => (h.queued queued hqueued).2 call (h.begin_calls hqueued hcall)⟩
    looked := fun hpolls queued hfirst call hcall => h.looked hpolls queued hfirst call
      (h.begin_calls (List.mem_of_mem_head? hfirst) hcall)
    known := by
      intro id call hcall
      rw [UnaryServer.begin_calls] at hcall
      split at hcall
      · rename_i hid
        obtain rfl := Option.some.inj hcall
        refine ⟨hid ▸ Nat.lt_succ_self _, owed_callOf_le .., fun hnone => (nomatch hnone),
          fun found hfound => ?_⟩
        obtain rfl := Option.some.inj hfound
        exact hresult
      · obtain ⟨hlt, hrest⟩ := h.known id call hcall
        exact ⟨Nat.lt_succ_of_lt hlt, hrest⟩ }

/-- A call that waits. -/
theorem Inv.enqueue (h : server.Inv config N) {request : UnaryRequest} {level : CommitmentLevel}
    (hparse : parseCommitment request.commitment = .ok level) (henabled : config.enabled = true)
    (hroom : server.requests.length < config.requestsQueueSize) :
    Inv config N
      { server.begin request none with
        requests := server.requests ++ [⟨server.nextId, request.method, level⟩] } := by
  have hnew : ∀ call, (server.begin request none).calls server.nextId = some call →
      call = server.callOf request none := by
    intro call hcall
    rw [UnaryServer.begin_calls, if_pos rfl] at hcall
    exact (Option.some.inj hcall).symm
  exact
    { h with
      bound := by
        rw [List.length_append]
        exact hroom
      ids := by
        rw [List.map_append]
        refine List.nodup_append.mpr ⟨h.ids, List.nodup_singleton _, fun a ha b hb hab => ?_⟩
        obtain ⟨queued, hqueued, rfl⟩ := List.mem_map.mp ha
        exact (h.queued queued hqueued).1.ne (hab.trans (List.mem_singleton.mp hb))
      queued := by
        intro queued hqueued
        rcases List.mem_append.mp hqueued with hqueued | hqueued
        · exact ⟨Nat.lt_succ_of_lt (h.queued queued hqueued).1,
            fun call hcall => (h.queued queued hqueued).2 call (h.begin_calls hqueued hcall)⟩
        · obtain rfl := List.mem_singleton.mp hqueued
          refine ⟨Nat.lt_succ_self _, fun call hcall => ?_⟩
          obtain rfl := hnew call hcall
          exact ⟨rfl, hroom, rfl, hparse⟩
      enabled := fun _ => henabled
      looked := by
        intro hpolls queued hfirst call hcall
        cases hrequests : server.requests with
        | nil =>
          -- the new request is the one that is taken next
          simp only [hrequests, List.nil_append, List.head?_cons, Option.some.injEq] at hfirst
          subst hfirst
          obtain rfl := hnew call hcall
          have hnone : (server.callOf request none).queued = 0 := congrArg List.length hrequests
          rw [UnaryCall.owed, if_pos ⟨hpolls, hnone⟩]
          exact Nat.le_refl _
        | cons first requests =>
          simp only [hrequests, List.cons_append, List.head?_cons, Option.some.injEq] at hfirst
          subst hfirst
          have hmem : first ∈ server.requests := hrequests ▸ List.mem_cons_self
          exact h.looked hpolls first (congrArg List.head? hrequests) call
            (h.begin_calls hmem hcall)
      known := by
        intro id call hcall
        rcases eq_or_ne id server.nextId with rfl | hid
        · obtain rfl := hnew call hcall
          exact ⟨Nat.lt_succ_self _, owed_callOf_le .., fun _ => ⟨_, List.mem_append_right _
            (List.mem_singleton_self _), rfl⟩, fun _ hsome => (nomatch hsome)⟩
        · change (server.begin request none).calls id = some call at hcall
          rw [UnaryServer.begin_calls, if_neg hid] at hcall
          obtain ⟨hlt, hle, hwaits, hanswers⟩ := h.known id call hcall
          refine ⟨Nat.lt_succ_of_lt hlt, hle, fun hnone => ?_, hanswers⟩
          obtain ⟨queued, hqueued, hid⟩ := hwaits hnone
          exact ⟨queued, List.mem_append_left _ hqueued, hid⟩ }

theorem Inv.call (h : server.Inv config N) (request : UnaryRequest) :
    (server.call config request).Inv config N := by
  rw [UnaryServer.call]
  split
  · rename_i status hparse
    refine h.begin ?_
    simp only [Answers, callOf, hparse]
  · rename_i level hparse
    split
    · rename_i hdisabled
      refine h.begin ?_
      simp only [Answers, callOf, hparse, if_pos hdisabled]
    · rename_i henabled
      split
      · rename_i hfull
        refine h.begin ?_
        simp only [Answers, callOf, hparse, if_neg henabled, if_pos hfull]
      · rename_i hroom
        exact h.enqueue hparse (Bool.not_eq_false _ ▸ henabled) (Nat.not_le.mp hroom)

/-- The task answers the first request, with all the messages it has handled. -/
theorem Inv.reply (h : server.Inv config N) {queued : UnaryQueued} {requests : List UnaryQueued}
    (hpolls : server.polls = .requests) (hfirst : server.requests = queued :: requests) :
    (server.reply queued requests).Inv config N := by
  have hmem : ∀ found ∈ requests, found ∈ server.requests :=
    fun found hfound => hfirst ▸ List.mem_cons_of_mem _ hfound
  have hids := h.ids
  rw [hfirst, List.map_cons, List.nodup_cons] at hids
  have hcalls : ∀ id, (server.reply queued requests).calls id =
      if id = queued.id then (server.calls queued.id).map fun call =>
        { call with result := some (server.work.respond queued.method queued.level) }
      else server.calls id := fun id => Function.update_apply ..
  have henabled := h.enabled (hfirst ▸ List.cons_ne_nil _ _)
  exact
    { h with
      bound := Nat.le_trans (Nat.le_succ _) (by
        have hbound := h.bound
        rw [hfirst] at hbound
        exact hbound)
      ids := hids.2
      queued := by
        intro found hfound
        obtain ⟨hlt, hcall⟩ := h.queued found (hmem found hfound)
        have hne : found.id ≠ queued.id := fun he =>
          hids.1 (he ▸ List.mem_map_of_mem hfound)
        refine ⟨hlt, fun call hc => hcall call ?_⟩
        rwa [hcalls, if_neg hne] at hc
      enabled := fun _ => henabled
      looked := fun hrequests => (nomatch hrequests)
      known := by
        intro id call hcall
        rw [hcalls] at hcall
        split at hcall
        · rename_i hid
          obtain ⟨before, hbefore, rfl⟩ := Option.map_eq_some_iff.mp hcall
          obtain ⟨hlt, hle, -, -⟩ := h.known queued.id before hbefore
          obtain ⟨-, hroom, hmethod, hparse⟩ :=
            (h.queued queued (hfirst ▸ List.mem_cons_self)).2 before hbefore
          refine ⟨hid ▸ hlt, hle, fun hnone => (nomatch hnone), fun result hresult => ?_⟩
          obtain rfl := Option.some.inj hresult
          have howed := h.looked hpolls queued (congrArg List.head? hfirst) before hbefore
          rw [Answers, hparse]
          simp only [henabled, Bool.true_eq_false, if_false, if_neg (Nat.not_le.mpr hroom)]
          refine ⟨server.handled.length, howed, Nat.le_refl _, ?_⟩
          change _ = (Work.run (server.handled.take server.handled.length)).respond _ _
          rw [List.take_length, ← h.work, hmethod]
        · rename_i hid
          obtain ⟨hlt, hle, hwaits, hanswers⟩ := h.known id call hcall
          refine ⟨hlt, hle, fun hnone => ?_, hanswers⟩
          obtain ⟨found, hfound, hfoundId⟩ := hwaits hnone
          rw [hfirst] at hfound
          rcases List.mem_cons.mp hfound with rfl | hfound
          · exact absurd hfoundId.symm hid
          · exact ⟨found, hfound, hfoundId⟩ }

theorem Inv.poll (h : server.Inv config N) : server.poll.Inv config N := by
  cases hpolls : server.polls with
  | messages =>
    cases hmessages : server.messages with
    | nil =>
      rw [poll_no_message hpolls hmessages]
      exact h.look hmessages
    | cons message messages =>
      rw [poll_message hpolls hmessages]
      exact h.handle hpolls hmessages
  | requests =>
    cases hrequests : server.requests with
    | nil =>
      rw [poll_no_request hpolls hrequests]
      exact h.wait
    | cons queued requests =>
      rw [poll_request hpolls hrequests]
      exact h.reply hpolls hrequests

theorem Inv.cancel (h : server.Inv config N) (id : ℕ) :
    Inv config N { server with calls := Function.update server.calls id none } := by
  have hcalls : ∀ found call, Function.update server.calls id none found = some call →
      server.calls found = some call := by
    intro found call hcall
    rw [Function.update_apply] at hcall
    split at hcall
    · cases hcall
    · exact hcall
  exact
    { h with
      queued := fun queued hqueued => ⟨(h.queued queued hqueued).1, fun call hcall =>
        (h.queued queued hqueued).2 call (hcalls _ call hcall)⟩
      looked := fun hpolls queued hfirst call hcall =>
        h.looked hpolls queued hfirst call (hcalls _ call hcall)
      known := fun found call hcall => h.known found call (hcalls found call hcall) }

theorem Step.inv (hs : Step config server server') (h : server.Inv config N) :
    server'.Inv config N := by
  cases hs with
  | write ring hstep => exact h.write hstep
  | start henabled hstarts =>
    have hnone := h.starting hstarts
    exact
      { h with
        reads := by
          intro found hfound
          obtain rfl := MetaWorker.receiving.inj hfound
          refine ⟨?_, trivial⟩
          change server.ring.view.tail = server.ring.view.tail + server.received.length
          rw [hnone]
          rfl
        starting := fun hstarting => (nomatch hstarting)
        from_ := by
          intro i message hi
          change server.received[i]? = some message at hi
          rw [hnone] at hi
          cases hi }
  | load head hloads =>
    exact h.reading ((load_head ..).trans (h.reads _ hloads).1) (.load h.ring head)
  | read head tail loadedAt hreads =>
    obtain ⟨hhead, hread⟩ := h.reads _ hreads
    exact h.reading hhead (.read h.ring hread)
  | receive head tail loadedAt result hreturned => exact h.receive hreturned
  | stop head hloads => exact h.stop
  | poll => exact h.poll
  | call request => exact h.call request
  | cancel id call his hwaits => exact h.cancel id

theorem Reachable.inv (hN : ∃ k, N = 2 ^ k) (h : Reachable config N server) :
    server.Inv config N := by
  induction h with
  | refl => exact .new hN
  | tail _ hs ih => exact hs.inv ih

theorem Reachable.write (h : Reachable config N server) {ring : Ring}
    (hs : Relation.ReflTransGen Ring.Step server.ring ring) :
    Reachable config N { server with ring := ring } := by
  induction hs with
  | refl => exact h
  | tail _ hstep ih => exact ih.tail (.write _ hstep)

/-- A ring of two cells with a block meta and a status, of which the first can be read. -/
def metaRing : Ring :=
  ((Ring.new 2).run (.push (5, metaOf 5 "a" 10))).run (.push (slotUpdate 1 5))

/-- The block meta has been passed on. -/
def metaReceived : UnaryServer :=
  { new 2 with
    ring := metaRing
    worker := .receiving (.loading 3)
    start := 2
    received := [metaOf 5 "a" 10]
    messages := [metaOf 5 "a" 10] }

theorem reachable_metaReceived : Reachable ⟨true, 1⟩ 2 metaReceived := by
  have h₁ : Reachable ⟨true, 1⟩ 2 _ := .tail .refl (.start rfl rfl)
  have h₂ := h₁.write (Ring.run_steps (.push (5, metaOf 5 "a" 10)) rfl rfl)
  have h₃ := h₂.write (Ring.run_steps (.push (slotUpdate 1 5)) rfl (by decide +kernel))
  have h₄ := h₃.tail (.load 2 rfl)
  have hload : Reader.load 2 metaRing = .reading 2 metaRing.view.tail metaRing.history.length :=
    if_pos (by decide +kernel)
  have h₅ := h₄.tail (.read 2 _ _ (congrArg MetaWorker.receiving hload))
  have hread : (metaRing.view.item 2).recv 2 = .ok (some (metaOf 5 "a" 10)) := by
    decide +kernel
  exact h₅.tail (.receive 2 _ _ (.ok (some (metaOf 5 "a" 10)))
    (congrArg (fun result => MetaWorker.receiving (.done 2 _ _ result)) hread))

/-- The storage answers with the slot of the block meta. -/
theorem respond_metaReceived :
    (Work.run [metaOf 5 "a" 10]).respond .getSlot .processed = .ok (.slot 5) := by
  decide +kernel

-- ════════════════════════════════════════════════════════════════════════
-- The task alone
-- ════════════════════════════════════════════════════════════════════════

/-- The task has handled what waited, and polls the requests next. -/
structure Drained (server server' : UnaryServer) : Prop where
  messages : server'.messages = []
  polls : server'.polls = .requests
  handled : server'.handled = server.handled ++ server.messages
  requests : server'.requests = server.requests
  calls : server'.calls = server.calls

/-- The task handles all messages that wait before it polls the requests. -/
theorem polls_drained (hpolls : server.polls = .messages) :
    Drained server (poll^[server.messages.length + 1] server) := by
  induction hmessages : server.messages generalizing server with
  | nil =>
    have hpoll : poll^[1] server = { server with polls := .requests } :=
      poll_no_message hpolls hmessages
    rw [List.length_nil, hpoll]
    exact ⟨hmessages, rfl, by rw [hmessages, List.append_nil], rfl, rfl⟩
  | cons message messages ih =>
    rw [List.length_cons, Function.iterate_succ_apply, poll_message hpolls hmessages]
    have hrest := @ih
      { server with
        messages := messages
        handled := server.handled ++ [message]
        work := server.work.process message } hpolls rfl
    refine ⟨hrest.messages, hrest.polls, hrest.handled.trans ?_, hrest.requests, hrest.calls⟩
    rw [hmessages, List.append_assoc]
    rfl

/-- A request that is taken leaves the other calls alone. -/
theorem reply_calls_ne {queued : UnaryQueued} (requests : List UnaryQueued) {id : ℕ}
    (hne : id ≠ queued.id) : (server.reply queued requests).calls id = server.calls id :=
  Function.update_of_ne hne ..

theorem reply_calls_self {queued : UnaryQueued} (requests : List UnaryQueued) {call : UnaryCall}
    (hcall : server.calls queued.id = some call) :
    (server.reply queued requests).calls queued.id =
      some { call with result := some (server.work.respond queued.method queued.level) } := by
  change Function.update server.calls queued.id _ queued.id = _
  rw [Function.update_self, hcall]
  rfl

/-- Where no message waits, the task answers the requests one after the other. -/
theorem exists_replied {queued : UnaryQueued} {call : UnaryCall}
    (hpolls : server.polls = .requests) (hmessages : server.messages = [])
    (hids : (server.requests.map UnaryQueued.id).Nodup) (hqueued : queued ∈ server.requests)
    (hcall : server.calls queued.id = some call) :
    ∃ k < 2 * server.requests.length, (poll^[k] server).handled = server.handled ∧
      (poll^[k] server).calls queued.id =
        some { call with result := some (server.work.respond queued.method queued.level) } := by
  induction hrequests : server.requests generalizing server with
  | nil =>
    rw [hrequests] at hqueued
    cases hqueued
  | cons first requests ih =>
    rw [hrequests] at hids hqueued
    obtain ⟨hnew, hids⟩ := List.nodup_cons.mp hids
    rcases List.mem_cons.mp hqueued with rfl | hrest
    · refine ⟨1, by rw [List.length_cons]; omega, ?_⟩
      rw [Function.iterate_one, poll_request hpolls hrequests]
      exact ⟨rfl, reply_calls_self requests hcall⟩
    · have hne : queued.id ≠ first.id := fun he => hnew (he ▸ List.mem_map_of_mem hrest)
      -- the next one is taken after another look at the messages
      have hround : poll^[2] server = { server.reply first requests with polls := .requests } := by
        change poll (poll server) = _
        rw [poll_request hpolls hrequests]
        exact poll_no_message rfl hmessages
      obtain ⟨k, hk, hhandled, hresult⟩ :=
        @ih { server.reply first requests with polls := .requests } rfl hmessages hids hrest
          ((reply_calls_ne requests hne).trans hcall) rfl
      refine ⟨k + 2, by rw [List.length_cons]; omega, ?_⟩
      rw [Function.iterate_add_apply, hround]
      exact ⟨hhandled, hresult⟩

/-- The messages the task handles before it answers a call: those that wait, unless it has
looked for them already and the request of the call is the first. -/
def waitingFor (server : UnaryServer) (id : ℕ) : List ParsedMessage :=
  if server.polls = .requests ∧ (server.requests.head?.map UnaryQueued.id) = some id then []
  else server.messages

/-- A call that waits in one state has its answer in the other: that of the storage after
the messages handled by then. -/
structure Answered (server server' : UnaryServer) (id : ℕ) (call : UnaryCall)
    (level : CommitmentLevel) : Prop where
  parsed : parseCommitment call.request.commitment = .ok level
  handled : server'.handled = server.handled ++ server.waitingFor id
  answer : server'.calls id = some { call with
    result := some ((Work.run server'.handled).respond call.request.method level) }

theorem waitingFor_messages (hpolls : server.polls = .messages) (id : ℕ) :
    server.waitingFor id = server.messages := by
  rw [waitingFor, hpolls, if_neg]
  rintro ⟨⟨⟩, -⟩

theorem Inv.iterate (h : server.Inv config N) (k : ℕ) :
    (UnaryServer.poll^[k] server).Inv config N := by
  induction k generalizing server with
  | zero => exact h
  | succ k ih => exact ih h.poll

/-- From a look at the messages on, the task handles those that wait, and the requests. -/
theorem Inv.exists_answered (h : server.Inv config N) (hpolls : server.polls = .messages) {id : ℕ}
    {call : UnaryCall} (hcall : server.calls id = some call) (hwaits : call.result = none) :
    ∃ k ≤ server.messages.length + 2 * server.requests.length, ∃ level,
      Answered server (UnaryServer.poll^[k] server) id call level := by
  obtain ⟨queued, hqueued, rfl⟩ := (h.known id call hcall).2.2.1 hwaits
  obtain ⟨-, -, hmethod, hlevel⟩ := (h.queued queued hqueued).2 call hcall
  have hdrained := polls_drained hpolls
  have hinv := h.iterate (server.messages.length + 1)
  rw [← hdrained.requests] at hqueued
  rw [← hdrained.calls] at hcall
  obtain ⟨k, hk, hhandled, hresult⟩ :=
    exists_replied hdrained.polls hdrained.messages hinv.ids hqueued hcall
  rw [hdrained.requests] at hk
  refine ⟨k + (server.messages.length + 1), by omega, queued.level, ?_⟩
  rw [Function.iterate_add_apply]
  refine ⟨hlevel, ?_, ?_⟩
  · rw [hhandled, hdrained.handled, waitingFor_messages hpolls]
  · rw [hresult, hhandled, hinv.work, hmethod]

/-- The task has looked at the messages, and takes the request of the call. -/
theorem Inv.answered_first (h : server.Inv config N) (hpolls : server.polls = .requests)
    {queued : UnaryQueued} {requests : List UnaryQueued}
    (hrequests : server.requests = queued :: requests) {call : UnaryCall}
    (hcall : server.calls queued.id = some call) :
    Answered server server.poll queued.id call queued.level := by
  obtain ⟨-, -, hmethod, hlevel⟩ :=
    (h.queued queued (hrequests ▸ List.mem_cons_self)).2 call hcall
  have hbefore : server.waitingFor queued.id = [] := if_pos ⟨hpolls, by rw [hrequests]; rfl⟩
  rw [poll_request hpolls hrequests]
  refine ⟨hlevel, ?_, ?_⟩
  · rw [hbefore, List.append_nil]
    rfl
  · have hwork : Work.run (server.reply queued requests).handled = server.work := h.work.symm
    rw [hwork, ← hmethod]
    exact reply_calls_self requests hcall

/-- The task has looked at the messages, and takes another request. -/
theorem Inv.answered_other (h : server.Inv config N) (hpolls : server.polls = .requests)
    {first : UnaryQueued} {requests : List UnaryQueued}
    (hrequests : server.requests = first :: requests) {id : ℕ} (hid : first.id ≠ id)
    {call : UnaryCall} (hcall : server.calls id = some call) (hwaits : call.result = none) :
    ∃ k ≤ server.messages.length + 2 * requests.length, ∃ level,
      Answered server (UnaryServer.poll^[k + 1] server) id call level := by
  have hinv := h.reply hpolls hrequests
  have hcall' : (server.reply first requests).calls id = some call :=
    (reply_calls_ne requests (Ne.symm hid)).trans hcall
  obtain ⟨k, hk, level, hanswered⟩ := hinv.exists_answered rfl hcall' hwaits
  have hbefore : server.waitingFor id = server.messages :=
    if_neg fun hlooked => hid (by
      have hhead := hlooked.2
      rw [hrequests] at hhead
      exact Option.some.inj hhead)
  refine ⟨k, hk, level, ?_⟩
  rw [Function.iterate_succ_apply, poll_request hpolls hrequests]
  refine ⟨hanswered.parsed, ?_, hanswered.answer⟩
  rw [hanswered.handled, waitingFor_messages rfl, hbefore]
  rfl

/-- The task alone brings a call that waits to its answer, within two polls for each request
and one for each message. -/
theorem waiting_answered (hN : ∃ k, N = 2 ^ k) (h : Reachable config N server) {id : ℕ}
    {call : UnaryCall} (hcall : server.calls id = some call) (hwaits : call.result = none) :
    ∃ k ≤ server.messages.length + 2 * server.requests.length, ∃ level,
      Answered server (poll^[k] server) id call level := by
  have hinv := h.inv hN
  cases hpolls : server.polls with
  | messages => exact hinv.exists_answered hpolls hcall hwaits
  | requests =>
    obtain ⟨queued, hqueued, -⟩ := (hinv.known id call hcall).2.2.1 hwaits
    obtain ⟨first, requests, hrequests⟩ := List.exists_cons_of_ne_nil (List.ne_nil_of_mem hqueued)
    have hlength : server.requests.length = requests.length + 1 := congrArg List.length hrequests
    by_cases hid : first.id = id
    · subst hid
      exact ⟨1, by omega, first.level, hinv.answered_first hpolls hrequests hcall⟩
    · obtain ⟨k, hk, hanswered⟩ := hinv.answered_other hpolls hrequests hid hcall hwaits
      exact ⟨k + 1, by omega, hanswered⟩

/-- A call after the block meta: the meta is handled, the requests are polled, and the slot
of the block is answered. -/
theorem waiting_answered_getSlot : ∃ k ≤ 3,
    (poll^[k] (metaReceived.call ⟨true, 1⟩ ⟨.getSlot, none⟩)).calls 0 =
      some ⟨⟨.getSlot, none⟩, 1, 0, 0, .messages, some (.ok (.slot 5))⟩ := by
  obtain ⟨k, hk, level, hanswered⟩ := waiting_answered ⟨1, rfl⟩
    (reachable_metaReceived.tail (.call ⟨.getSlot, none⟩))
    (rfl : (metaReceived.call ⟨true, 1⟩ ⟨.getSlot, none⟩).calls 0 = some _) rfl
  obtain rfl : level = .processed := (Except.ok.inj hanswered.parsed).symm
  have hhandled := hanswered.handled
  rw [waitingFor_messages rfl] at hhandled
  change _ = [metaOf 5 "a" 10] at hhandled
  have hanswer := hanswered.answer
  rw [hhandled] at hanswer
  exact ⟨k, hk, hanswer.trans (congrArg (fun result => some
    (UnaryCall.mk ⟨.getSlot, none⟩ 1 0 0 .messages (some result))) respond_metaReceived)⟩

-- ════════════════════════════════════════════════════════════════════════
-- What holds in every run
-- ════════════════════════════════════════════════════════════════════════

/-- What holds in every state of a run. -/
structure Current (config : ConfigAppsGrpcUnary) (N : ℕ) (server : UnaryServer) : Prop where
  /-- What the thread has received are the messages of the ring since it started. -/
  received : MessagesFrom N server.ring server.start server.received
  /-- What is of use to the task has been handled or waits, in order. -/
  input : server.handled ++ server.messages = server.received.filter isMetaInput
  answers : ∀ id call result, server.calls id = some call → call.result = some result →
    Answers config server.handled call result
  /-- A call that waits has a request in the channel, and only one. -/
  waits : ∀ id call, server.calls id = some call → call.result = none →
    (server.requests.map UnaryQueued.id).count id = 1
  bound : server.requests.length ≤ config.requestsQueueSize

theorem Inv.current (h : server.Inv config N) : server.Current config N where
  received := h.from_
  input := h.input
  answers id call result hcall := (h.known id call hcall).2.2.2 result
  waits id call hcall hnone := by
    obtain ⟨queued, hqueued, rfl⟩ := (h.known id call hcall).2.2.1 hnone
    exact List.count_eq_one_of_mem h.ids (List.mem_map_of_mem hqueued)
  bound := h.bound

/-- In every run, answers are those of the storage after the messages passed on. -/
theorem answers_current (hN : ∃ k, N = 2 ^ k) (h : Reachable config N server) :
    server.Current config N := (h.inv hN).current

/-- A call that has begun between the two polls is answered with what had been handled. -/
theorem answers_current_between : ∃ server : UnaryServer,
    server.calls 0 =
      some ⟨⟨.getSlot, none⟩, 1, 1, 0, .requests, some (.ok (.slot 5))⟩ ∧
      server.Current ⟨true, 1⟩ 2 := by
  have h₁ := (reachable_metaReceived.tail .poll).tail .poll
  have h₂ := (h₁.tail (.call ⟨.getSlot, none⟩)).tail .poll
  exact ⟨_, congrArg (fun result => some
    (UnaryCall.mk ⟨.getSlot, none⟩ 1 1 0 .requests (some result))) respond_metaReceived,
    answers_current ⟨1, rfl⟩ h₂⟩

end

end UnaryServer

end Dragonmouth.Grpc
