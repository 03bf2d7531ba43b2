import Dragonmouth.Filters.Answers
import Dragonmouth.Filters.Request
import Dragonmouth.Grpc.Delivery

/-!
# Refused requests

A request is refused if it cannot be converted, if the limits do not admit it, or if
the ring of its commitment does not have the slot it asks for. The first two are
noticed before the state of the client is locked. The third is noticed after the
commitment has been written, and its error stays inside the value of the closure: the
task takes the request for an accepted one.

## Main definitions

- `SubscribeTask`: what the task that reads requests works with
- `SubscribeTask.handle`: what it does with a request
- `SubscribeTask.Refused`: the three refusals and their errors
- `Server.Traced`: runs with the ring each client's head was taken from
-/

namespace Dragonmouth.Grpc

open Checks Richat
open Filters hiding Panic

-- ════════════════════════════════════════════════════════════════════════
-- The task
-- ════════════════════════════════════════════════════════════════════════

/-- `CommitmentLevel::from`. -/
def levelOfConfig : ConfigFilterCommitment → CommitmentLevel
  | .processed => .processed
  | .confirmed => .confirmed
  | .finalized => .finalized

/-- What the task works with: the limits, the parsers of a request, the order of the maps
of a configuration and of a filter, the `Debug` of what its errors print, and the messages
it makes. -/
structure SubscribeTask where
  limits : ConfigLimits
  strings : Strings
  configState : RandomState
  filterState : RandomState
  debugFilterError : ConfigFilterError → String
  debugLimitsError : ConfigLimitsError → String
  debugFromSlot : Option Slot → String
  createPong : ℤ → Bytes
  getUpdates : Filter → ParsedMessage → CommitmentLevel → List Bytes

namespace SubscribeTask

variable (task : SubscribeTask)

def api : FilterApi Filter where
  commitment := fun filter => levelOfConfig filter.commitment
  getUpdates := task.getUpdates

/-- `failed to create filter`. -/
def createError (error : ConfigFilterError) : Status :=
  ⟨.invalidArgument, "failed to create filter: " ++ task.debugFilterError error⟩

/-- `failed to check filter`. -/
def checkError (error : ConfigLimitsError) : Status :=
  ⟨.invalidArgument, "failed to check filter: " ++ task.debugLimitsError error⟩

/-- `failed to get slot`. -/
def slotError (fromSlot : Option Slot) : Status :=
  ⟨.invalidArgument, "failed to get slot " ++ task.debugFromSlot fromSlot⟩

/-- The filter of a request. -/
def newFilter (message : SubscribeRequest) : Except Filters.Panic (Except Status Filter) :=
  match ConfigFilter.tryFrom task.strings task.configState message with
  | .error error => .ok (.error (task.createError error))
  | .ok config =>
    match task.limits.checkFilter config with
    | .error error => .ok (.error (task.checkError error))
    | .ok () => (Filter.new task.filterState config).map .ok

/-- What the task does with a message of its stream. -/
def handle (messages : Messages) (client : Subscriber Filter) (message : SubscribeRequest) :
    Except Filters.Panic (Subscriber Filter) :=
  match message.ping with
  | some ping => .ok (client.push ⟨task.createPong ping.id, true⟩)
  | none =>
    (task.newFilter message).map fun newFilter =>
      client.request task.api newFilter fun level =>
        messages.getCurrentTail level message.fromSlot

/-- The message is converted and the limits admit it. -/
def Admitted (message : SubscribeRequest) (config : ConfigFilter) : Prop :=
  ConfigFilter.tryFrom task.strings task.configState message = .ok config ∧
    task.limits.checkFilter config = .ok ()

/-- The commitment a configuration asks for. -/
def requested (config : ConfigFilter) : CommitmentLevel :=
  levelOfConfig (config.commitment.getD .processed)

/-- Why a message that is not a ping is refused. -/
inductive Refused (messages : Messages) (message : SubscribeRequest) : Status → Prop where
  | create (error : ConfigFilterError)
      (fails : ConfigFilter.tryFrom task.strings task.configState message = .error error) :
      Refused messages message (task.createError error)
  | check (config : ConfigFilter) (error : ConfigLimitsError)
      (converts : ConfigFilter.tryFrom task.strings task.configState message = .ok config)
      (fails : task.limits.checkFilter config = .error error) :
      Refused messages message (task.checkError error)
  | slot (config : ConfigFilter) (admitted : task.Admitted message config)
      (fails : messages.getCurrentTail (requested config) message.fromSlot = none) :
      Refused messages message (task.slotError message.fromSlot)

end SubscribeTask

/-- Only the error is set, and the waker of the stream is taken for it. -/
structure OnlyError {F : Type} (state state' : SubscribeClientState F) (error : Status) :
    Prop where
  commitment : state'.commitment = state.commitment
  head : state'.head = state.head
  filter : state'.filter = state.filter
  messagesError : state'.messagesError = some error
  refCount : state'.refCount = state.refCount
  messagesLenMax : state'.messagesLenMax = state.messagesLenMax
  messagesLenTotal : state'.messagesLenTotal = state.messagesLenTotal
  messages : state'.messages = state.messages

section

variable {task : SubscribeTask} {messages : Messages} {message : SubscribeRequest}
  {client : Subscriber Filter} {error : Status} {config : ConfigFilter}

theorem onlyError_fail {F : Type} (client : Subscriber F) (error : Status) :
    OnlyError client.state (client.fail error).state error :=
  ⟨rfl, rfl, rfl, rfl, rfl, rfl, rfl, rfl⟩

theorem commitment_of_new {state : RandomState} {filter : Filter}
    (h : Filter.new state config = .ok filter) :
    filter.commitment = config.commitment.getD .processed := by
  obtain ⟨_, -, h⟩ := bind_eq_ok.mp h
  obtain ⟨_, -, h⟩ := bind_eq_ok.mp h
  obtain ⟨_, -, h⟩ := bind_eq_ok.mp h
  obtain ⟨_, -, h⟩ := bind_eq_ok.mp h
  obtain ⟨_, -, h⟩ := bind_eq_ok.mp h
  rw [← Except.ok.inj h]

/-- A filter is built for every admitted request, of the commitment it asks for. -/
theorem SubscribeTask.Admitted.newFilter (h : task.Admitted message config) :
    ∃ filter, task.newFilter message = .ok (.ok filter) ∧
      task.api.commitment filter = requested config := by
  obtain ⟨hconvert, hcheck⟩ := h
  obtain ⟨filter, hnew⟩ := Filter.new_ok task.filterState (buildable_of_checkFilter hcheck)
  refine ⟨filter, ?_, congrArg levelOfConfig (commitment_of_new hnew)⟩
  rw [SubscribeTask.newFilter, hconvert]
  dsimp only
  rw [hcheck]
  dsimp only
  rw [hnew]
  rfl

/-- A refusal before the state is locked fails the client. -/
theorem SubscribeTask.handle_of_error (hping : message.ping = none)
    (hnew : task.newFilter message = .ok (.error error)) :
    task.handle messages client message = .ok { client.fail error with serving := false } := by
  rw [handle, hping]
  dsimp only
  rw [hnew]
  rfl

/-- A refusal for the slot writes the commitment and nothing else. -/
theorem SubscribeTask.handle_of_slot (client : Subscriber Filter) (hping : message.ping = none)
    (hadmitted : task.Admitted message config)
    (hslot : messages.getCurrentTail (requested config) message.fromSlot = none) :
    ∃ client', task.handle messages client message = .ok client' ∧
      client'.state = { client.state with commitment := requested config } := by
  obtain ⟨filter, hnew, hcommitment⟩ := hadmitted.newFilter
  rw [handle, hping]
  dsimp only
  rw [hnew]
  refine ⟨_, rfl, ?_⟩
  simp only [Subscriber.request, hcommitment, hslot]

theorem SubscribeTask.newFilter_of_create {e : ConfigFilterError}
    (h : ConfigFilter.tryFrom task.strings task.configState message = .error e) :
    task.newFilter message = .ok (.error (task.createError e)) := by
  rw [SubscribeTask.newFilter, h]

theorem SubscribeTask.newFilter_of_check {e : ConfigLimitsError}
    (hconvert : ConfigFilter.tryFrom task.strings task.configState message = .ok config)
    (h : task.limits.checkFilter config = .error e) :
    task.newFilter message = .ok (.error (task.checkError e)) := by
  rw [SubscribeTask.newFilter, hconvert]
  dsimp only
  rw [h]

theorem SubscribeTask.admitted_of_newFilter {filter : Filter}
    (h : task.newFilter message = .ok (.ok filter)) :
    ∃ config, task.Admitted message config ∧ task.api.commitment filter = requested config := by
  cases hconvert : ConfigFilter.tryFrom task.strings task.configState message with
  | error e => cases h.symm.trans (newFilter_of_create hconvert)
  | ok config =>
    cases hcheck : task.limits.checkFilter config with
    | error e => cases h.symm.trans (newFilter_of_check hconvert hcheck)
    | ok u =>
      have hadmitted : task.Admitted message config := ⟨hconvert, hcheck⟩
      obtain ⟨built, hbuilt, hcommitment⟩ := hadmitted.newFilter
      cases h.symm.trans hbuilt
      exact ⟨config, hadmitted, hcommitment⟩

/-- The state the client has makes the refusal harmless: a request that is admitted asks
for the commitment the client has, and its error is there already. -/
def SubscribeTask.Harmless (task : SubscribeTask) (state : SubscribeClientState Filter)
    (message : SubscribeRequest) (error : Status) : Prop :=
  ∀ config, task.Admitted message config →
    state.commitment = requested config ∧ state.messagesError = some error

/-- A refused request sets the error and nothing else if and only if it has been refused
by the conversion or the limits, or its refusal is harmless. -/
theorem SubscribeTask.Refused.onlyError_iff (h : task.Refused messages message error)
    (hping : message.ping = none) (client : Subscriber Filter) :
    ∃ client', task.handle messages client message = .ok client' ∧
      (OnlyError client.state client'.state error ↔
        task.Harmless client.state message error) := by
  cases h with
  | create e hfails =>
    refine ⟨_, handle_of_error hping (newFilter_of_create hfails), ?_⟩
    refine iff_of_true (onlyError_fail client _) fun config hadmitted => ?_
    cases hfails.symm.trans hadmitted.1
  | check config e hconvert hfails =>
    refine ⟨_, handle_of_error hping (newFilter_of_check hconvert hfails), ?_⟩
    refine iff_of_true (onlyError_fail client _) fun config' hadmitted => ?_
    obtain rfl := Except.ok.inj (hconvert.symm.trans hadmitted.1)
    cases hfails.symm.trans hadmitted.2
  | slot config hadmitted hfails =>
    obtain ⟨client', hhandle, hstate⟩ := handle_of_slot client hping hadmitted hfails
    refine ⟨client', hhandle, ?_⟩
    constructor
    · intro honly config' hadmitted'
      obtain rfl := Except.ok.inj (hadmitted.1.symm.trans hadmitted'.1)
      have hcommitment := honly.commitment
      have herror := honly.messagesError
      rw [hstate] at hcommitment herror
      exact ⟨hcommitment.symm, herror⟩
    · intro hharmless
      obtain ⟨hcommitment, herror⟩ := hharmless config hadmitted
      rw [hstate]
      exact ⟨hcommitment.symm, rfl, rfl, herror, rfl, rfl, rfl, rfl⟩

end

-- ════════════════════════════════════════════════════════════════════════
-- The rings the heads were taken from
-- ════════════════════════════════════════════════════════════════════════

/-- The ring a request takes the head of its client from; `before` if it takes none. -/
def sourceOf {F : Type} (api : FilterApi F) (newFilter : Except Status F)
    (currentTail : CommitmentLevel → Option ℕ) (before : Option CommitmentLevel) :
    Option CommitmentLevel :=
  match newFilter with
  | .error _ => before
  | .ok filter =>
    if (currentTail (api.commitment filter)).isSome then some (api.commitment filter) else before

namespace Server

variable {F : Type}

/-- A run, and the ring each client's head was taken from. All requests of the run are
allowed ones. -/
inductive Traced (api : FilterApi F) (config : ConfigAppsGrpc) (N : ℕ)
    (Allowed : Subscriber F → Except Status F → (CommitmentLevel → Option ℕ) → Prop) :
    Server F → (ℕ → Option CommitmentLevel) → Prop where
  | new : Traced api config N Allowed (new config N) fun _ => none
  | ring {server : Server F} {source : ℕ → Option CommitmentLevel}
      (traced : Traced api config N Allowed server source) (level : CommitmentLevel) (ring : Ring)
      (step : (server.rings level).Step ring) :
      Traced api config N Allowed
        { server with rings := Function.update server.rings level ring } source
  | subscribe {server : Server F} {source : ℕ → Option CommitmentLevel}
      (traced : Traced api config N Allowed server source) :
      Traced api config N Allowed (server.subscribe config) source
  /-- A step that leaves the client where it is. -/
  | client {server : Server F} {source : ℕ → Option CommitmentLevel}
      (traced : Traced api config N Allowed server source) (k : ℕ) (client client' : Subscriber F)
      (is : server.clients k = some client) (free : server.Free k)
      (step : client.Step api (fun level => (server.rings level).view.tail) client')
      (same : Subscriber.Same client client') :
      Traced api config N Allowed (server.setClient k client') source
  | request {server : Server F} {source : ℕ → Option CommitmentLevel}
      (traced : Traced api config N Allowed server source) (k : ℕ) (client : Subscriber F)
      (newFilter : Except Status F) (currentTail : CommitmentLevel → Option ℕ)
      (is : server.clients k = some client) (free : server.Free k)
      (step : client.Step api (fun level => (server.rings level).view.tail)
        (client.request api newFilter currentTail))
      (allowed : Allowed client newFilter currentTail) :
      Traced api config N Allowed
        (server.setClient k (client.request api newFilter currentTail))
        (Function.update source k (sourceOf api newFilter currentTail (source k)))
  | worker {server : Server F} {source : ℕ → Option CommitmentLevel}
      (traced : Traced api config N Allowed server source) (w : ℕ) (server' : Server F)
      (step : server.WorkerStep api config w server') :
      Traced api config N Allowed server' source

/-- A request that is refused for its slot asks for the commitment the client has. -/
def Heeds (api : FilterApi F) (client : Subscriber F) (newFilter : Except Status F)
    (currentTail : CommitmentLevel → Option ℕ) : Prop :=
  ∀ filter, newFilter = .ok filter → currentTail (api.commitment filter) = none →
    client.state.commitment = api.commitment filter

/-- The filter and the commitment a client has. -/
def asks (server : Server F) (k : ℕ) : Option (Option F × CommitmentLevel) :=
  (server.clients k).map fun client => (client.state.filter, client.state.commitment)

section

variable {api : FilterApi F} {config : ConfigAppsGrpc} {N w k : ℕ} {server server' : Server F}
  {client : Subscriber F} {source : ℕ → Option CommitmentLevel}

theorem asks_of_clients (h : server.clients k = some client) :
    server.asks k = some (client.state.filter, client.state.commitment) := by
  rw [asks, h, Option.map_some]

theorem asks_setClient (server : Server F) (k i : ℕ) (client : Subscriber F) :
    (server.setClient k client).asks i =
      if i = k then some (client.state.filter, client.state.commitment) else server.asks i := by
  rw [asks, setClient_clients]
  split
  · rfl
  · rfl

/-- A client that keeps its filter and its commitment. -/
theorem asks_setClient_same {client' : Subscriber F} (h : server.clients k = some client)
    (hfilter : client'.state.filter = client.state.filter)
    (hcommitment : client'.state.commitment = client.state.commitment) :
    (server.setClient k client').asks = server.asks := by
  funext i
  rw [asks_setClient]
  split
  · rename_i hi
    rw [hi, asks_of_clients h, hfilter, hcommitment]
  · rfl

/-- What a worker does to clients: none changes its filter or its commitment, and a
client that is newly locked has a filter. -/
structure Serves (server server' : Server F) : Prop where
  asks : server'.asks = server.asks
  nextId : server'.nextId = server.nextId
  locks : ∀ w k, (server'.workers w).stage.locks = some k →
    (server.workers w).stage.locks = some k ∨
      ∃ filter level, server.asks k = some (some filter, level)

theorem Serves.trans {server'' : Server F} (h : Serves server server')
    (h' : Serves server' server'') : Serves server server'' := by
  refine ⟨h'.asks.trans h.asks, h'.nextId.trans h.nextId, fun w k hk => ?_⟩
  obtain hk | hk := h'.locks w k hk
  · exact h.locks w k hk
  · exact .inr (h.asks ▸ hk)

theorem Serves.setStage {stage : Stage} (h : ∀ k, stage.locks = some k →
    (server.workers w).stage.locks = some k ∨
      ∃ filter level, server.asks k = some (some filter, level)) :
    Serves server (server.setStage w stage) := by
  refine ⟨rfl, rfl, fun i k hk => ?_⟩
  rw [setStage_workers] at hk
  split at hk
  · rename_i hi
    exact hi ▸ h k hk
  · exact .inl hk

theorem Serves.setCache (server : Server F) (w : ℕ) (level : CommitmentLevel)
    (cache : MessagesCache) : Serves server (server.setCache w level cache) := by
  refine ⟨rfl, rfl, fun i k hk => .inl ?_⟩
  rwa [setCache_stage] at hk

theorem Serves.setClient {client' : Subscriber F} (h : server.clients k = some client)
    (hfilter : client'.state.filter = client.state.filter)
    (hcommitment : client'.state.commitment = client.state.commitment) :
    Serves server (server.setClient k client') :=
  ⟨asks_setClient_same h hfilter hcommitment, rfl, fun _ _ hk => .inl hk⟩

/-- Delivering a message changes neither the filter nor the commitment. -/
theorem deliver_keeps (api : FilterApi F) (client : Subscriber F) (message : ParsedMessage) :
    (client.deliver api message).state.filter = client.state.filter ∧
      (client.deliver api message).state.commitment = client.state.commitment := by
  cases hf : client.state.filter with
  | none =>
    rw [Subscriber.deliver, SubscribeClientState.deliver_none hf]
    exact ⟨hf, rfl⟩
  | some filter =>
    have hpushed : SubscribeClientState.Pushed _ (client.state.deliver api message) _ :=
      SubscribeClientState.deliver_some hf message
    exact ⟨hpushed.filter.trans hf, hpushed.commitment⟩

theorem Serves.accept (h : server.clients k = some client)
    (hlocked : (server.workers w).stage.locks = some k) (count : ℕ) (message : ParsedMessage) :
    Serves server (server.accept api w k count client message) := by
  obtain ⟨hfilter, hcommitment⟩ := deliver_keeps api client message
  exact (Serves.setClient h hfilter hcommitment).trans
    (.setStage fun _ hk => .inl (hlocked.trans hk))

/-- A message is accepted with a cache that has changed. -/
theorem Serves.setCache_accept (h : server.clients k = some client)
    (hlocked : (server.workers w).stage.locks = some k) (count : ℕ) (level : CommitmentLevel)
    (cache : MessagesCache) (message : ParsedMessage) :
    Serves server ((server.setCache w level cache).accept api w k count client message) := by
  have hclients : (server.setCache w level cache).clients k = some client := h
  refine (Serves.setCache server w level cache).trans (.accept hclients ?_ count message)
  rw [setCache_stage, hlocked]

/-- A stage that locks no client. -/
theorem Serves.setStage_unlocked (server : Server F) (w : ℕ) {stage : Stage}
    (h : stage.locks = none) : Serves server (server.setStage w stage) := by
  refine .setStage fun k hk => ?_
  rw [h] at hk
  cases hk

theorem Serves.lock (h : server.clients k = some client) (ping : Option Bytes) :
    Serves server (server.lock w k client ping) := by
  have hsame : Subscriber.Same client (client.sendPing ping) := Subscriber.same_sendPing ping
  rw [Server.lock]
  split
  · exact .setStage_unlocked server w rfl
  · have hclient : Serves server (server.setClient k (client.sendPing ping)) :=
      .setClient h hsame.filter hsame.commitment
    refine hclient.trans ?_
    dsimp only
    split
    · exact .setStage_unlocked _ w rfl
    · rename_i hsome
      refine .setStage fun i hi => .inr ?_
      obtain rfl := Option.some.inj hi
      obtain ⟨filter, hfilter⟩ :=
        Option.ne_none_iff_exists'.mp (mt Option.isNone_iff_eq_none.mpr hsome)
      refine ⟨filter, client.state.commitment, ?_⟩
      rw [hclient.asks, asks_of_clients h, ← hsame.filter, hfilter]

theorem Serves.tick (h : server.clients k = some client)
    (hlocked : (server.workers w).stage.locks = some k) (count : ℕ) :
    Serves server (server.tick api config w k count client) := by
  simp only [Server.tick]
  split
  · have hcache := Serves.setCache server w client.state.commitment
      ((server.cache w client.state.commitment).touch client.state.head)
    split
    · exact .setCache_accept h hlocked count _ _ _
    · exact hcache.trans (.setStage_unlocked _ w rfl)
    · refine hcache.trans (.setStage fun _ hi => .inl ?_)
      rw [setCache_stage, hlocked, ← hi]
      rfl
  · exact .setStage_unlocked server w rfl

theorem Serves.received (h : server.clients k = some client)
    (hlocked : (server.workers w).stage.locks = some k) (count head : ℕ) (result : Recv) :
    Serves server (server.received api w k count client head result) := by
  match result with
  | .ok (some message) => exact .setCache_accept h hlocked count _ _ message
  | .ok none => exact .setStage_unlocked server w rfl
  | .error error =>
    have hfail : Serves server (server.setClient k (client.fail (.ofRecvError error))) :=
      .setClient h rfl rfl
    exact hfail.trans (.setStage_unlocked _ w rfl)

theorem WorkerStep.serves (hs : server.WorkerStep api config w server') :
    Serves server server' := by
  cases hs with
  | pop k deque hidle hfirst =>
    have hstage : Serves server (server.setStage w
        (if (server.workers w).draining then .dropping k else .popped k)) := by
      refine .setStage_unlocked server w ?_
      split <;> rfl
    exact ⟨hstage.asks, hstage.nextId, hstage.locks⟩
  | drain =>
    refine ⟨rfl, rfl, fun i k hk => .inl ?_⟩
    dsimp only at hk
    rw [Function.update_apply] at hk
    split at hk
    · rename_i hi
      exact hi ▸ hk
    · exact hk
  | stop => exact .setStage_unlocked server w rfl
  | lock k client ping htaken hk => exact .lock hk ping
  | tick k count client hticks hk => exact .tick hk (congrArg Stage.locks hticks) count
  | load k count head client hloads hk =>
    exact .setStage fun _ hi => .inl ((congrArg Stage.locks hloads).trans hi)
  | read k count head tail loadedAt client hreads hk =>
    exact .setStage fun _ hi => .inl ((congrArg Stage.locks hreads).trans hi)
  | received k count head tail loadedAt result client hreturned hk =>
    exact .received hk (congrArg Stage.locks hreturned) count head result
  | leave k hleaves =>
    have hstage : Serves server (server.setStage w .idle) := .setStage_unlocked server w rfl
    exact ⟨hstage.asks, hstage.nextId, hstage.locks⟩
  | drop k client hdrops hk =>
    have hclient : Serves server (server.setClient k client.dropHandle) := .setClient hk rfl rfl
    exact hclient.trans (.setStage_unlocked _ w rfl)

/-- The head of a client with a filter was taken from the ring of its commitment, and
only clients with a filter are locked between two steps. -/
structure Sourced (server : Server F) (source : ℕ → Option CommitmentLevel) : Prop where
  source : ∀ k filter level, server.asks k = some (some filter, level) → source k = some level
  locked : ∀ w k, (server.workers w).stage.locks = some k →
    ∃ filter level, server.asks k = some (some filter, level)
  fresh : ∀ k, server.nextId ≤ k → server.asks k = none

theorem Sourced.serves (h : Sourced server source) (hs : Serves server server') :
    Sourced server' source := by
  refine ⟨hs.asks ▸ h.source, fun w k hk => ?_, ?_⟩
  · rw [hs.asks]
    obtain hk | hk := hs.locks w k hk
    · exact h.locked w k hk
    · exact hk
  · rw [hs.asks, hs.nextId]
    exact h.fresh

theorem Sourced.new (config : ConfigAppsGrpc) (N : ℕ) :
    Sourced (new config N : Server F) fun _ => none where
  source := by
    intro k filter level h
    cases h
  locked := by
    intro w k h
    cases h
  fresh := fun _ _ => rfl

theorem Sourced.subscribe (h : Sourced server source) (config : ConfigAppsGrpc) :
    Sourced (server.subscribe config) source := by
  have hasks : ∀ i, (server.subscribe config).asks i =
      if i = server.nextId then some (none, .finalized) else server.asks i :=
    fun i => asks_setClient server server.nextId i _
  refine ⟨fun k filter level hk => ?_, fun w k hk => ?_, fun k hk => ?_⟩
  · rw [hasks] at hk
    split at hk
    · cases hk
    · exact h.source k filter level hk
  · obtain ⟨filter, level, hlevel⟩ := h.locked w k hk
    refine ⟨filter, level, ?_⟩
    rw [hasks, if_neg]
    · exact hlevel
    · rintro rfl
      rw [h.fresh _ (Nat.le_refl _)] at hlevel
      cases hlevel
  · have hlt : server.nextId < k := hk
    rw [hasks, if_neg (Nat.ne_of_gt hlt)]
    exact h.fresh k (Nat.le_of_lt hlt)

/-- A client that gets a filter has its head from the ring of its commitment. -/
theorem Sourced.accept (h : Sourced server source) (hk : server.clients k = some client)
    {client' : Subscriber F} {filter : F} (hfilter : client'.state.filter = some filter) :
    Sourced (server.setClient k client')
      (Function.update source k (some client'.state.commitment)) := by
  have hasks : ∀ i, (server.setClient k client').asks i =
      if i = k then some (some filter, client'.state.commitment) else server.asks i := by
    intro i
    rw [asks_setClient, hfilter]
  refine ⟨fun i found level hi => ?_, fun w i hi => ?_, fun i hi => ?_⟩
  · rw [hasks] at hi
    rw [Function.update_apply]
    split at hi
    · rename_i heq
      cases hi
      rw [if_pos heq]
    · rename_i hne
      rw [if_neg hne]
      exact h.source i found level hi
  · rw [hasks]
    split
    · exact ⟨_, _, rfl⟩
    · exact h.locked w i hi
  · have hne : i ≠ k := by
      rintro rfl
      have hnone := h.fresh i hi
      rw [asks_of_clients hk] at hnone
      cases hnone
    rw [hasks, if_neg hne]
    exact h.fresh i hi

/-- An accepted request takes the head from the ring of its commitment; one that is
refused leaves the filter, and if it heeds the client the commitment as well. -/
theorem Sourced.request (h : Sourced server source) (hk : server.clients k = some client)
    {newFilter : Except Status F} {currentTail : CommitmentLevel → Option ℕ}
    (hheeds : Heeds api client newFilter currentTail) :
    Sourced (server.setClient k (client.request api newFilter currentTail))
      (Function.update source k (sourceOf api newFilter currentTail (source k))) := by
  cases newFilter with
  | error error =>
    have hsource : sourceOf api (.error error) currentTail (source k) = source k := rfl
    rw [hsource, Function.update_eq_self]
    exact h.serves (.setClient hk rfl rfl)
  | ok filter =>
    rw [sourceOf]
    cases htail : currentTail (api.commitment filter) with
    | none =>
      rw [Option.isSome_none, if_neg Bool.false_ne_true, Function.update_eq_self]
      have hrequest : (client.request api (.ok filter) currentTail).state =
          { client.state with commitment := api.commitment filter } := by
        simp only [Subscriber.request, htail]
      refine h.serves (.setClient hk ?_ ?_)
      · rw [hrequest]
      · rw [hrequest]
        exact (hheeds filter rfl htail).symm
    | some head =>
      rw [Option.isSome_some, if_pos rfl]
      have hrequest : (client.request api (.ok filter) currentTail).state =
          { client.state with
            commitment := api.commitment filter
            head := head
            filter := some filter } := by
        simp only [Subscriber.request, htail]
      have haccept := h.accept hk (congrArg SubscribeClientState.filter hrequest)
      rwa [congrArg SubscribeClientState.commitment hrequest] at haccept

/-- In a run whose requests heed their clients, all heads are where they belong. -/
theorem Traced.sourced (h : Traced api config N (Heeds api) server source) :
    Sourced server source := by
  induction h with
  | new => exact .new config N
  | ring _ level ring hstep ih => exact ih.serves ⟨rfl, rfl, fun _ _ hk => .inl hk⟩
  | subscribe _ ih => exact ih.subscribe config
  | client _ k client client' hk _ _ hsame ih =>
    exact ih.serves (.setClient hk hsame.filter hsame.commitment)
  | request _ k client newFilter currentTail hk _ _ hheeds ih => exact ih.request hk hheeds
  | worker _ w server' hstep ih => exact ih.serves hstep.serves

/-- Every state of the server can be reached by a traced run. -/
theorem Reachable.traced (h : Reachable api config N server) :
    ∃ source, Traced api config N (fun _ _ _ => True) server source := by
  induction h with
  | refl => exact ⟨_, .new⟩
  | tail _ hs ih =>
    obtain ⟨source, htraced⟩ := ih
    cases hs with
    | ring level ring hstep => exact ⟨source, htraced.ring level ring hstep⟩
    | subscribe => exact ⟨source, htraced.subscribe⟩
    | worker w server' hstep => exact ⟨source, htraced.worker w _ hstep⟩
    | client k client client' hk hfree hstep =>
      cases hstep with
      | request newFilter fromSlot slots hserves =>
        exact ⟨_, htraced.request k client newFilter _ hk hfree
          (.request newFilter fromSlot slots hserves) trivial⟩
      | poll waker hkept =>
        exact ⟨source, htraced.client k client _ hk hfree (.poll waker hkept)
          (Subscriber.same_pollNext waker)⟩
      | pong data hserves =>
        exact ⟨source, htraced.client k client _ hk hfree (.pong data hserves)
          (Subscriber.same_ping data)⟩
      | shutdown hserves =>
        exact ⟨source, htraced.client k client _ hk hfree (.shutdown hserves)
          ⟨rfl, rfl, rfl, rfl, rfl⟩⟩
      | dropTask hkept =>
        exact ⟨source, htraced.client k client _ hk hfree (.dropTask hkept)
          ⟨rfl, rfl, rfl, rfl, rfl⟩⟩
      | dropStream hkept =>
        exact ⟨source, htraced.client k client _ hk hfree (.dropStream hkept)
          ⟨rfl, rfl, rfl, rfl, rfl⟩⟩

end

end Server

/-- A request whose refusal is harmless heeds its client. -/
theorem SubscribeTask.Harmless.heeds {task : SubscribeTask} {messages : Messages}
    {message : SubscribeRequest} {client : Subscriber Filter} {error : Status}
    {newFilter : Except Status Filter} (h : task.Harmless client.state message error)
    (hnew : task.newFilter message = .ok newFilter) :
    Server.Heeds task.api client newFilter fun level =>
      messages.getCurrentTail level message.fromSlot := by
  rintro filter rfl -
  obtain ⟨config, hadmitted, hcommitment⟩ := SubscribeTask.admitted_of_newFilter hnew
  exact (h config hadmitted).1.trans hcommitment.symm

/-- A worker takes a client from the queue and locks it. -/
theorem Server.Traced.lock {F : Type} {api : FilterApi F} {config : ConfigAppsGrpc} {N : ℕ}
    {Allowed : Subscriber F → Except Status F → (CommitmentLevel → Option ℕ) → Prop}
    {server : Server F} {source : ℕ → Option CommitmentLevel} {client : Subscriber F} {filter : F}
    (h : server.Traced api config N Allowed source) (hk : server.clients 0 = some client)
    (hdeque : server.deque = [0]) (hworkers : ∀ w, server.workers w = .new config)
    (hfilter : client.state.filter = some filter) (hcount : client.state.refCount ≠ 1) :
    ∃ server' : Server F, server'.Traced api config N Allowed source ∧
      (server'.workers 0).stage.locks = some 0 ∧ server'.clients 0 = some client := by
  have hidle : ∀ w, (server.workers w).stage = .idle := fun w => by rw [hworkers]; rfl
  have hfree : server.Free 0 := fun w hlocks => by rw [hidle] at hlocks; cases hlocks
  have hpop := h.worker 0 _ (.pop 0 [] (hidle 0) hdeque)
  have hpopped : ((server.pop 0 0 []).workers 0).stage = .popped 0 := by
    rw [Server.pop, Server.setStage_stage, hworkers]
    rfl
  have hfree' : (server.pop 0 0 []).Free 0 := by
    refine Server.Free.setStage hfree ?_
    split <;> exact fun hlocks => by cases hlocks
  have hlock := hpop.worker 0 _ (.lock 0 client none hpopped hk hfree')
  have hserver : (server.pop 0 0 []).lock 0 0 client none =
      ((server.pop 0 0 []).setClient 0 client).setStage 0 (.ticking 0 0) := by
    rw [Server.lock, if_neg hcount]
    simp only [Subscriber.sendPing, hfilter, Option.isNone_some, Bool.false_eq_true, if_false]
  rw [hserver] at hlock
  refine ⟨_, hlock, ?_, Server.setClient_self (server.pop 0 0 []) 0 client⟩
  rw [Server.setStage_stage]
  rfl

/-- A refused request sets the error and nothing else if and only if it has been refused
by the conversion or the limits, or its refusal is harmless. In a run whose requests all
heed their clients, the client a worker has locked is at a position taken from the ring
the worker reads. -/
theorem refused_request (task : SubscribeTask) {F : Type} (api : FilterApi F)
    (config : ConfigAppsGrpc) (N : ℕ) :
    (∀ (messages : Messages) (client : Subscriber Filter) (message : SubscribeRequest)
      (error : Status), message.ping = none → task.Refused messages message error →
      ∃ client', task.handle messages client message = .ok client' ∧
        (OnlyError client.state client'.state error ↔
          task.Harmless client.state message error)) ∧
    (∀ (server : Server F) (source : ℕ → Option CommitmentLevel),
      server.Traced api config N (Server.Heeds api) source →
      ∀ w k client, (server.workers w).stage.locks = some k → server.clients k = some client →
        source k = some client.state.commitment) := by
  refine ⟨fun messages client message error hping h => h.onlyError_iff hping client, ?_⟩
  intro server source htraced w k client hlocks hk
  have hsourced := htraced.sourced
  obtain ⟨filter, level, hlevel⟩ := hsourced.locked w k hlocks
  have hasks := hlevel.symm.trans (Server.asks_of_clients hk)
  rw [hsourced.source k filter level hlevel, (Prod.mk.inj (Option.some.inj hasks)).2]

/-- A filter is its commitment, and there are no updates. -/
def bareApi : FilterApi CommitmentLevel := ⟨id, fun _ _ _ => []⟩

/-- A task with the default limits. -/
def defaultTask : SubscribeTask where
  limits := .default
  strings := bytewise
  configState := .listed
  filterState := .listed
  debugFilterError := fun _ => ""
  debugLimitsError := fun _ => ""
  debugFromSlot := fun _ => "Some(5)"
  createPong := fun _ => []
  getUpdates := fun _ _ _ => []

/-- A request for processed messages from slot 5 on. -/
def processedFromFive : SubscribeRequest :=
  { SubscribeRequest.ofConfig bytewise .listed ConfigFilter.default with
    commitment := some 0
    fromSlot := some 5 }

theorem refused_request_moves :
    (∃ client' : Subscriber Filter,
      defaultTask.Refused (.new ⟨4, 2, 100⟩ true) processedFromFive
        (defaultTask.slotError (some 5)) ∧
      defaultTask.handle (.new ⟨4, 2, 100⟩ true) (.new 10) processedFromFive = .ok client' ∧
      (Subscriber.new 10 : Subscriber Filter).state.commitment = .finalized ∧
      client'.state.commitment = .processed ∧ client'.state.messagesError = none) ∧
    ∃ (server : Server CommitmentLevel) (source : ℕ → Option CommitmentLevel)
      (client : Subscriber CommitmentLevel),
      server.Traced bareApi ⟨10, 1, 1⟩ 2 (fun _ _ _ => True) source ∧
      (server.workers 0).stage.locks = some 0 ∧ server.clients 0 = some client ∧
      client.state.commitment = .processed ∧ source 0 = some .finalized := by
  refine ⟨?_, ?_⟩
  · have hadmitted : defaultTask.Admitted processedFromFive
        { ConfigFilter.default with commitment := some .processed } := ⟨rfl, rfl⟩
    have hslot : (Messages.new ⟨4, 2, 100⟩ true).getCurrentTail .processed (some 5) = none := rfl
    obtain ⟨client', hhandle, hstate⟩ :=
      SubscribeTask.handle_of_slot (.new 10) rfl hadmitted hslot
    exact ⟨client', .slot _ hadmitted rfl, hhandle, rfl, by rw [hstate]; rfl, by rw [hstate]; rfl⟩
  · have h₁ : Server.Traced bareApi ⟨10, 1, 1⟩ 2 (fun _ _ _ => True) _ _ := .subscribe .new
    have h₂ := h₁.request 0 (.new 10) (.ok CommitmentLevel.finalized) _ rfl (fun _ h => by cases h)
      (.request (.ok CommitmentLevel.finalized) none (fun _ => ∅) rfl) trivial
    have h₃ := h₂.request 0 _ (.ok CommitmentLevel.processed) _ (Server.setClient_self ..)
      (fun _ h => by cases h)
      (.request (.ok CommitmentLevel.processed) (some 5) (fun _ => ∅) rfl) trivial
    obtain ⟨server, h₄, hlocks, hk⟩ := h₃.lock (Server.setClient_self ..) rfl (fun _ => rfl) rfl
      (by decide)
    exact ⟨server, _, _, h₄, hlocks, hk, rfl, rfl⟩

/-- A commitment that does not exist is refused by the conversion, and a client that has
been accepted is served from its ring. -/
theorem refused_request_unknown :
    (∃ client', defaultTask.handle (.new ⟨4, 2, 100⟩ true) (.new 10)
        { processedFromFive with commitment := some 9 } = .ok client' ∧
      OnlyError (Subscriber.new 10 : Subscriber Filter).state client'.state
        (defaultTask.createError (.unknownCommitment 9))) ∧
    ∃ (server : Server CommitmentLevel) (source : ℕ → Option CommitmentLevel)
      (client : Subscriber CommitmentLevel),
      (server.workers 0).stage.locks = some 0 ∧ server.clients 0 = some client ∧
      client.state.commitment = .confirmed ∧ source 0 = some client.state.commitment := by
  obtain ⟨hrequests, hruns⟩ := refused_request defaultTask bareApi ⟨10, 1, 1⟩ 2
  refine ⟨?_, ?_⟩
  · have hfails : ConfigFilter.tryFrom bytewise .listed
        { processedFromFive with commitment := some 9 } = .error (.unknownCommitment 9) := rfl
    obtain ⟨client', hhandle, honly⟩ := hrequests (.new ⟨4, 2, 100⟩ true) (.new 10) _ _ rfl
      (.create _ hfails)
    refine ⟨client', hhandle, honly.mpr fun config hadmitted => ?_⟩
    cases hfails.symm.trans hadmitted.1
  · have h₁ : Server.Traced bareApi ⟨10, 1, 1⟩ 2 (Server.Heeds bareApi) _ _ := .subscribe .new
    have h₂ := h₁.request 0 (.new 10) (.ok CommitmentLevel.confirmed) _ rfl (fun _ h => by cases h)
      (.request (.ok CommitmentLevel.confirmed) none (fun _ => ∅) rfl)
      fun filter _ htail => by cases htail
    obtain ⟨server, h₃, hlocks, hk⟩ := h₂.lock (Server.setClient_self ..) rfl (fun _ => rfl) rfl
      (by decide)
    exact ⟨server, _, _, hlocks, hk, rfl, hruns server _ h₃ 0 0 _ hlocks hk⟩

end Dragonmouth.Grpc
