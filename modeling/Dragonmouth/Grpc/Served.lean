import Dragonmouth.Filters.Contents
import Dragonmouth.Grpc.RequestRefusal

/-!
# What subscribers are served

The server of gRPC with the filters it builds for requests. In every run, what a client
is given since its request was accepted are the updates its filter selects of consecutive
messages, each encoded as its contents. Where the conditions and slices of the requests end within
64 bits, and the slices of a request are together no longer than what can be allocated,
no message makes a filter panic or the server abort. The protobuf library, the generated
code and the decoder of the client are parameters.

## Main definitions

- `AdmittedFilter`: a filter built for a request that was admitted
- `AdmittedFilter.api`: the server's view of such filters
- `Delivered`: what a client has been given for its messages

## Main results

- `AdmittedFilter.serves`: every message is answered with what is selected of it
- `Server.updates_as_requested`: so is every client, in every run
-/

namespace Dragonmouth.Grpc

open Checks Richat
open Encoding (Prost wire wire_documented wire_wireFormat)
open Filters hiding Panic

-- ════════════════════════════════════════════════════════════════════════
-- The filters of the server
-- ════════════════════════════════════════════════════════════════════════

/-- A filter that has been built for a request the limits admit, of which no slices are
longer than a vector that the allocator serves. -/
structure AdmittedFilter (task : SubscribeTask) (allocMax : ℕ) where
  message : SubscribeRequest
  config : ConfigFilter
  filter : Filter
  admitted : task.Admitted message config
  created : Filter.new task.filterState config = .ok filter
  fits : config.Fits allocMax

/-- `get_updates_ref` with every update encoded. -/
def encodedUpdates (P : Prost) (G : Geyser) (allocMax : ℕ) (validAccountData : Bytes → Bool)
    (filter : Filter) (message : ParsedMessage) (commitment : CommitmentLevel) :
    Except Crash (List Bytes) := do
  let updates ← (filter.getUpdatesRef validAccountData message commitment).mapError .panic
  updates.mapM (FilteredUpdate.encodeWithin P G allocMax)

namespace AdmittedFilter

variable {task : SubscribeTask} {allocMax : ℕ}

/-- The task answers the request with the filter. -/
theorem newFilter (self : AdmittedFilter task allocMax) :
    task.newFilter self.message = .ok (.ok self.filter) := by
  obtain ⟨hconvert, hcheck⟩ := self.admitted
  rw [SubscribeTask.newFilter, hconvert]
  dsimp only
  rw [hcheck]
  dsimp only
  rw [self.created]
  rfl

/-- The filter of every request the task takes is one of these, if it fits. -/
theorem of_newFilter {message : SubscribeRequest} {filter : Filter}
    (h : task.newFilter message = .ok (.ok filter)) : ∃ config, task.Admitted message config ∧
      (config.Fits allocMax → ∃ self : AdmittedFilter task allocMax,
        self.message = message ∧ self.config = config ∧ self.filter = filter) := by
  obtain ⟨config, hadmitted, -⟩ := SubscribeTask.admitted_of_newFilter h
  refine ⟨config, hadmitted, fun hfits => ?_⟩
  obtain ⟨built, hcreated⟩ := Filter.new_ok task.filterState (buildable_of_checkFilter hadmitted.2)
  let self : AdmittedFilter task allocMax := ⟨message, config, built, hadmitted, hcreated, hfits⟩
  have hsame := h.symm.trans self.newFilter
  exact ⟨self, rfl, rfl, (Except.ok.inj (Except.ok.inj hsame)).symm⟩

/-- The filters of the server; `encodedUpdates` succeeds. -/
def api (P : Prost) (G : Geyser) (task : SubscribeTask) (allocMax : ℕ)
    (validAccountData : Bytes → Bool) : FilterApi (AdmittedFilter task allocMax) where
  commitment := fun self => levelOfConfig self.filter.commitment
  getUpdates := fun self message commitment =>
    (encodedUpdates P G allocMax validAccountData self.filter message commitment).toOption.getD []

/-- What is sent of a message are the contents of the updates a request selects of it. -/
def Serves (P : Prost) (decode : Bytes → Except String SubscribeUpdate)
    (validAccountData : Bytes → Bool) (config : ConfigFilter) (commitment : CommitmentLevel)
    (message : ParsedMessage) (datas : List Bytes) : Prop :=
  ∃ updates, Selected validAccountData config commitment message updates ∧
    List.Forall₂ (Conveys P decode config.accountsDataSlice) updates datas

/-- Nothing panics or aborts, and of a transaction with its own keys the right updates are
sent. -/
theorem serves {P : Prost} {G : Geyser} {decode : Bytes → Except String SubscribeUpdate}
    (hP : P.Documented) (hwire : P.WireFormat) (hG : G.Documented P) (hdecode : Decodes P decode)
    (self : AdmittedFilter task allocMax) (validAccountData : Bytes → Bool)
    (message : ParsedMessage) (commitment : CommitmentLevel) :
    ∃ datas, encodedUpdates P G allocMax validAccountData self.filter message commitment =
        .ok datas ∧
      (api P G task allocMax validAccountData).getUpdates self message commitment = datas ∧
      ((∀ tx, message = .transaction tx → Keyed tx) →
        Serves P decode validAccountData self.config commitment message datas) := by
  obtain ⟨updates, datas, hok, hdatas, hconveys, hselected⟩ :=
    (Filter.built_of_new self.created).encoded hP hwire hG hdecode validAccountData
      (buildable_of_checkFilter self.admitted.2) self.fits message commitment
  have hencoded : encodedUpdates P G allocMax validAccountData self.filter message commitment =
      .ok datas := bind_eq_ok.mpr ⟨updates, mapError_eq_ok.mpr hok, hdatas⟩
  refine ⟨datas, hencoded, ?_, fun hkeyed => ⟨updates, hselected hkeyed, hconveys⟩⟩
  change (encodedUpdates _ _ _ _ _ _ _).toOption.getD [] = datas
  rw [hencoded]
  rfl

end AdmittedFilter

-- ════════════════════════════════════════════════════════════════════════
-- Runs of the server
-- ════════════════════════════════════════════════════════════════════════

section

variable {N : ℕ} {ring : Ring} {head : ℕ}

/-- The messages read from a position on have been pushed to the ring. -/
theorem MessagesFrom.mem_log {messages : List ParsedMessage}
    (h : MessagesFrom N ring head messages) {message : ParsedMessage}
    (hmessage : message ∈ messages) : ∃ x ∈ ring.log, x.2 = message := by
  obtain ⟨i, hi⟩ := List.mem_iff_getElem?.mp hmessage
  obtain ⟨-, x, hx, hm⟩ := messageAt_eq_some.mp (h i message hi)
  exact ⟨x, List.mem_of_getElem? hx, hm⟩

end

section

variable {P : Prost} {G : Geyser} {decode : Bytes → Except String SubscribeUpdate}
  {task : SubscribeTask} {allocMax : ℕ} {validAccountData : Bytes → Bool}
  {config : ConfigAppsGrpc} {N k : ℕ} {server : Server (AdmittedFilter task allocMax)}
  {client : Subscriber (AdmittedFilter task allocMax)}
  {accepted : Accepted (AdmittedFilter task allocMax)}

/-- What a client has been given since its request was accepted: what was queued then, and
for each of its messages what the request asks for. -/
structure Delivered (P : Prost) (G : Geyser) (decode : Bytes → Except String SubscribeUpdate)
    (validAccountData : Bytes → Bool) (N : ℕ) (server : Server (AdmittedFilter task allocMax))
    (client : Subscriber (AdmittedFilter task allocMax))
    (accepted : Accepted (AdmittedFilter task allocMax)) (messages : List ParsedMessage)
    (groups : List (List Bytes)) : Prop where
  consecutive : MessagesFrom N
    (server.rings (SubscribeTask.requested accepted.filter.config)) accepted.head messages
  head : client.state.head = accepted.head + messages.length
  first : accepted.first = true → accepted.queued = []
  data : dataOf (itemsOk client.yielded) ++ dataOf client.state.messages =
    accepted.queued ++ groups.flatten
  served : List.Forall₂ (fun message datas =>
    encodedUpdates P G allocMax validAccountData accepted.filter.filter message
      (SubscribeTask.requested accepted.filter.config) = .ok datas ∧
    AdmittedFilter.Serves P decode validAccountData accepted.filter.config
      (SubscribeTask.requested accepted.filter.config) message datas) messages groups

/-- In every run, a client is given what its request asks for of every message from the
position on where it was accepted. -/
theorem Server.updates_as_requested (hP : P.Documented) (hwire : P.WireFormat)
    (hG : G.Documented P) (hdecode : Decodes P decode) (hN : ∃ k, N = 2 ^ k)
    (h : Server.Reachable (AdmittedFilter.api P G task allocMax validAccountData) config N server)
    (hk : server.clients k = some client) (ha : client.accepted = some accepted)
    (hkeyed : ∀ x ∈ (server.rings (SubscribeTask.requested accepted.filter.config)).log,
      ∀ tx, x.2 = .transaction tx → Keyed tx) :
    ∃ messages groups,
      Delivered P G decode validAccountData N server client accepted messages groups := by
  obtain ⟨messages, hfirst, hfrom, hhead, hdata⟩ :=
    (h.inv hN).safe.delivered k client accepted hk ha
  have hlevel : (AdmittedFilter.api P G task allocMax validAccountData).commitment accepted.filter =
      SubscribeTask.requested accepted.filter.config :=
    congrArg levelOfConfig (commitment_of_new accepted.filter.created)
  rw [FilterApi.updates, hlevel] at hdata
  rw [hlevel] at hfrom
  refine ⟨messages, messages.map fun message =>
    (AdmittedFilter.api P G task allocMax validAccountData).getUpdates accepted.filter message
      (SubscribeTask.requested accepted.filter.config), hfrom, hhead, hfirst,
    hdata.trans (by rw [List.flatMap_def]), ?_⟩
  rw [List.forall₂_map_right_iff, List.forall₂_same]
  intro message hmessage
  obtain ⟨datas, hencoded, hupdates, hserves⟩ := AdmittedFilter.serves hP hwire hG hdecode
    accepted.filter validAccountData message (SubscribeTask.requested accepted.filter.config)
  rw [hupdates]
  refine ⟨hencoded, hserves fun tx htx => ?_⟩
  obtain ⟨x, hx, rfl⟩ := hfrom.mem_log hmessage
  exact hkeyed x hx tx htx

/-- All slots. -/
def slotsConfig : ConfigFilter :=
  { ConfigFilter.default with slots := .singleton "slots" ⟨none⟩ }

/-- The filter of a request for all slots. -/
def slotsFilter : AdmittedFilter defaultTask 1024 where
  message := SubscribeRequest.ofConfig bytewise .listed slotsConfig
  config := slotsConfig
  filter := _
  admitted := ⟨rfl, rfl⟩
  created := rfl
  fits := ⟨fun _ h => absurd h List.not_mem_nil, fun _ h => absurd h List.not_mem_nil, by decide,
    by decide⟩

/-- A subscriber to all slots is given the first of two, under the name of its filter. -/
theorem Server.updates_as_requested_slot :
    ∃ (server : Server (AdmittedFilter defaultTask 1024))
      (client : Subscriber (AdmittedFilter defaultTask 1024)) (messages : List ParsedMessage)
      (groups : List (List Bytes)), server.clients 0 = some client ∧
    client.accepted = some ⟨slotsFilter, 2, [], true⟩ ∧
    dataOf (itemsOk client.yielded) = [[10, 5, 115, 108, 111, 116, 115, 26, 2, 8, 1, 90, 0]] ∧
    Delivered wire (geyser wire) SubscribeUpdate.decode (fun _ => false) 2 server client
      ⟨slotsFilter, 2, [], true⟩ messages groups := by
  let api := AdmittedFilter.api wire (geyser wire) defaultTask 1024 fun _ => false
  have h₁ : Server.Reachable api ⟨10, 1, 1⟩ 2 _ := .tail .refl .subscribe
  have h₂ := h₁.step (.client 0 (.new 10) _ rfl (fun _ h => by cases h)
    (.request (.ok slotsFilter) none (fun _ => ∅) rfl))
  have h₃ := h₂.write .processed (Ring.run_steps (.push (Richat.slotUpdate 1 3)) rfl rfl)
  have h₄ := h₃.write .processed
    (Ring.run_steps (.push (Richat.slotUpdate 1 5)) rfl (by decide +kernel))
  have h₅ := h₄.step (.worker 0 _ (.pop 0 [] rfl rfl))
  have h₆ := h₅.step (.worker 0 _ (.lock 0 ((Subscriber.new 10).request api (.ok slotsFilter)
    fun _ => some 2) none rfl rfl
    (Server.Free.setStage (fun _ h => by cases h) fun h => by cases h)))
  obtain ⟨server, h₇, hrings, hclients, hticks⟩ := h₆.delivers (w := 0) (k := 0)
    (Richat.slotUpdate 1 3).2 rfl rfl rfl (by decide) (by decide +kernel) (by decide +kernel)
    (by decide +kernel)
  have hk : server.clients 0 = some _ := congrFun hclients 0
  have h₈ := h₇.step (.worker 0 _ (.tick 0 1 _ hticks hk))
  rw [Server.tick, if_neg fun h => absurd h.2 (lt_irrefl 1)] at h₈
  have hfree : (server.setStage 0 (.leaving 0)).Free 0 :=
    h₇.free ⟨1, rfl⟩ (congrArg Stage.holds hticks) fun h => by cases h
  have h₉ := h₈.step (.client 0 _ _ hk hfree (.poll 0 rfl))
  have hlog : (server.rings .processed).log =
      [Richat.slotUpdate 1 3, Richat.slotUpdate 1 5] := by
    rw [hrings]
    decide +kernel
  have hkeyed : ∀ x ∈ (server.rings .processed).log, ∀ tx, x.2 = .transaction tx → Keyed tx := by
    intro x hx tx htx
    rw [hlog] at hx
    rcases List.mem_pair.mp hx with rfl | rfl
    · cases htx
    · cases htx
  obtain ⟨messages, groups, hdelivered⟩ :=
    updates_as_requested wire_documented wire_wireFormat (geyser_documented wire) decodes_wire
      ⟨1, rfl⟩ h₉ (Server.setClient_self ..) rfl hkeyed
  exact ⟨_, _, messages, groups, Server.setClient_self .., rfl, by decide +kernel, hdelivered⟩

end

end Dragonmouth.Grpc
