import Dragonmouth.Grpc.Delivery
import Dragonmouth.Grpc.Seat

/-!
# Every client has a seat

What the server does to one of its clients is a run of that client alone. So what
holds of a client alone holds of all clients, whatever the workers and the other
clients do: its count is that of its handles, it is given up for a reason only, its
stream is woken when there is something to read, and the data queued for it do not
outgrow the limit by more than one message.

## Main definitions

- `Server.Sits`: the client and the place a server has for it
- `Server.Attended`: what a client can rely on

## Main results

- `Server.Reachable.seated`: the server refines the runs of its clients
- `Server.attended`, `Server.queue_bounded`: what follows for them
- `Server.pongs_unbounded`: what is queued besides data has no bound
-/

namespace Dragonmouth.Grpc

open Richat

/-- Where the client of a worker is. -/
def Stage.place : Stage → Place
  | idle | stopped => .left
  | popped _ => .popped
  | ticking _ _ => .ticking
  | receiving _ _ _ => .receiving
  | leaving _ => .leaving
  | dropping _ => .dropping

/-- The runs of one client. -/
def Seat.Reachable {F : Type} (api : FilterApi F) (limit : ℕ) (seat : Seat F) : Prop :=
  Relation.ReflTransGen (fun before after => ∃ tail, Seat.Step api tail before after)
    (Seat.new limit) seat

theorem Seat.Reachable.step {F : Type} {api : FilterApi F} {limit : ℕ} {seat seat' : Seat F}
    (h : Seat.Reachable api limit seat) (tail : CommitmentLevel → ℕ)
    (hs : Seat.Step api tail seat seat') : Seat.Reachable api limit seat' := h.tail ⟨tail, hs⟩

theorem Seat.Reachable.inv {F : Type} {api : FilterApi F} {limit : ℕ} {seat : Seat F}
    (h : Seat.Reachable api limit seat) : seat.Inv limit := by
  induction h with
  | refl => exact .new
  | tail _ hstep ih =>
    obtain ⟨tail, hstep⟩ := hstep
    exact hstep.inv ih

theorem Seat.Reachable.dataLen_le {F : Type} {api : FilterApi F} {limit bound : ℕ} {seat : Seat F}
    (hbound : api.BoundedBy bound) (h : Seat.Reachable api limit seat) :
    dataLen seat.client.state.messages ≤ limit + bound := by
  induction h with
  | refl => exact Nat.zero_le _
  | tail hreach hstep ih =>
    obtain ⟨tail, hstep⟩ := hstep
    exact hstep.dataLen_le hbound (Seat.Reachable.inv hreach) ih

theorem Stage.place_of_holds {stage : Stage} {k : ℕ} (h : stage.holds = some k) :
    stage.place ≠ .left ∧ stage.place ≠ .queued := by
  cases stage with
  | idle => cases h
  | stopped => cases h
  | _ => exact ⟨fun he => (nomatch he), fun he => (nomatch he)⟩

theorem Stage.locks_of_place {stage : Stage} {k : ℕ} (h : stage.holds = some k)
    (hlocked : stage.place.locked = true) : stage.locks = some k := by
  cases stage with
  | ticking j count => exact h
  | receiving j count reader => exact h
  | _ => cases hlocked

namespace Server

variable {F : Type} {api : FilterApi F} {config : ConfigAppsGrpc} {N w k : ℕ}
  {server server' : Server F} {client : Subscriber F} {seat : Seat F}

/-- The client, and where the server has it. -/
structure Sits (server : Server F) (k : ℕ) (seat : Seat F) : Prop where
  client : server.clients k = some seat.client
  queued : k ∈ server.deque ↔ seat.place = .queued
  held : ∀ w, server.holds w = some k → (server.workers w).stage.place = seat.place
  holder : seat.place ≠ .queued → seat.place ≠ .left → ∃ w, server.holds w = some k
  drained : seat.drained = true → ∃ w, (server.workers w).draining = true

/-- A client in the queue. -/
theorem Sits.of_queued (h : server.Owned) (hclient : server.clients k = some client)
    (hqueued : k ∈ server.deque) {drained : Bool}
    (hdrained : drained = true → ∃ w, (server.workers w).draining = true) :
    server.Sits k ⟨client, .queued, drained⟩ where
  client := hclient
  queued := iff_of_true hqueued rfl
  held w hw := absurd hqueued (h.apart w k hw)
  holder hne := absurd rfl hne
  drained := hdrained

/-- A client that a worker holds. -/
theorem Sits.of_held (h : server.Owned) (hclient : server.clients k = some client) {place : Place}
    (hw : server.holds w = some k) (hplace : (server.workers w).stage.place = place)
    {drained : Bool} (hdrained : drained = true → ∃ w, (server.workers w).draining = true) :
    server.Sits k ⟨client, place, drained⟩ where
  client := hclient
  queued := iff_of_false (h.apart w k hw) fun he =>
    (Stage.place_of_holds hw).2 (hplace.trans he)
  held i hi := h.one i w k hi hw ▸ hplace
  holder _ _ := ⟨w, hw⟩
  drained := hdrained

/-- A client that is not in the queue and not held. -/
theorem Sits.of_left (hclient : server.clients k = some client) (hqueued : k ∉ server.deque)
    (hfree : ∀ w, server.holds w ≠ some k) {drained : Bool}
    (hdrained : drained = true → ∃ w, (server.workers w).draining = true) :
    server.Sits k ⟨client, .left, drained⟩ where
  client := hclient
  queued := iff_of_false hqueued fun he => (nomatch he)
  held w hw := absurd hw (hfree w)
  holder _ hne := absurd rfl hne
  drained := hdrained

/-- What the server does about the client `who`, if any, and nobody else. -/
structure Deals (server server' : Server F) (who : Option ℕ) : Prop where
  clients : ∀ i, who ≠ some i → server'.clients i = server.clients i
  deque : ∀ i, who ≠ some i → (i ∈ server'.deque ↔ i ∈ server.deque)
  stages : ∀ w, (server'.workers w).stage = (server.workers w).stage ∨
    (∀ i, server.holds w = some i → who = some i) ∧ ∀ i, server'.holds w = some i → who = some i
  draining : ∀ w, (server.workers w).draining = true → (server'.workers w).draining = true

theorem Deals.drained {who : Option ℕ} (hd : Deals server server' who) (h : server.Sits k seat)
    (hdrained : seat.drained = true) : ∃ w, (server'.workers w).draining = true := by
  obtain ⟨w, hw⟩ := h.drained hdrained
  exact ⟨w, hd.draining w hw⟩

/-- The others stay where they are. -/
theorem Sits.other {who : Option ℕ} (h : server.Sits k seat) (hd : Deals server server' who)
    (hne : who ≠ some k) : server'.Sits k seat where
  client := (hd.clients k hne).trans h.client
  queued := (hd.deque k hne).trans h.queued
  held w hw := by
    obtain hstage | ⟨-, hafter⟩ := hd.stages w
    · rw [holds, hstage] at hw
      rw [hstage]
      exact h.held w hw
    · exact absurd (hafter k hw) hne
  holder hqueued hleft := by
    obtain ⟨w, hw⟩ := h.holder hqueued hleft
    obtain hstage | ⟨hbefore, -⟩ := hd.stages w
    · refine ⟨w, ?_⟩
      rw [holds, hstage]
      exact hw
    · exact absurd (hbefore k hw) hne
  drained := hd.drained h

-- ════════════════════════════════════════════════════════════════════════
-- What the steps of the server deal with
-- ════════════════════════════════════════════════════════════════════════

theorem setStage_draining (server : Server F) (w i : ℕ) (stage : Stage) :
    ((server.setStage w stage).workers i).draining = (server.workers i).draining := by
  rw [setStage_workers]
  split
  · rename_i hi
    rw [hi]
  · rfl

theorem setCache_holds (server : Server F) (w i : ℕ) (level : CommitmentLevel)
    (cache : MessagesCache) : (server.setCache w level cache).holds i = server.holds i :=
  congrArg Stage.holds (setCache_stage ..)

theorem Owned.setCache (h : server.Owned) (w : ℕ) (level : CommitmentLevel)
    (cache : MessagesCache) : (server.setCache w level cache).Owned :=
  h.keep (fun _ _ hk => (setCache_holds ..).symm.trans hk) rfl rfl

theorem setCache_draining (server : Server F) (w i : ℕ) (level : CommitmentLevel)
    (cache : MessagesCache) :
    ((server.setCache w level cache).workers i).draining = (server.workers i).draining := by
  rw [setCache_workers]
  split
  · rename_i hi
    rw [hi]
  · rfl

/-- A worker that deals with `who` goes on to another stage. -/
theorem stages_setStage {who : Option ℕ} {stage : Stage}
    (hw : ∀ i, server.holds w = some i → who = some i)
    (hs : ∀ i, stage.holds = some i → who = some i) (i : ℕ) :
    ((server.setStage w stage).workers i).stage = (server.workers i).stage ∨
      (∀ j, server.holds i = some j → who = some j) ∧
        ∀ j, (server.setStage w stage).holds i = some j → who = some j := by
  by_cases hi : i = w
  · subst hi
    refine .inr ⟨hw, fun j hj => ?_⟩
    rw [setStage_holds, if_pos rfl] at hj
    exact hs j hj
  · refine .inl ?_
    rw [setStage_workers, if_neg hi]

theorem Deals.setStage {who : Option ℕ} {stage : Stage}
    (hw : ∀ i, server.holds w = some i → who = some i)
    (hs : ∀ i, stage.holds = some i → who = some i) :
    Deals server (server.setStage w stage) who where
  clients _ _ := rfl
  deque _ _ := Iff.rfl
  stages := stages_setStage hw hs
  draining _ hi := (setStage_draining ..).trans hi

/-- The client is changed besides. -/
theorem Deals.setClient (hd : Deals server server' (some k)) (client : Subscriber F) :
    Deals server (server'.setClient k client) (some k) where
  clients i hi := by
    rw [setClient_clients, if_neg fun he => hi (congrArg some he.symm)]
    exact hd.clients i hi
  deque := hd.deque
  stages := hd.stages
  draining := hd.draining

/-- A cache is changed before. -/
theorem Deals.setCache {who : Option ℕ} {level : CommitmentLevel} {cache : MessagesCache}
    (hd : Deals (server.setCache w level cache) server' who) : Deals server server' who where
  clients := hd.clients
  deque := hd.deque
  stages i := by
    have hstages := hd.stages i
    rw [holds, setCache_stage] at hstages
    exact hstages
  draining i hi := hd.draining i ((setCache_draining ..).trans hi)

/-- The client is put in the queue or taken from it. -/
theorem Deals.setDeque (hd : Deals server server' (some k)) {deque : List ℕ}
    (hdeque : ∀ i, i ≠ k → (i ∈ deque ↔ i ∈ server.deque)) :
    Deals server { server' with deque := deque } (some k) where
  clients := hd.clients
  deque i hi := hdeque i fun he => hi (congrArg some he.symm)
  stages := hd.stages
  draining := hd.draining

-- ════════════════════════════════════════════════════════════════════════
-- The refinement
-- ════════════════════════════════════════════════════════════════════════

/-- Every client has a seat that a client alone can reach. -/
def Seated (api : FilterApi F) (limit : ℕ) (server : Server F) : Prop :=
  ∀ k client, server.clients k = some client →
    ∃ seat, server.Sits k seat ∧ Seat.Reachable api limit seat

section

variable {limit : ℕ} {client' : Subscriber F}

theorem Seated.exists_place (h : server.Seated api limit) (hk : server.clients k = some client) :
    ∃ place drained, server.Sits k ⟨client, place, drained⟩ ∧
      Seat.Reachable api limit ⟨client, place, drained⟩ := by
  obtain ⟨⟨found, place, drained⟩, hsits, hreach⟩ := h k client hk
  obtain rfl : found = client := Option.some.inj (hsits.client.symm.trans hk)
  exact ⟨place, drained, hsits, hreach⟩

theorem Seated.deals {who : Option ℕ} (h : server.Seated api limit)
    (hd : Deals server server' who)
    (hwho : ∀ k client, who = some k → server'.clients k = some client →
      ∃ seat, server'.Sits k seat ∧ Seat.Reachable api limit seat) :
    server'.Seated api limit := by
  intro k client hk
  by_cases hne : who = some k
  · exact hwho k client hne hk
  · obtain ⟨seat, hsits, hreach⟩ := h k client ((hd.clients k hne).symm.trans hk)
    exact ⟨seat, hsits.other hd hne, hreach⟩

/-- A worker goes on with its client. -/
theorem Seated.goOn (h : server.Seated api limit) (howned : server'.Owned)
    (hw : server.holds w = some k) (hk : server.clients k = some client)
    (hw' : server'.holds w = some k) (hk' : server'.clients k = some client')
    (hd : Deals server server' (some k))
    (hs : ∀ drained, Seat.Reachable api limit ⟨client, (server.workers w).stage.place, drained⟩ →
      Seat.Reachable api limit ⟨client', (server'.workers w).stage.place, drained⟩) :
    server'.Seated api limit := by
  refine h.deals hd fun i found hi _ => ?_
  obtain rfl := Option.some.inj hi
  obtain ⟨place, drained, hsits, hreach⟩ := h.exists_place hk
  obtain rfl : (server.workers w).stage.place = place := hsits.held w hw
  exact ⟨_, .of_held howned hk' hw' rfl (hd.drained hsits), hs drained hreach⟩

/-- A worker changes its client and goes on with it. -/
theorem Seated.change (h : server.Seated api limit) {stage : Stage}
    (howned : server.Owned) (hw : server.holds w = some k) (hk : server.clients k = some client)
    (hs : stage.holds = some k)
    (hstep : ∀ drained, Seat.Reachable api limit
        ⟨client, (server.workers w).stage.place, drained⟩ →
      Seat.Reachable api limit ⟨client', stage.place, drained⟩) :
    ((server.setClient k client').setStage w stage).Seated api limit := by
  have hd : Deals server (server.setStage w stage) (some k) :=
    .setStage (fun i hi => hw.symm.trans hi) fun i hi => hs.symm.trans hi
  have howned' : ((server.setClient k client').setStage w stage).Owned :=
    (howned.setStage fun i hi => hw.trans (hs.symm.trans hi)).keep (fun _ _ hi => hi) rfl rfl
  refine h.goOn howned' hw hk ?_ (setClient_self ..) (hd.setClient client') ?_
  · rw [setStage_holds, if_pos rfl]
    exact hs
  · rw [setStage_stage]
    exact hstep

/-- A worker goes on with its client as it is. -/
theorem Seated.setStage (h : server.Seated api limit) {stage : Stage}
    (howned : server.Owned) (hw : server.holds w = some k) (hk : server.clients k = some client)
    (hs : stage.holds = some k)
    (hstep : ∀ drained, Seat.Reachable api limit
        ⟨client, (server.workers w).stage.place, drained⟩ →
      Seat.Reachable api limit ⟨client, stage.place, drained⟩) :
    (server.setStage w stage).Seated api limit := by
  have hd : Deals server (server.setStage w stage) (some k) :=
    .setStage (fun i hi => hw.symm.trans hi) fun i hi => hs.symm.trans hi
  have howned' := howned.setStage fun i hi => hw.trans (hs.symm.trans hi)
  refine h.goOn howned' hw hk ?_ hk hd ?_
  · rw [setStage_holds, if_pos rfl]
    exact hs
  · rw [setStage_stage]
    exact hstep

/-- The caches are nobody's. -/
theorem Seated.setCache (h : server.Seated api limit) (w : ℕ) (level : CommitmentLevel)
    (found : MessagesCache) : (server.setCache w level found).Seated api limit := by
  have hd : Deals server (server.setCache w level found) none :=
    ⟨fun _ _ => rfl, fun _ _ => Iff.rfl, fun _ => .inl (setCache_stage ..),
      fun _ hi => (setCache_draining ..).trans hi⟩
  exact h.deals hd fun _ _ hi => (nomatch hi)

theorem Seated.pop (h : server.Seated api limit) {deque : List ℕ}
    (howned : (server.pop w k deque).Owned)
    (hidle : (server.workers w).stage = .idle) (hfirst : server.deque = k :: deque) :
    (server.pop w k deque).Seated api limit := by
  have hmem : k ∈ server.deque := hfirst ▸ List.mem_cons_self
  have hholds : ∀ i, server.holds w ≠ some i := fun i hi => by
    rw [holds, hidle] at hi
    cases hi
  have hstage : (if (server.workers w).draining then Stage.dropping k else .popped k).holds =
      some k := by
    split <;> rfl
  have hd : Deals server (server.pop w k deque) (some k) := by
    refine Deals.setDeque (.setStage (fun i hi => absurd hi (hholds i)) fun i hi =>
      hstage.symm.trans hi) fun i hi => ?_
    rw [hfirst, List.mem_cons]
    exact ⟨.inr, fun hor => hor.resolve_left hi⟩
  have hw : (server.pop w k deque).holds w = some k :=
    ((setStage_holds ..).trans (if_pos rfl)).trans hstage
  refine h.deals hd fun i client hi hk => ?_
  obtain rfl := Option.some.inj hi
  obtain ⟨place, drained, hsits, hreach⟩ := h.exists_place hk
  obtain rfl : place = .queued := hsits.queued.mp hmem
  have hplace : ((server.pop w k deque).workers w).stage =
      if (server.workers w).draining then Stage.dropping k else .popped k := setStage_stage ..
  cases hdraining : (server.workers w).draining with
  | true =>
    rw [hdraining, if_pos rfl] at hplace
    exact ⟨_, .of_held howned hk hw (congrArg Stage.place hplace)
      (fun _ => ⟨w, hd.draining w hdraining⟩), hreach.step (fun _ => 0) (.drain rfl)⟩
  | false =>
    rw [hdraining, if_neg Bool.false_ne_true] at hplace
    exact ⟨_, .of_held howned hk hw (congrArg Stage.place hplace) (hd.drained hsits),
      hreach.step (fun _ => 0) (.take rfl)⟩

theorem Seated.pushClient (h : server.Seated api limit) (howned : (server.pushClient w k).Owned)
    (hleaves : (server.workers w).stage = .leaving k) :
    (server.pushClient w k).Seated api limit := by
  have hw : server.holds w = some k := congrArg Stage.holds hleaves
  have hd : Deals server (server.pushClient w k) (some k) := by
    refine Deals.setDeque (.setStage (fun i hi => hw.symm.trans hi) fun i hi => ?_)
      fun i hi => ?_
    · cases hi
    · rw [List.mem_append, List.mem_singleton]
      exact ⟨fun hor => hor.resolve_right hi, .inl⟩
  refine h.deals hd fun i client hi hk => ?_
  obtain rfl := Option.some.inj hi
  obtain ⟨place, drained, hsits, hreach⟩ := h.exists_place hk
  obtain rfl : (server.workers w).stage.place = place := hsits.held w hw
  rw [hleaves] at hreach
  exact ⟨_, .of_queued howned hk (List.mem_append_right _ (List.mem_singleton_self k))
    (hd.drained hsits), hreach.step (fun _ => 0) (.back rfl)⟩

theorem Seated.drop (h : server.Seated api limit) (howned : server.Owned)
    (hdrops : (server.workers w).stage = .dropping k) (hk : server.clients k = some client) :
    ((server.setClient k client.dropHandle).setStage w .idle).Seated api limit := by
  have hw : server.holds w = some k := congrArg Stage.holds hdrops
  have hd : Deals server (server.setStage w .idle) (some k) :=
    .setStage (fun i hi => hw.symm.trans hi) fun i hi => (nomatch hi)
  refine h.deals (hd.setClient client.dropHandle) fun i _ hi _ => ?_
  obtain rfl := Option.some.inj hi
  obtain ⟨place, drained, hsits, hreach⟩ := h.exists_place hk
  obtain rfl : (server.workers w).stage.place = place := hsits.held w hw
  rw [hdrops] at hreach
  have hfree : ∀ i, (server.setStage w .idle).holds i ≠ some k := by
    intro i hi
    rw [setStage_holds] at hi
    split at hi
    · cases hi
    · rename_i hne
      exact hne (howned.one i w k hi hw)
  exact ⟨_, .of_left (setClient_self (server.setStage w .idle) k _) (howned.apart w k hw) hfree
    (hd.drained hsits), hreach.step (fun _ => 0) (.drop rfl)⟩

theorem Seated.lock (h : server.Seated api limit) (howned : server.Owned)
    (htaken : (server.workers w).stage = .popped k) (hk : server.clients k = some client)
    (ping : Option Bytes) : (server.lock w k client ping).Seated api limit := by
  have hw : server.holds w = some k := congrArg Stage.holds htaken
  have hplace : (server.workers w).stage.place = .popped := congrArg Stage.place htaken
  rw [Server.lock]
  split
  · rename_i hlast
    refine h.setStage howned hw hk rfl fun drained hreach => ?_
    rw [hplace] at hreach
    exact hreach.step (fun _ => 0) (.abandon rfl hlast)
  · rename_i hused
    refine h.change howned hw hk ?_ fun drained hreach => ?_
    · split <;> rfl
    · rw [hplace] at hreach
      refine hreach.step (fun _ => 0) (.lock rfl ping hused _ ?_)
      split
      · exact .inl rfl
      · exact .inr rfl

/-- A client that is not full is handed a message, from the cache or from the ring. -/
theorem Seated.accept (h : server.Seated api limit) (howned : server.Owned)
    (hw : server.holds w = some k) (hk : server.clients k = some client)
    (hserves : (server.workers w).stage.place = .receiving ∨
      (server.workers w).stage.place = .ticking ∧ client.state.isFull = false)
    (message : ParsedMessage) (count : ℕ) :
    (server.accept api w k count client message).Seated api limit :=
  h.change howned hw hk rfl fun _ hreach => hreach.step (fun _ => 0) (.deliver message hserves)

theorem Seated.tick (h : server.Seated api limit) (howned : server.Owned) {count : ℕ}
    (hticks : (server.workers w).stage = .ticking k count)
    (hk : server.clients k = some client) :
    (server.tick api config w k count client).Seated api limit := by
  have hw : server.holds w = some k := congrArg Stage.holds hticks
  have hplace : (server.workers w).stage.place = .ticking := congrArg Stage.place hticks
  simp only [Server.tick]
  split
  · rename_i hopen
    have hcached := h.setCache w client.state.commitment
      ((server.cache w client.state.commitment).touch client.state.head)
    have howned' := howned.setCache w client.state.commitment
      ((server.cache w client.state.commitment).touch client.state.head)
    rw [← setCache_stage server w w client.state.commitment
      ((server.cache w client.state.commitment).touch client.state.head)] at hplace
    split
    · exact hcached.accept howned' ((setCache_holds ..).trans hw) hk (.inr ⟨hplace, hopen.1⟩) _
        count
    · refine hcached.setStage howned' ((setCache_holds ..).trans hw) hk rfl fun drained hreach => ?_
      exact hreach.step (fun _ => 0) (.unlock (by rw [hplace]; rfl))
    · refine hcached.setStage howned' ((setCache_holds ..).trans hw) hk rfl fun drained hreach => ?_
      exact hreach.step (fun _ => 0) (.receive hplace hopen.1)
  · refine h.setStage howned hw hk rfl fun drained hreach => ?_
    exact hreach.step (fun _ => 0) (.unlock (by rw [hplace]; rfl))

theorem Seated.received (h : server.Seated api limit) (howned : server.Owned)
    {count head : ℕ} {reader : Reader}
    (hreturned : (server.workers w).stage = .receiving k count reader)
    (hk : server.clients k = some client) (result : Recv) :
    (server.received api w k count client head result).Seated api limit := by
  have hw : server.holds w = some k := congrArg Stage.holds hreturned
  have hplace : (server.workers w).stage.place = .receiving := congrArg Stage.place hreturned
  match result with
  | .ok (some message) =>
    have hcached := h.setCache w client.state.commitment
      ((server.cache w client.state.commitment).save head message)
    refine hcached.accept (howned.setCache ..) ((setCache_holds ..).trans hw) hk (.inl ?_) message
      count
    rw [setCache_stage]
    exact hplace
  | .ok none =>
    refine h.setStage howned hw hk rfl fun drained hreach => ?_
    exact hreach.step (fun _ => 0) (.unlock (by rw [hplace]; rfl))
  | .error error =>
    refine h.change howned hw hk rfl fun drained hreach => ?_
    exact hreach.step (fun _ => 0) (.fail hplace _)

/-- A call of `try_recv` goes on. -/
theorem Seated.receive (h : server.Seated api limit) (howned : server.Owned)
    {count : ℕ} {reader : Reader} (hreads : (server.workers w).stage = .receiving k count reader)
    (hk : server.clients k = some client) (reader' : Reader) :
    (server.setStage w (.receiving k count reader')).Seated api limit := by
  refine h.setStage howned (congrArg Stage.holds hreads) hk rfl fun drained hreach => ?_
  rw [hreads] at hreach
  exact hreach

theorem Seated.subscribe (h : server.Seated api config.messagesLenMax)
    (howned : (server.subscribe config).Owned) :
    (server.subscribe config).Seated api config.messagesLenMax := by
  have hd : Deals server (server.subscribe config) (some server.nextId) := by
    refine ⟨fun i hi => ?_, fun i hi => ?_, fun _ => .inl rfl, fun _ => id⟩
    · rw [subscribe_clients, if_neg fun he => hi (congrArg some he.symm)]
    · change i ∈ server.deque ++ [server.nextId] ↔ _
      rw [List.mem_append, List.mem_singleton]
      exact ⟨fun hor => hor.resolve_right fun he => hi (congrArg some he.symm), .inl⟩
  refine h.deals hd fun k client hk hclient => ?_
  obtain rfl := Option.some.inj hk
  rw [subscribe_clients, if_pos rfl] at hclient
  obtain rfl := Option.some.inj hclient
  have hqueued : server.nextId ∈ (server.subscribe config).deque :=
    List.mem_append_right _ (List.mem_singleton_self _)
  refine ⟨Seat.new config.messagesLenMax, ?_, .refl⟩
  exact .of_queued howned (setClient_self ..) hqueued fun hdrained => (nomatch hdrained)

/-- The stream or the request task acts on a client that is not locked. -/
theorem Seated.act (h : server.Seated api limit) (hk : server.clients k = some client)
    (hfree : server.Free k) {tail : CommitmentLevel → ℕ} (hs : client.Step api tail client') :
    (server.setClient k client').Seated api limit := by
  have hd : Deals server (server.setClient k client') (some k) :=
    Deals.setClient ⟨fun _ _ => rfl, fun _ _ => Iff.rfl, fun _ => .inl rfl, fun _ => id⟩ client'
  refine h.deals hd fun i found hi _ => ?_
  obtain rfl := Option.some.inj hi
  obtain ⟨place, drained, hsits, hreach⟩ := h.exists_place hk
  refine ⟨⟨client', place, drained⟩, ⟨setClient_self .., hsits.queued, hsits.held, hsits.holder,
    hsits.drained⟩, hreach.step tail (.act client' ?_ hs)⟩
  -- a locked client is held by the worker that has locked it
  refine Bool.eq_false_iff.mpr fun hlocked => ?_
  have hqueued : place ≠ .queued := fun he => by
    rw [he] at hlocked
    cases hlocked
  have hleft : place ≠ .left := fun he => by
    rw [he] at hlocked
    cases hlocked
  obtain ⟨w, hw⟩ := hsits.holder hqueued hleft
  refine hfree w (Stage.locks_of_place hw ?_)
  rw [hsits.held w hw]
  exact hlocked

theorem WorkerStep.seated (hs : server.WorkerStep api config w server')
    (h : server.Seated api limit) (hinv : server.Inv N api) : server'.Seated api limit := by
  have howned := hinv.owned
  have howned' := (hs.inv hinv).owned
  cases hs with
  | pop k deque hidle hfirst => exact h.pop howned' hidle hfirst
  | drain hidle =>
    have hd : Deals server { server with
        workers := Function.update server.workers w
          { server.workers w with draining := true } } none := by
      refine ⟨fun _ _ => rfl, fun _ _ => Iff.rfl, fun i => .inl ?_, fun i hdrains => ?_⟩
      · by_cases hi : i = w
        · simp [hi]
        · simp [hi]
      · by_cases hi : i = w
        · simp [hi]
        · simpa [hi] using hdrains
    exact h.deals hd fun _ _ hk => (nomatch hk)
  | stop hidle =>
    have hd : Deals server (server.setStage w .stopped) none := by
      refine .setStage (fun i hi => ?_) fun i hi => (nomatch hi)
      rw [holds, hidle] at hi
      cases hi
    exact h.deals hd fun _ _ hk => (nomatch hk)
  | lock k client ping htaken hk => exact h.lock howned htaken hk ping
  | tick k count client hticks hk => exact h.tick howned hticks hk
  | load k count head client hloads hk => exact h.receive howned hloads hk _
  | read k count head tail loadedAt client hreads hk => exact h.receive howned hreads hk _
  | received k count head tail loadedAt result client hreturned hk =>
    exact h.received howned hreturned hk result
  | leave k hleaves => exact h.pushClient howned' hleaves
  | drop k client hdrops hk => exact h.drop howned hdrops hk

theorem Step.seated (hs : server.Step api config server')
    (h : server.Seated api config.messagesLenMax) (hinv : server.Inv N api) :
    server'.Seated api config.messagesLenMax := by
  cases hs with
  | ring level ring hstep =>
    have hd : Deals server
        { server with rings := Function.update server.rings level ring } none :=
      ⟨fun _ _ => rfl, fun _ _ => Iff.rfl, fun _ => .inl rfl, fun _ => id⟩
    exact h.deals hd fun _ _ hk => (nomatch hk)
  | subscribe => exact h.subscribe (hinv.owned.subscribe config)
  | client k client client' hk hfree hstep => exact h.act hk hfree hstep
  | worker w server' hstep => exact hstep.seated h hinv

/-- What the server does to a client is a run of that client alone. -/
theorem Reachable.seated (hN : ∃ k, N = 2 ^ k) (h : Reachable api config N server) :
    server.Seated api config.messagesLenMax := by
  induction h with
  | refl => exact fun _ _ hk => (nomatch hk)
  | tail hreach hs ih => exact hs.seated ih (Reachable.inv hN hreach)

end

-- ════════════════════════════════════════════════════════════════════════
-- What every client can rely on
-- ════════════════════════════════════════════════════════════════════════

/-- The client is in the queue, or a worker has it and will put it back or has yet to
decide. -/
def InUse (server : Server F) (k : ℕ) : Prop :=
  k ∈ server.deque ∨
    ∃ w, server.holds w = some k ∧ (server.workers w).stage.place ≠ .dropping

structure Attended (server : Server F) (k : ℕ) (client : Subscriber F) : Prop where
  /-- The queue, or the worker, the task and the stream have a handle each. -/
  attached : (k ∈ server.deque ∨ ∃ w, server.holds w = some k) →
    client.state.refCount = 1 + client.uses
  detached : k ∉ server.deque → (∀ w, server.holds w ≠ some k) →
    client.state.refCount = client.uses
  /-- A client is given up if nobody uses it, after an error, or at the shutdown. -/
  inUse : server.InUse k ∨ client.Unused ∨ client.Told ∨
    ∃ w, (server.workers w).draining = true
  /-- A stored waker is not forgotten. -/
  parked : client.state.Parked

theorem Sits.seen_after {limit : ℕ} (h : server.Sits k seat) (hinv : seat.Inv limit) :
    server.Attended k seat.client where
  attached hsome := by
    have hhandles : seat.place.handles = 1 := by
      obtain hqueued | ⟨w, hw⟩ := hsome
      · rw [h.queued.mp hqueued]
        rfl
      · have hplace := h.held w hw
        cases hstage : seat.place with
        | left =>
          rw [hstage] at hplace
          exact absurd hplace (Stage.place_of_holds hw).1
        | _ => rfl
    rw [hinv.refs, hhandles]
  detached hqueued hfree := by
    have hleft : seat.place = .left := by
      by_contra hne
      obtain ⟨w, hw⟩ := h.holder (fun he => hqueued (h.queued.mpr he)) hne
      exact hfree w hw
    rw [hinv.refs, hleft]
    exact Nat.zero_add _
  inUse := by
    cases hgone : seat.place.gone with
    | true =>
      refine .inr ?_
      obtain hunused | htold | hdrained := hinv.given hgone
      · exact .inl hunused
      · exact .inr (.inl htold)
      · exact .inr (.inr (h.drained hdrained))
    | false =>
      refine .inl ?_
      by_cases hqueued : seat.place = .queued
      · exact .inl (h.queued.mpr hqueued)
      · have hleft : seat.place ≠ .left := fun he => by
          rw [he] at hgone
          cases hgone
        obtain ⟨w, hw⟩ := h.holder hqueued hleft
        refine .inr ⟨w, hw, fun he => ?_⟩
        rw [← h.held w hw, he] at hgone
        cases hgone
  parked := hinv.parked

/-- In every run every client is attended to. -/
theorem attended (hN : ∃ k, N = 2 ^ k) (h : Reachable api config N server)
    (hk : server.clients k = some client) : server.Attended k client := by
  obtain ⟨seat, hsits, hreach⟩ := h.seated hN k client hk
  obtain rfl : seat.client = client := Option.some.inj (hsits.client.symm.trans hk)
  exact hsits.seen_after hreach.inv

/-- A client that a worker holds. -/
theorem attended_delivered : ∃ (server : Server Bytes) (client : Subscriber Bytes),
    server.clients 0 = some client ∧ server.Attended 0 client := by
  obtain ⟨server, client, h, hk, -, -⟩ := reachable_delivered
  exact ⟨server, client, hk, attended ⟨1, rfl⟩ h hk⟩

/-- The data queued for a client outgrow the limit by one message at most. -/
theorem queue_bounded {bound : ℕ} (hN : ∃ k, N = 2 ^ k) (hbound : api.BoundedBy bound)
    (h : Reachable api config N server) (hk : server.clients k = some client) :
    dataLen client.state.messages ≤ config.messagesLenMax + bound := by
  obtain ⟨seat, hsits, hreach⟩ := h.seated hN k client hk
  obtain rfl : seat.client = client := Option.some.inj (hsits.client.symm.trans hk)
  exact hreach.dataLen_le hbound

/-- A filter that makes the same two bytes of every message. -/
def pair : FilterApi Unit where
  commitment := fun _ => .processed
  getUpdates := fun _ _ _ => [[1, 2]]

/-- No byte is allowed, and one message is taken all the same. -/
theorem queue_bounded_pair : ∃ (server : Server Unit) (client : Subscriber Unit),
    server.clients 0 = some client ∧ dataLen client.state.messages = 2 ∧
    dataLen client.state.messages ≤ 0 + 2 := by
  have h₁ : Reachable pair ⟨0, 1, 1⟩ 2 _ := .tail .refl .subscribe
  have h₂ := h₁.step (.client 0 (.new 0) _ rfl (fun _ h => (nomatch h))
    (.request (.ok ()) none (fun _ => ∅) rfl))
  have h₃ := h₂.write .processed (Ring.run_steps (.push (slotUpdate 1 3)) rfl rfl)
  have h₄ := h₃.write .processed (Ring.run_steps (.push (slotUpdate 1 5)) rfl (by decide +kernel))
  have h₅ := h₄.step (.worker 0 _ (.pop 0 [] rfl rfl))
  have h₆ := h₅.step (.worker 0 _ (.lock 0 ((Subscriber.new 0).request pair (.ok ())
    fun _ => some 2) none rfl rfl (Free.setStage (fun _ h => (nomatch h)) fun h => (nomatch h))))
  obtain ⟨server, h₇, hclients, -⟩ := h₆.deliver (w := 0) (k := 0)
    (slotUpdate 1 3).2 rfl rfl rfl (by decide) (by decide +kernel) (by decide +kernel) rfl
  have hk : server.clients 0 = some _ := congrFun hclients 0
  exact ⟨server, _, hk, rfl, queue_bounded ⟨1, rfl⟩ (fun _ _ _ => Nat.le_refl 2) h₇ hk⟩

/-- Pongs are queued however much waits already: what is queued besides data has no
bound. -/
theorem pongs_unbounded (api : FilterApi F) (config : ConfigAppsGrpc) (N : ℕ) (data : Bytes)
    (n : ℕ) : ∃ (server : Server F) (client : Subscriber F), Reachable api config N server ∧
      server.clients 0 = some client ∧ client.state.messages = List.replicate n ⟨data, true⟩ := by
  suffices h : ∃ (server : Server F) (client : Subscriber F), Reachable api config N server ∧
      server.clients 0 = some client ∧ server.Free 0 ∧ client.serving = true ∧
      client.state.messages = List.replicate n ⟨data, true⟩ by
    obtain ⟨server, client, hreach, hk, -, -, hmessages⟩ := h
    exact ⟨server, client, hreach, hk, hmessages⟩
  induction n with
  | zero =>
    have h : Reachable api config N (Server.subscribe (.new config N) config) :=
      .tail .refl .subscribe
    exact ⟨_, _, h, rfl, fun _ hl => (nomatch hl), rfl, rfl⟩
  | succ n ih =>
    obtain ⟨server, client, hreach, hk, hfree, hserves, hmessages⟩ := ih
    refine ⟨_, _, hreach.step (.client 0 client _ hk hfree (.pong data hserves)),
      setClient_self .., hfree, hserves, ?_⟩
    change client.state.messages ++ [⟨data, true⟩] = _
    rw [hmessages, List.replicate_succ']

end Server

end Dragonmouth.Grpc
