import Dragonmouth.Grpc.Workers

/-!
# Delivery to the clients of the gRPC server

In every run a client waits in the queue or is held by one worker. So nobody but
that worker reads for it, at the position the client has reached, and what the
worker finds in its cache or in the ring is the message pushed there. The data
given to a client since its request was accepted are therefore the updates of
consecutive messages, after what was queued before.

## Main definitions

- `Server.Owned`: where a client is
- `Server.Inv`: the invariant
- `Server.Safe`: what a client can rely on
-/

namespace Dragonmouth.Grpc

open Richat

theorem Stage.holds_of_locks {k : ℕ} {stage : Stage} (h : stage.locks = some k) :
    stage.holds = some k := by
  cases stage with
  | ticking | receiving => exact h
  | _ => cases h

namespace Server

section

variable {F : Type} {api : FilterApi F} {config : ConfigAppsGrpc} {N w k : ℕ}
  {server server' : Server F} {client : Subscriber F} {stage : Stage}

/-- The client a worker has taken. -/
def holds (server : Server F) (w : ℕ) : Option ℕ := (server.workers w).stage.holds

-- ════════════════════════════════════════════════════════════════════════
-- One field at a time
-- ════════════════════════════════════════════════════════════════════════

theorem setClient_clients (server : Server F) (k i : ℕ) (client : Subscriber F) :
    (server.setClient k client).clients i = if i = k then some client else server.clients i :=
  Function.update_apply ..

theorem setClient_self (server : Server F) (k : ℕ) (client : Subscriber F) :
    (server.setClient k client).clients k = some client := Function.update_self ..

theorem setStage_workers (server : Server F) (w i : ℕ) (stage : Stage) :
    (server.setStage w stage).workers i =
      if i = w then { server.workers w with stage := stage } else server.workers i :=
  Function.update_apply ..

@[simp] theorem setStage_stage (server : Server F) (w : ℕ) (stage : Stage) :
    ((server.setStage w stage).workers w).stage = stage := by
  rw [setStage_workers, if_pos rfl]

@[simp] theorem setStage_cache (server : Server F) (w i : ℕ) (stage : Stage)
    (level : CommitmentLevel) : (server.setStage w stage).cache i level = server.cache i level := by
  rw [cache, setStage_workers]
  split
  · rename_i hi
    rw [hi]
    rfl
  · rfl

theorem setStage_holds (server : Server F) (w i : ℕ) (stage : Stage) :
    (server.setStage w stage).holds i = if i = w then stage.holds else server.holds i := by
  rw [holds, setStage_workers]
  split <;> rfl

theorem setCache_workers (server : Server F) (w i : ℕ) (level : CommitmentLevel)
    (cache : MessagesCache) : (server.setCache w level cache).workers i =
      if i = w then { server.workers w with
        caches := Function.update (server.workers w).caches level cache } else server.workers i :=
  Function.update_apply ..

@[simp] theorem setCache_stage (server : Server F) (w i : ℕ) (level : CommitmentLevel)
    (cache : MessagesCache) :
    ((server.setCache w level cache).workers i).stage = (server.workers i).stage := by
  rw [setCache_workers]
  split
  · rename_i hi
    rw [hi]
  · rfl

theorem setCache_cache (server : Server F) (w i : ℕ) (level found : CommitmentLevel)
    (cache : MessagesCache) : (server.setCache w level cache).cache i found =
      if i = w ∧ found = level then cache else server.cache i found := by
  by_cases hi : i = w
  · simp [hi, Server.cache, setCache_workers, Function.update_apply]
  · simp [hi, Server.cache, setCache_workers]

/-- A client waits in the queue once, or is held by one worker, or neither. -/
structure Owned (server : Server F) : Prop where
  nodup : server.deque.Nodup
  apart : ∀ w k, server.holds w = some k → k ∉ server.deque
  one : ∀ w w' k, server.holds w = some k → server.holds w' = some k → w = w'
  queued : ∀ k ∈ server.deque, k < server.nextId
  held : ∀ w k, server.holds w = some k → k < server.nextId

/-- Workers go on with their clients or give them up. -/
theorem Owned.keep (h : server.Owned)
    (hw : ∀ w k, server'.holds w = some k → server.holds w = some k)
    (hdeque : server'.deque = server.deque) (hid : server'.nextId = server.nextId) :
    server'.Owned := by
  refine ⟨hdeque ▸ h.nodup, fun w k hk => ?_, fun w w' k hk hk' => ?_, ?_, fun w k hk => ?_⟩
  · rw [hdeque]
    exact h.apart w k (hw w k hk)
  · exact h.one w w' k (hw w k hk) (hw w' k hk')
  · rw [hdeque, hid]
    exact h.queued
  · rw [hid]
    exact h.held w k (hw w k hk)

theorem Owned.setStage (h : server.Owned)
    (hs : ∀ k, stage.holds = some k → server.holds w = some k) :
    (server.setStage w stage).Owned := by
  refine h.keep (fun i k hk => ?_) rfl rfl
  rw [setStage_holds] at hk
  split at hk
  · rename_i hi
    exact hi ▸ hs k hk
  · exact hk

/-- A worker takes the first client. -/
theorem Owned.pop (h : server.Owned) {deque : List ℕ} (hfirst : server.deque = k :: deque)
    (hs : stage.holds = some k) : Owned { server.setStage w stage with deque := deque } := by
  have hnodup := h.nodup
  rw [hfirst, List.nodup_cons] at hnodup
  have hholds : ∀ i j, (server.setStage w stage).holds i = some j →
      (i = w ∧ j = k) ∨ (i ≠ w ∧ server.holds i = some j) := by
    intro i j hj
    rw [setStage_holds] at hj
    split at hj
    · rename_i hi
      exact .inl ⟨hi, Option.some.inj (hj.symm.trans hs)⟩
    · rename_i hi
      exact .inr ⟨hi, hj⟩
  have hfree : ∀ i, server.holds i ≠ some k := fun i hi =>
    h.apart i k hi (hfirst ▸ List.mem_cons_self)
  refine ⟨hnodup.2, fun i j hj => ?_, fun i i' j hj hj' => ?_, fun j hj => ?_, fun i j hj => ?_⟩
  · rcases hholds i j hj with ⟨-, rfl⟩ | ⟨-, hj⟩
    · exact hnodup.1
    · intro hmem
      exact h.apart i j hj (hfirst ▸ List.mem_cons_of_mem _ hmem)
  · rcases hholds i j hj with ⟨hi, rfl⟩ | ⟨-, hj⟩
    · rcases hholds i' j hj' with ⟨hi', -⟩ | ⟨-, hj'⟩
      · exact hi.trans hi'.symm
      · exact absurd hj' (hfree i')
    · rcases hholds i' j hj' with ⟨-, rfl⟩ | ⟨-, hj'⟩
      · exact absurd hj (hfree i)
      · exact h.one i i' j hj hj'
  · exact h.queued j (hfirst ▸ List.mem_cons_of_mem _ hj)
  · rcases hholds i j hj with ⟨-, rfl⟩ | ⟨-, hj⟩
    · exact h.queued j (hfirst ▸ List.mem_cons_self)
    · exact h.held i j hj

/-- A worker puts its client at the end of the queue. -/
theorem Owned.pushClient (h : server.Owned) (hw : server.holds w = some k) :
    (server.pushClient w k).Owned := by
  have hholds : ∀ i j, (server.setStage w .idle).holds i = some j →
      i ≠ w ∧ server.holds i = some j := by
    intro i j hj
    rw [setStage_holds] at hj
    split at hj
    · cases hj
    · rename_i hi
      exact ⟨hi, hj⟩
  refine ⟨?_, fun i j hj hmem => ?_, fun i i' j hj hj' => ?_, fun j hj => ?_, fun i j hj => ?_⟩
  · exact List.nodup_append.mpr ⟨h.nodup, List.nodup_singleton k, fun a ha b hb hab =>
      h.apart w k hw (List.mem_singleton.mp hb ▸ hab ▸ ha)⟩
  · obtain ⟨hi, hj⟩ := hholds i j hj
    rcases List.mem_append.mp hmem with hmem | hmem
    · exact h.apart i j hj hmem
    · exact hi (h.one i w k (List.mem_singleton.mp hmem ▸ hj) hw)
  · exact h.one i i' j (hholds i j hj).2 (hholds i' j hj').2
  · rcases List.mem_append.mp hj with hj | hj
    · exact h.queued j hj
    · exact List.mem_singleton.mp hj ▸ h.held w k hw
  · exact h.held i j (hholds i j hj).2

theorem Owned.subscribe (h : server.Owned) (config : ConfigAppsGrpc) :
    (server.subscribe config).Owned := by
  have hholds : ∀ i, (server.subscribe config).holds i = server.holds i := fun _ => rfl
  refine ⟨?_, fun i j hj hmem => ?_, fun i i' j hj hj' => ?_, fun j hj => ?_, fun i j hj => ?_⟩
  · exact List.nodup_append.mpr ⟨h.nodup, List.nodup_singleton _, fun a ha b hb hab =>
      (h.queued a ha).ne (hab.trans (List.mem_singleton.mp hb))⟩
  · rw [hholds] at hj
    rcases List.mem_append.mp hmem with hmem | hmem
    · exact h.apart i j hj hmem
    · exact (h.held i j hj).ne (List.mem_singleton.mp hmem)
  · exact h.one i i' j hj hj'
  · rcases List.mem_append.mp hj with hj | hj
    · exact (h.queued j hj).trans (Nat.lt_succ_self _)
    · exact List.mem_singleton.mp hj ▸ Nat.lt_succ_self _
  · exact (h.held i j hj).trans (Nat.lt_succ_self _)

-- ════════════════════════════════════════════════════════════════════════
-- The invariant
-- ════════════════════════════════════════════════════════════════════════

/-- A call of `try_recv` is at the position its client has reached, on the ring of
the commitment of the client. -/
def Reads (N : ℕ) (server : Server F) (k : ℕ) (reader : Reader) : Prop :=
  ∃ client, server.clients k = some client ∧ reader.head = client.state.head ∧
    Read N (server.rings client.state.commitment) reader

structure Inv (N : ℕ) (api : FilterApi F) (server : Server F) : Prop where
  rings : ∀ level, (server.rings level).Inv N
  caches : ∀ w level, (server.cache w level).Faithful N (server.rings level)
  owned : server.Owned
  reads : ∀ w k count reader, (server.workers w).stage = .receiving k count reader →
    server.Reads N k reader
  clients : ∀ k client, server.clients k = some client →
    client.Kept ∧ client.Served N server.rings api

theorem Inv.new (config : ConfigAppsGrpc) (hN : ∃ k, N = 2 ^ k) : (new config N).Inv N api where
  rings := fun _ => .new hN
  caches := fun _ _ => .new _ _ _
  owned := ⟨List.nodup_nil, fun _ _ h => (nomatch h), fun _ _ _ h => (nomatch h),
    fun _ h => (nomatch h), fun _ _ h => (nomatch h)⟩
  reads := fun _ _ _ _ h => (nomatch h)
  clients := fun _ _ h => (nomatch h)

/-- A client nobody reads for changes. -/
theorem Inv.setClient (h : server.Inv N api) (hc : client.Kept ∧ client.Served N server.rings api)
    (hnobody : ∀ w count reader, (server.workers w).stage ≠ .receiving k count reader) :
    (server.setClient k client).Inv N api := by
  refine ⟨h.rings, h.caches, h.owned.keep (fun _ _ hk => hk) rfl rfl, fun w i count reader hs => ?_,
    fun i found hi => ?_⟩
  · obtain ⟨found, hfound, hread⟩ := h.reads w i count reader hs
    have hne : i ≠ k := by
      rintro rfl
      exact hnobody w count reader hs
    refine ⟨found, ?_, hread⟩
    rw [setClient_clients, if_neg hne]
    exact hfound
  · rw [setClient_clients] at hi
    split at hi
    · exact Option.some.inj hi ▸ hc
    · exact h.clients i found hi

/-- A worker goes on with its client or gives it up. -/
theorem Inv.setStage (h : server.Inv N api)
    (hs : ∀ k, stage.holds = some k → server.holds w = some k)
    (hread : ∀ k count reader, stage = .receiving k count reader → server.Reads N k reader) :
    (server.setStage w stage).Inv N api := by
  refine ⟨h.rings, fun i level => ?_, h.owned.setStage hs, fun i k count reader hi => ?_, h.clients⟩
  · rw [setStage_cache]
    exact h.caches i level
  · rw [setStage_workers] at hi
    split at hi
    · exact hread k count reader hi
    · exact h.reads i k count reader hi

theorem Inv.setCache (h : server.Inv N api) (w : ℕ) {level : CommitmentLevel}
    {cache : MessagesCache} (hc : cache.Faithful N (server.rings level)) :
    (server.setCache w level cache).Inv N api := by
  refine ⟨h.rings, fun i found => ?_, h.owned.keep (fun i k hk => ?_) rfl rfl,
    fun i k count reader hi => ?_, h.clients⟩
  · rw [setCache_cache]
    split
    · rename_i hi
      exact hi.2 ▸ hc
    · exact h.caches i found
  · rw [holds, setCache_stage] at hk
    exact hk
  · rw [setCache_stage] at hi
    exact h.reads i k count reader hi

/-- A worker changes its client, and goes on with it or gives it up. -/
theorem Inv.change (h : server.Inv N api) (hw : server.holds w = some k)
    (hc : client.Kept ∧ client.Served N server.rings api)
    (hs : stage.holds = some k ∨ stage.holds = none)
    (hstage : ∀ i count reader, stage ≠ .receiving i count reader) :
    ((server.setClient k client).setStage w stage).Inv N api := by
  have hinv : (server.setStage w stage).Inv N api := by
    refine h.setStage (fun i hi => ?_) fun i count reader hi => absurd hi (hstage i count reader)
    rcases hs with hs | hs
    · rw [hs] at hi
      exact hi ▸ hw
    · rw [hs] at hi
      cases hi
  have hcomm : (server.setClient k client).setStage w stage =
      (server.setStage w stage).setClient k client := rfl
  rw [hcomm]
  refine hinv.setClient hc fun i count reader hi => ?_
  rw [setStage_workers] at hi
  split at hi
  · exact hstage k count reader hi
  · rename_i hne
    have hholds : server.holds i = some k := by rw [holds, hi, Stage.holds]
    exact hne (h.owned.one i w k hholds hw)

-- ════════════════════════════════════════════════════════════════════════
-- The steps of the server
-- ════════════════════════════════════════════════════════════════════════

/-- The rings are written. -/
theorem Inv.rings_step (h : server.Inv N api) {rings : CommitmentLevel → Ring}
    (hs : ∀ level, rings level = server.rings level ∨ (server.rings level).Step (rings level)) :
    Inv N api { server with rings := rings } := by
  refine ⟨fun level => ?_, fun w level => ?_, h.owned.keep (fun _ _ hk => hk) rfl rfl,
    fun w k count reader hi => ?_, fun k client hk => ?_⟩
  · rcases hs level with heq | hstep
    · exact (congrArg (Ring.Inv N) heq).mpr (h.rings level)
    · exact hstep.inv (h.rings level)
  · rcases hs level with heq | hstep
    · exact (congrArg (MessagesCache.Faithful N · _) heq).mpr (h.caches w level)
    · exact (h.caches w level).step hstep
  · obtain ⟨client, hk, hhead, hread⟩ := h.reads w k count reader hi
    refine ⟨client, hk, hhead, ?_⟩
    rcases hs client.state.commitment with heq | hstep
    · exact (congrArg (Read N · reader) heq).mpr hread
    · exact hread.step hstep
  · exact ⟨(h.clients k client hk).1, (h.clients k client hk).2.step hs⟩

theorem Inv.ring (h : server.Inv N api) {level : CommitmentLevel} {ring : Ring}
    (hs : (server.rings level).Step ring) :
    Inv N api { server with rings := Function.update server.rings level ring } := by
  refine h.rings_step fun found => ?_
  rw [Function.update_apply]
  split
  · rename_i heq
    exact .inr (heq ▸ hs)
  · exact .inl rfl

theorem subscribe_clients (server : Server F) (config : ConfigAppsGrpc) (i : ℕ) :
    (server.subscribe config).clients i =
      if i = server.nextId then some (.new config.messagesLenMax) else server.clients i :=
  setClient_clients ..

theorem Inv.subscribe (h : server.Inv N api) (config : ConfigAppsGrpc) :
    (server.subscribe config).Inv N api := by
  refine ⟨h.rings, h.caches, h.owned.subscribe config, fun w k count reader hi => ?_,
    fun k client hk => ?_⟩
  · obtain ⟨client, hk, hread⟩ := h.reads w k count reader hi
    have hholds : server.holds w = some k := congrArg Stage.holds hi
    refine ⟨client, ?_, hread⟩
    rw [subscribe_clients, if_neg (h.owned.held w k hholds).ne]
    exact hk
  · rw [subscribe_clients] at hk
    split at hk
    · obtain rfl := Option.some.inj hk
      exact ⟨.new _, .new _⟩
    · exact h.clients k client hk

/-- Nobody reads for a client that is free. -/
theorem Free.nobody (hfree : server.Free k) (w count : ℕ) (reader : Reader) :
    (server.workers w).stage ≠ .receiving k count reader := by
  intro hi
  exact hfree w (by rw [hi, Stage.locks])

theorem Free.setStage (h : server.Free k) (hs : stage.locks ≠ some k) :
    (server.setStage w stage).Free k := by
  intro i
  rw [setStage_workers]
  split
  · exact hs
  · exact h i

theorem Inv.pop (h : server.Inv N api) {deque : List ℕ} (hfirst : server.deque = k :: deque) :
    (server.pop w k deque).Inv N api := by
  have hholds : (if (server.workers w).draining then Stage.dropping k else .popped k).holds =
      some k := by
    split <;> rfl
  refine ⟨h.rings, fun i level => ?_, h.owned.pop hfirst hholds, fun i j count reader hi => ?_,
    h.clients⟩
  · exact setStage_cache server w i _ level ▸ h.caches i level
  · rw [Server.pop, setStage_workers] at hi
    split at hi
    · split at hi <;> cases hi
    · exact h.reads i j count reader hi

theorem Inv.pushClient (h : server.Inv N api) (hw : server.holds w = some k) :
    (server.pushClient w k).Inv N api := by
  have hinv : (server.setStage w .idle).Inv N api :=
    h.setStage (fun _ hk => (nomatch hk)) fun _ _ _ hi => (nomatch hi)
  exact ⟨hinv.rings, hinv.caches, h.owned.pushClient hw, hinv.reads, hinv.clients⟩

theorem Inv.lock (h : server.Inv N api) (hw : server.holds w = some k)
    (hk : server.clients k = some client) (ping : Option Bytes) :
    (server.lock w k client ping).Inv N api := by
  obtain ⟨hkept, hserved⟩ := h.clients k client hk
  rw [Server.lock]
  split
  · refine h.setStage (fun i hi => ?_) fun _ _ _ hi => (nomatch hi)
    exact hw.trans hi
  · refine h.change hw ⟨hkept.sendPing ping, hserved.same (Subscriber.same_sendPing ping)⟩
      (.inl ?_) fun _ _ _ => ?_
    · split <;> rfl
    · split <;> exact fun hi => (nomatch hi)

/-- The message at the head of a client is delivered. -/
theorem Inv.accept (h : server.Inv N api) (hw : server.holds w = some k)
    (hk : server.clients k = some client) {message : ParsedMessage}
    (hm : messageAt N (server.rings client.state.commitment) client.state.head = some message)
    (count : ℕ) : (server.accept api w k count client message).Inv N api := by
  obtain ⟨hkept, hserved⟩ := h.clients k client hk
  exact h.change hw ⟨hkept.deliver message, hserved.deliver hm⟩ (.inl rfl)
    fun _ _ _ hi => (nomatch hi)

theorem Inv.tick (h : server.Inv N api) (hw : server.holds w = some k)
    (hk : server.clients k = some client) (count : ℕ) :
    (server.tick api config w k count client).Inv N api := by
  have hfaithful := (h.caches w client.state.commitment).touch client.state.head
  have hcache := h.setCache w hfaithful
  have hholds : ∀ level cache, (server.setCache w level cache).holds w = some k := by
    intro level cache
    rw [holds, setCache_stage]
    exact hw
  simp only [Server.tick]
  split
  · split
    · rename_i message hcached
      exact hcache.accept (hholds _ _) hk (hfaithful.cached hcached) count
    · exact hcache.setStage (fun i hi => (hholds _ _).trans hi) fun _ _ _ hi => (nomatch hi)
    · refine hcache.setStage (fun i hi => (hholds _ _).trans hi) fun i count reader hi => ?_
      obtain ⟨rfl, rfl, rfl⟩ := Stage.receiving.inj hi
      exact ⟨client, hk, rfl, trivial⟩
  · exact h.setStage (fun i hi => hw.trans hi) fun _ _ _ hi => (nomatch hi)

theorem Inv.received (h : server.Inv N api) {count head tail loadedAt : ℕ} {result : Recv}
    (hreturned : (server.workers w).stage = .receiving k count (.done head tail loadedAt result))
    (hk : server.clients k = some client) :
    (server.received api w k count client head result).Inv N api := by
  have hw : server.holds w = some k := congrArg Stage.holds hreturned
  obtain ⟨found, hfound, hhead, hread⟩ := h.reads w k count _ hreturned
  obtain rfl := Option.some.inj (hk.symm.trans hfound)
  obtain ⟨hkept, hserved⟩ := h.clients k client hk
  match result with
  | .ok (some message) =>
    have hm := hread message rfl
    have hcache := h.setCache w ((h.caches w client.state.commitment).save hm)
    refine hcache.accept ?_ hk (hhead ▸ hm) count
    rw [holds, setCache_stage]
    exact hw
  | .ok none => exact h.setStage (fun i hi => hw.trans hi) fun _ _ _ hi => (nomatch hi)
  | .error error =>
    have hfail : (client.fail (.ofRecvError error)).Kept :=
      ⟨hkept.total, hkept.unfinished, hkept.last⟩
    exact h.change hw ⟨hfail, hserved.same ⟨rfl, rfl, rfl, rfl, rfl⟩⟩ (.inl rfl)
      fun _ _ _ hi => (nomatch hi)

theorem Inv.drain (h : server.Inv N api) (w : ℕ) :
    Inv N api { server with
      workers := Function.update server.workers w { server.workers w with draining := true } } := by
  have hworkers : ∀ i, (Function.update server.workers w
      { server.workers w with draining := true } i).stage = (server.workers i).stage ∧
      (Function.update server.workers w
      { server.workers w with draining := true } i).caches = (server.workers i).caches := by
    intro i
    rw [Function.update_apply]
    split
    · rename_i hi
      rw [hi]
      exact ⟨rfl, rfl⟩
    · exact ⟨rfl, rfl⟩
  refine ⟨h.rings, fun i level => ?_, h.owned.keep (fun i k hk => ?_) rfl rfl,
    fun i k count reader hi => ?_, h.clients⟩
  · rw [cache, (hworkers i).2]
    exact h.caches i level
  · rw [holds, (hworkers i).1] at hk
    exact hk
  · exact h.reads i k count reader ((hworkers i).1.symm.trans hi)

/-- A call of `try_recv` goes on. -/
theorem Inv.receive (h : server.Inv N api) {count : ℕ} {reader reader' : Reader}
    (hreads : (server.workers w).stage = .receiving k count reader)
    (hk : server.clients k = some client) (hhead : reader'.head = reader.head)
    (hstep : Read N (server.rings client.state.commitment) reader →
      Read N (server.rings client.state.commitment) reader') :
    (server.setStage w (.receiving k count reader')).Inv N api := by
  have hw : server.holds w = some k := congrArg Stage.holds hreads
  obtain ⟨found, hfound, hhead', hread⟩ := h.reads w k count _ hreads
  obtain rfl := Option.some.inj (hk.symm.trans hfound)
  refine h.setStage (fun i hi => hw.trans hi) fun i n found hi => ?_
  obtain ⟨rfl, rfl, rfl⟩ := Stage.receiving.inj hi
  exact ⟨client, hk, hhead.trans hhead', hstep hread⟩

theorem WorkerStep.inv (hs : server.WorkerStep api config w server') (h : server.Inv N api) :
    server'.Inv N api := by
  cases hs with
  | pop k deque hidle hfirst => exact h.pop hfirst
  | drain => exact h.drain w
  | stop => exact h.setStage (fun _ hk => (nomatch hk)) fun _ _ _ hi => (nomatch hi)
  | lock k client ping htaken hk => exact h.lock (congrArg Stage.holds htaken) hk ping
  | tick k count client hticks hk => exact h.tick (congrArg Stage.holds hticks) hk count
  | load k count head client hloads hk =>
    exact h.receive hloads hk (load_head ..) fun _ => .load (h.rings _) head
  | read k count head tail loadedAt client hreads hk =>
    exact h.receive hreads hk rfl (.read (h.rings _))
  | received k count head tail loadedAt result client hreturned hk => exact h.received hreturned hk
  | leave k hleaves => exact h.pushClient (congrArg Stage.holds hleaves)
  | drop k client hdrops hk =>
    obtain ⟨hkept, hserved⟩ := h.clients k client hk
    exact h.change (congrArg Stage.holds hdrops)
      ⟨⟨hkept.total, hkept.unfinished, hkept.last⟩, hserved.same ⟨rfl, rfl, rfl, rfl, rfl⟩⟩
      (.inr rfl) fun _ _ _ hi => (nomatch hi)

theorem Step.inv (hs : server.Step api config server') (h : server.Inv N api) :
    server'.Inv N api := by
  cases hs with
  | ring level ring hstep => exact h.ring hstep
  | subscribe => exact h.subscribe config
  | client k client client' hk hfree hstep =>
    obtain ⟨hkept, hserved⟩ := h.clients k client hk
    exact h.setClient ⟨hstep.kept hkept, hstep.served hserved⟩ hfree.nobody
  | worker w server' hstep => exact hstep.inv h

theorem Reachable.inv (hN : ∃ k, N = 2 ^ k) (h : Reachable api config N server) :
    server.Inv N api := by
  induction h with
  | refl => exact .new config hN
  | tail _ hs ih => exact hs.inv ih

theorem Reachable.step (h : Reachable api config N server)
    (hs : server.Step api config server') : Reachable api config N server' := h.tail hs

theorem Reachable.write (h : Reachable api config N server) (level : CommitmentLevel)
    {ring : Ring} (hs : Relation.ReflTransGen Ring.Step (server.rings level) ring) :
    Reachable api config N { server with rings := Function.update server.rings level ring } := by
  induction hs with
  | refl =>
    rw [Function.update_eq_self]
    exact h
  | @tail before after _ hstep ih =>
    have hself : Function.update server.rings level before level = before :=
      Function.update_self ..
    have hr := ih.tail (.ring level after ((congrArg (Ring.Step · after) hself).mpr hstep))
    rwa [Function.update_idem] at hr

/-- A worker reads the message at the head of its client and delivers it. -/
theorem Reachable.delivers (h : Reachable api config N server) (message : ParsedMessage)
    (hticks : (server.workers w).stage = .ticking k 0) (hk : server.clients k = some client)
    (hfull : client.state.isFull = false) (hmax : 0 < config.messagesMaxPerTick)
    (hmiss : ((server.cache w client.state.commitment).touch client.state.head).cached
      client.state.head = none)
    (htail : client.state.head < (server.rings client.state.commitment).view.tail)
    (hrecv : ((server.rings client.state.commitment).view.item client.state.head).recv
      client.state.head = .ok (some message)) :
    ∃ server', Reachable api config N server' ∧ server'.rings = server.rings ∧
      server'.clients = Function.update server.clients k (some (client.deliver api message)) ∧
      (server'.workers w).stage = .ticking k 1 := by
  have htick : server.tick api config w k 0 client =
      (server.setCache w client.state.commitment
        ((server.cache w client.state.commitment).touch client.state.head)).setStage w
          (.receiving k 0 (.loading client.state.head)) := by
    simp only [Server.tick, hfull, hmax, hmiss, and_self, if_true]
  have h₁ := h.tail (.worker w _ (.tick k 0 client hticks hk))
  rw [htick] at h₁
  have h₂ := h₁.tail (.worker w _ (.load k 0 client.state.head client (setStage_stage ..) hk))
  have hload : Reader.load client.state.head (server.rings client.state.commitment) =
      .reading client.state.head (server.rings client.state.commitment).view.tail
        (server.rings client.state.commitment).history.length := if_pos htail
  have h₃ := h₂.tail (.worker w _ (.read k 0 client.state.head _ _ client
    ((setStage_stage ..).trans (congrArg _ hload)) hk))
  have h₄ := h₃.tail (.worker w _ (.received k 0 client.state.head _ _ (.ok (some message)) client
    ((setStage_stage ..).trans (congrArg _ (congrArg _ hrecv))) hk))
  exact ⟨_, h₄, rfl, rfl, setStage_stage ..⟩

theorem Reachable.deliver (h : Reachable api config N server) (message : ParsedMessage)
    (hticks : (server.workers w).stage = .ticking k 0) (hk : server.clients k = some client)
    (hfull : client.state.isFull = false) (hmax : 0 < config.messagesMaxPerTick)
    (hmiss : ((server.cache w client.state.commitment).touch client.state.head).cached
      client.state.head = none)
    (htail : client.state.head < (server.rings client.state.commitment).view.tail)
    (hrecv : ((server.rings client.state.commitment).view.item client.state.head).recv
      client.state.head = .ok (some message)) :
    ∃ server', Reachable api config N server' ∧
      server'.clients = Function.update server.clients k (some (client.deliver api message)) ∧
      (server'.workers w).stage = .ticking k 1 := by
  obtain ⟨server', h', -, hclients, hticks'⟩ :=
    h.delivers message hticks hk hfull hmax hmiss htail hrecv
  exact ⟨server', h', hclients, hticks'⟩

/-- A client is free again when its worker unlocks it. -/
theorem Reachable.free (hN : ∃ k, N = 2 ^ k) (h : Reachable api config N server)
    (hw : (server.workers w).stage.holds = some k) (hs : stage.locks ≠ some k) :
    (server.setStage w stage).Free k := by
  intro i
  rw [setStage_workers]
  split
  · exact hs
  · rename_i hi
    exact fun hl => hi ((h.inv hN).owned.one i w k (Stage.holds_of_locks hl) hw)

/-- A filter that makes the same update of every message. -/
def constant : FilterApi Bytes where
  commitment := fun _ => .processed
  getUpdates := fun data _ _ => [data]

/-- A request is accepted, two messages are pushed, and the first is delivered. -/
theorem reachable_delivered : ∃ (server : Server Bytes) (client : Subscriber Bytes),
    Reachable constant ⟨10, 1, 1⟩ 2 server ∧ server.clients 0 = some client ∧ server.Free 0 ∧
    client = ((Subscriber.new 10).request constant (.ok [1]) fun _ => some 2).deliver constant
      (slotUpdate 1 3).2 := by
  have h₁ : Reachable constant ⟨10, 1, 1⟩ 2 _ := .tail .refl .subscribe
  have h₂ := h₁.step (.client 0 (.new 10) _ rfl (fun _ h => (nomatch h))
    (.request (.ok [1]) none (fun _ => ∅) rfl))
  have h₃ := h₂.write .processed (Ring.run_steps (.push (slotUpdate 1 3)) rfl rfl)
  have h₄ := h₃.write .processed (Ring.run_steps (.push (slotUpdate 1 5)) rfl (by decide +kernel))
  have h₅ := h₄.step (.worker 0 _ (.pop 0 [] rfl rfl))
  have h₆ := h₅.step (.worker 0 _ (.lock 0 ((Subscriber.new 10).request constant (.ok [1])
    fun _ => some 2) none rfl rfl (Free.setStage (fun _ h => (nomatch h)) fun h => (nomatch h))))
  obtain ⟨server, h₇, hclients, hticks⟩ := h₆.deliver (w := 0) (k := 0)
    (slotUpdate 1 3).2 rfl rfl rfl (by decide) (by decide +kernel) (by decide +kernel) rfl
  have hk : server.clients 0 = some _ := congrFun hclients 0
  have h₈ := h₇.step (.worker 0 _ (.tick 0 1 _ hticks hk))
  rw [Server.tick, if_neg fun h => absurd h.2 (lt_irrefl 1)] at h₈
  exact ⟨_, _, h₈, hk, h₇.free ⟨1, rfl⟩ (congrArg Stage.holds hticks) fun h => (nomatch h), rfl⟩

/-- What holds in every state of a run. -/
structure Safe (N : ℕ) (api : FilterApi F) (server : Server F) : Prop where
  /-- Since a request was accepted, the stream has yielded, and the queue goes on
  with, the data queued then, none for the first request, and the updates of the
  messages at the position of the request, the next position, and so on. -/
  delivered : ∀ k client accepted, server.clients k = some client →
    client.accepted = some accepted → ∃ messages,
      (accepted.first = true → accepted.queued = []) ∧
      MessagesFrom N (server.rings (api.commitment accepted.filter)) accepted.head messages ∧
      client.state.head = accepted.head + messages.length ∧
      dataOf (itemsOk client.yielded) ++ dataOf client.state.messages =
        accepted.queued ++ api.updates accepted.filter messages
  /-- Nothing is yielded after an error. -/
  last : ∀ k client, server.clients k = some client →
    ∀ item ∈ client.yielded.dropLast, item.toOption.isSome
  total : ∀ k client, server.clients k = some client → client.state.messagesLenTotal =
    (client.state.messages.map fun message => message.data.length).sum
  one : ∀ w w' k, server.holds w = some k → server.holds w' = some k → w = w'

theorem Inv.safe (h : server.Inv N api) : server.Safe N api := by
  refine ⟨fun k client accepted hk ha => ?_, fun k client hk => (h.clients k client hk).1.last,
    fun k client hk => (h.clients k client hk).1.total, h.owned.one⟩
  obtain ⟨messages, hg⟩ := (h.clients k client hk).2.given accepted ha
  exact ⟨messages, hg.first, hg.from_, hg.head, hg.data⟩

/-- In every run, a client is given the updates of its messages in order. -/
theorem updates_in_order (hN : ∃ k, N = 2 ^ k) (h : Reachable api config N server) :
    server.Safe N api := (h.inv hN).safe

/-- The first message is yielded. -/
theorem updates_in_order_first : ∃ (server : Server Bytes) (client : Subscriber Bytes),
    server.clients 0 = some client ∧ client.accepted = some ⟨[1], 2, [], true⟩ ∧
    dataOf (itemsOk client.yielded) = [[1]] ∧ server.Safe 2 constant := by
  obtain ⟨server, client, h, hk, hfree, rfl⟩ := reachable_delivered
  have h' := h.step (.client 0 _ _ hk hfree (.poll 0 rfl))
  exact ⟨_, _, setClient_self .., rfl, rfl, updates_in_order ⟨1, rfl⟩ h'⟩

/-- A message still queued when another request is accepted is yielded all the
same, made by the filter before. -/
theorem queued_before_request : ¬∀ (api : FilterApi Bytes) (config : ConfigAppsGrpc) (N : ℕ)
    (server : Server Bytes), (∃ k, N = 2 ^ k) → Reachable api config N server →
    ∀ k client accepted, server.clients k = some client → client.accepted = some accepted →
      ∃ messages,
        MessagesFrom N (server.rings (api.commitment accepted.filter)) accepted.head messages ∧
        dataOf (itemsOk client.yielded) <+: api.updates accepted.filter messages := by
  intro hall
  obtain ⟨server, client, h, hk, hfree, rfl⟩ := reachable_delivered
  have h' := h.step (.client 0 _ _ hk hfree (.request (.ok [2]) none (fun _ => ∅) rfl))
  have h'' := h'.step (.client 0 _ _ (setClient_self ..) hfree (.poll 0 rfl))
  obtain ⟨messages, -, hprefix⟩ := hall constant ⟨10, 1, 1⟩ 2 _ ⟨1, rfl⟩ h'' 0 _ _
    (setClient_self ..) rfl
  have hyielded : [[1]] <+: messages.flatMap fun _ => [[(2 : UInt8)]] := hprefix
  cases messages with
  | nil => simp at hyielded
  | cons message messages => simp at hyielded

end

end Server

end Dragonmouth.Grpc
