import Dragonmouth.Plugin.StatusGaps

/-!
# The batch of a slot status

`Sender::push` makes up for statuses that ancestors have missed: it walks the
tracked parent links from the slot of the message for as long as the slot they lead
to is tracked and lacks the flag of the status. The batch is the longest chain of
such ancestors, the oldest first, and the message.

## Main definitions

- `Lacks`: a tracked slot does not have the flag of a status
- `MissedChain`, `LongestChain`: chains of ancestors that lack it
- `Backfilled`: the batch of a message
-/

namespace Dragonmouth.Plugin

/-- The flag of a confirmed or rooted status has not been set. Other statuses have
no flag. -/
def Lacks (entry : SlotInfo) : SlotStatus → Prop
  | .confirmed => entry.confirmed = false
  | .rooted => entry.finalized = false
  | _ => False

/-- Ancestors along the tracked parent links, the nearest first, each tracked and
without the flag of the status. -/
inductive MissedChain (slots : OrderedMap Slot SlotInfo) (status : SlotStatus) :
    Slot → List Slot → Prop where
  | nil (slot : Slot) : MissedChain slots status slot []
  | cons {slot parent : Slot} {entry : SlotInfo} {chain : List Slot}
      (link : recorded slots slot = some parent) (tracked : slots.lookup parent = some entry)
      (lacks : Lacks entry status) (rest : MissedChain slots status parent chain) :
      MissedChain slots status slot (parent :: chain)

/-- The longest such chain: all others are the beginning of it. -/
structure LongestChain (slots : OrderedMap Slot SlotInfo) (status : SlotStatus) (slot : Slot)
    (chain : List Slot) : Prop where
  missed : MissedChain slots status slot chain
  longest : ∀ chain', MissedChain slots status slot chain' → chain' <+: chain

/-- The messages for missed statuses, each with the tracked parent of its slot. -/
def missedMessages (slots : OrderedMap Slot SlotInfo) (status : SlotStatus) (chain : List Slot) :
    List ProtobufMessage :=
  chain.map fun slot => .slot slot (recorded slots slot) status

/-- The batch of a message: for a slot message the longest chain of ancestors that
have missed its status, the oldest first and none twice, and the message; for any
other message the message alone. -/
def Backfilled (slots : OrderedMap Slot SlotInfo) : ProtobufMessage → List ProtobufMessage → Prop
  | .slot slot parent status, batch => ∃ chain, LongestChain slots status slot chain ∧
      (slot :: chain).Nodup ∧
      batch = (missedMessages slots status chain).reverse ++ [.slot slot parent status]
  | message, batch => batch = [message]

variable {slots : OrderedMap Slot SlotInfo} {status : SlotStatus} {slot : Slot}
  {chain : List Slot}

theorem missed_iff {entry : SlotInfo} : entry.missed status = true ↔ Lacks entry status := by
  cases status <;> simp [SlotInfo.missed, Lacks]

/-- No chain leaves a slot whose parent is not missed. -/
theorem longestChain_nil (h : ∀ parent entry, recorded slots slot = some parent →
    slots.lookup parent = some entry → ¬Lacks entry status) :
    LongestChain slots status slot [] := by
  refine ⟨.nil slot, fun chain' hchain => ?_⟩
  cases hchain with
  | nil => exact List.prefix_rfl
  | cons link tracked lacks _ => exact absurd lacks (h _ _ link tracked)

/-- A missed parent extends the longest chain from it. -/
theorem LongestChain.cons {parent : Slot} {entry : SlotInfo}
    (link : recorded slots slot = some parent) (tracked : slots.lookup parent = some entry)
    (lacks : Lacks entry status) (h : LongestChain slots status parent chain) :
    LongestChain slots status slot (parent :: chain) := by
  refine ⟨.cons link tracked lacks h.missed, fun chain' hchain => ?_⟩
  cases hchain with
  | nil => exact List.nil_prefix
  | cons link' _ _ rest =>
    cases link.symm.trans link'
    exact (List.prefix_cons_inj parent).mpr (h.longest _ rest)

/-- The walk collects the messages of the longest chain. -/
theorem backfill_chain {n : ℕ} {messages : List ProtobufMessage}
    (hrun : backfill slots status n slot = some messages) :
    ∃ chain, LongestChain slots status slot chain ∧
      messages = missedMessages slots status chain := by
  induction n generalizing slot messages with
  | zero => cases hrun
  | succ n ih =>
    rw [backfill] at hrun
    cases hlink : (slots.lookup slot).bind SlotInfo.parentSlot with
    | none =>
      simp only [hlink, Option.some.injEq] at hrun
      subst hrun
      refine ⟨[], longestChain_nil fun parent entry hparent => ?_, rfl⟩
      rw [recorded, hlink] at hparent
      cases hparent
    | some parent =>
      cases htracked : slots.lookup parent with
      | none =>
        simp only [hlink, htracked, Option.some.injEq] at hrun
        subst hrun
        refine ⟨[], longestChain_nil fun parent' entry hparent hentry => ?_, rfl⟩
        cases hlink.symm.trans hparent
        cases htracked.symm.trans hentry
      | some entry =>
        simp only [hlink, htracked] at hrun
        by_cases hmissed : entry.missed status = true
        · rw [if_pos hmissed] at hrun
          obtain ⟨rest, hrest, rfl⟩ := Option.map_eq_some_iff.mp hrun
          obtain ⟨chain, hchain, rfl⟩ := ih hrest
          have hrecorded : recorded slots parent = entry.parentSlot := by
            rw [recorded, htracked, Option.bind_some]
          refine ⟨parent :: chain, hchain.cons hlink htracked (missed_iff.mp hmissed), ?_⟩
          rw [missedMessages, missedMessages, List.map_cons, hrecorded]
        · rw [if_neg hmissed, Option.some.injEq] at hrun
          subst hrun
          refine ⟨[], longestChain_nil fun parent' entry' hparent hentry => ?_, rfl⟩
          cases hlink.symm.trans hparent
          cases htracked.symm.trans hentry
          exact fun hlacks => hmissed (missed_iff.mpr hlacks)

/-- A chain goes down if every tracked parent is below its slot. -/
theorem MissedChain.decreasing {sh : Shared} (h : sh.ParentsBelow)
    (hchain : MissedChain sh.state.slots status slot chain) :
    (slot :: chain).Pairwise (· > ·) := by
  induction hchain with
  | nil slot => exact List.pairwise_singleton _ slot
  | @cons slot parent entry chain link _ _ _ ih =>
    obtain ⟨info, hinfo, hparent⟩ := Option.bind_eq_some_iff.mp link
    have hlt : parent < slot := h slot info parent hinfo hparent
    rw [List.pairwise_cons] at ih ⊢
    refine ⟨fun a ha => ?_, List.pairwise_cons.mpr ih⟩
    rcases List.mem_cons.mp ha with rfl | ha
    · exact hlt
    · exact (ih.1 a ha).trans hlt

/-- The walk ends, and the messages handed to `push_msg` make up for what has been
missed. -/
theorem batch_backfilled {sh : Shared} (h : sh.ParentsBelow) (message : ProtobufMessage) :
    ∃ batch, sh.batch message = some batch ∧ Backfilled sh.state.slots message batch := by
  cases message with
  | slot slot parent status =>
    have hcard : (sh.state.slots.keys.filter (· < slot)).card < sh.state.slots.len + 1 :=
      Nat.lt_succ_of_le (Finset.card_filter_le _ _)
    obtain ⟨messages, hrun, -⟩ := Shared.backfill_spec h status hcard
    obtain ⟨chain, hchain, rfl⟩ := backfill_chain hrun
    refine ⟨(missedMessages sh.state.slots status chain).reverse ++ [.slot slot parent status], ?_,
      chain, hchain, (hchain.missed.decreasing h).imp fun hgt => ne_of_gt hgt, rfl⟩
    rw [Shared.batch, hrun, Option.map_some, List.reverse_cons]
  | account | transaction | entry | blockMeta => exact ⟨_, rfl, rfl⟩

/-- A channel that tracks three slots, two of them without the flags. -/
def threeSlots : Shared :=
  let sh := Sender.new ⟨4, 3, 100⟩
  { sh with state := { sh.state with
      slots := ((sh.state.slots.insert 5 ⟨4, none, false, false⟩).insert 6
        ⟨5, some 5, false, false⟩).insert 7 ⟨6, some 6, false, false⟩ } }

theorem batch_backfilled_threeSlots : ∃ batch,
    threeSlots.batch (.slot 7 (some 6) .confirmed) = some batch ∧
      batch = [.slot 5 none .confirmed, .slot 6 (some 5) .confirmed, .slot 7 (some 6) .confirmed] ∧
      Backfilled threeSlots.state.slots (.slot 7 (some 6) .confirmed) batch := by
  have hbelow : threeSlots.ParentsBelow := by
    intro s info p hs hp
    simp only [threeSlots, Sender.new, Finmap.lookup_insert_eq, Finmap.lookup_empty] at hs
    split at hs
    · subst_vars
      cases hs
      cases hp
      decide
    · split at hs
      · subst_vars
        cases hs
        cases hp
        decide
      · split at hs
        · cases hs
          cases hp
        · cases hs
  obtain ⟨batch, hbatch, hfilled⟩ := batch_backfilled hbelow (.slot 7 (some 6) .confirmed)
  refine ⟨batch, hbatch, ?_, hfilled⟩
  have hrun : threeSlots.batch (.slot 7 (some 6) .confirmed) = some
      [.slot 5 none .confirmed, .slot 6 (some 5) .confirmed, .slot 7 (some 6) .confirmed] :=
    rfl
  exact Option.some.inj (hbatch.symm.trans hrun)

end Dragonmouth.Plugin
