import Dragonmouth.Richat.LateMessages

/-!
# The reports of a slot

A slot is reported to the metrics when a message comes after its block, and when it is
released without a block although it has landed. Over its whole life it is reported at
most once, and the report names what the messages received were missing, or the message
that came late.

## Main definitions

- `SlotInfo.release`: the `Drop` of a slot
- `missingOf`: what is missing of the block of a slot
- `Accounted`: the reports that are due for a slot that is released

## Main results

- `released_accounted`: a slot is reported as it is due
-/

namespace Dragonmouth.Richat

/-- A confirmed or finalized status lands its slot. -/
def ParsedMessage.lands : ParsedMessage → Bool
  | .slot msg =>
    match msg.commitment with
    | .confirmed | .finalized => true
    | _ => false
  | _ => false

namespace SlotInfo

/-- The reasons `Drop` finds. -/
def dropReasons (info : SlotInfo) : List BlockMessageFailedReason :=
  match info.blockMeta with
  | some blockMeta =>
    (if blockMeta.executedTransactionCount ≠ info.transactionsCount then
      [.mismatchTransactions] else []) ++
    (if blockMeta.entriesCount ≠ info.entriesCount then [.mismatchEntries] else [])
  | none => [.missedBlockMeta]

/-- `Drop`. -/
def release (info : SlotInfo) : SlotInfo :=
  if !info.blockCreated && !info.failed && info.landed then
    { info with reported := info.reported ++ [info.dropReasons] }
  else info

end SlotInfo

-- ════════════════════════════════════════════════════════════════════════
-- The reports that are due
-- ════════════════════════════════════════════════════════════════════════

/-- What the messages received are missing of a block. -/
def missingOf (received : List ParsedMessage) : List BlockMessageFailedReason :=
  match latestBlockMeta received with
  | some blockMeta =>
    (if blockMeta.executedTransactionCount ≠ (transactionsOf received).length then
      [.mismatchTransactions] else []) ++
    (if blockMeta.entriesCount ≠ (entriesOf received).length then [.mismatchEntries] else [])
  | none => [.missedBlockMeta]

/-- The report of the first message after the block. -/
def lateOf : List ParsedMessage → List (List BlockMessageFailedReason)
  | [] => []
  | message :: _ => SlotInfo.blockMessageFailedInc [] (SlotInfo.extraReasons message)

/-- The reports that are due for a slot that is released after its messages. -/
inductive Accounted (received : List ParsedMessage) :
    List (List BlockMessageFailedReason) → Prop where
  /-- The block has been made of the messages `before`. -/
  | assembled {before after : List ParsedMessage} (split : received = before ++ after)
      (first : FirstComplete before) : Accounted received (lateOf after)
  /-- The block was never due, and nobody expects it. -/
  | forked (incomplete : ∀ before, before <+: received → ¬CompleteOf before)
      (forked : ∀ message ∈ received, message.lands = false) : Accounted received []
  /-- The block was never due, though the slot has landed. -/
  | missing (incomplete : ∀ before, before <+: received → ¬CompleteOf before)
      (landed : ∃ message ∈ received, message.lands = true) (missing : missingOf received ≠ []) :
      Accounted received [missingOf received]

/-- Messages that do not complete a block miss something. -/
theorem missingOf_ne_nil {received : List ParsedMessage} (h : ¬CompleteOf received) :
    missingOf received ≠ [] := by
  rw [missingOf]
  cases hmeta : latestBlockMeta received with
  | none => simp
  | some blockMeta =>
    intro hnil
    obtain ⟨htransactions, hentries⟩ := List.append_eq_nil_iff.mp hnil
    refine h ⟨blockMeta, hmeta, ?_, ?_⟩
    · by_contra hne
      rw [if_pos hne] at htransactions
      cases htransactions
    · by_contra hne
      rw [if_pos hne] at hentries
      cases hentries

/-- A slot is reported at most once. -/
theorem Accounted.length_le {received : List ParsedMessage}
    {reports : List (List BlockMessageFailedReason)} (h : Accounted received reports) :
    reports.length ≤ 1 ∧ [] ∉ reports := by
  cases h with
  | @assembled before after =>
    cases after with
    | nil => exact ⟨Nat.zero_le _, List.not_mem_nil⟩
    | cons message after =>
      rw [lateOf, SlotInfo.blockMessageFailedInc]
      split
      · exact ⟨Nat.zero_le _, List.not_mem_nil⟩
      · rename_i hne
        exact ⟨le_rfl, fun hmem => hne (List.mem_singleton.mp hmem).symm⟩
  | forked => exact ⟨Nat.zero_le _, List.not_mem_nil⟩
  | missing _ _ hne => exact ⟨le_rfl, fun hmem => hne (List.mem_singleton.mp hmem).symm⟩

-- ════════════════════════════════════════════════════════════════════════
-- Every run of a slot
-- ════════════════════════════════════════════════════════════════════════

section

variable {slot : Slot} {info info' : SlotInfo} {message : ParsedMessage}
  {received : List ParsedMessage}

theorem SlotInfo.markLanded_lands (info : SlotInfo) (message : ParsedMessage) :
    info.markLanded message = { info with landed := info.landed || message.lands } := by
  cases message with
  | slot msg =>
    simp only [markLanded, ParsedMessage.lands]
    cases msg.commitment <;> simp
  | _ => simp [markLanded, ParsedMessage.lands]

/-- The marks and the reports of a slot are the same. -/
structure SlotInfo.Marked (info info' : SlotInfo) : Prop where
  landed : info'.landed = info.landed
  failed : info'.failed = info.failed
  reported : info'.reported = info.reported
  created : info'.blockCreated = info.blockCreated

theorem SlotInfo.store_marks (hok : info.store message = .ok info') :
    Marked info info' := by
  cases message with
  | account account =>
    obtain ⟨-, rfl⟩ | ⟨version, idx, -, ⟨-, rfl⟩ | ⟨-, rfl⟩⟩ := storeAccount_cases hok
    · exact ⟨rfl, rfl, rfl, rfl⟩
    · exact ⟨rfl, rfl, rfl, rfl⟩
    · exact ⟨rfl, rfl, rfl, rfl⟩
  | block block => cases hok
  | _ =>
    cases hok
    exact ⟨rfl, rfl, rfl, rfl⟩

/-- A slot without a block is marked as landed, and has the block if it is returned. -/
theorem SlotInfo.getBlockMessage_marks {result : Option ParsedMessage}
    (hopen : info.blockCreated = false)
    (hok : info.getBlockMessage message = .ok (info', result)) :
    info'.landed = (info.landed || message.lands) ∧ info'.failed = info.failed ∧
      info'.reported = info.reported ∧ info'.blockCreated = result.isSome := by
  rw [getBlockMessage, markLanded_lands] at hok
  replace hok := (if_neg (by simp [hopen])).symm.trans hok
  obtain ⟨info₁, hstore, hcreate⟩ := Sender.exists_of_bind hok
  have hmarked := store_marks hstore
  have hnone : info₁.landed = (info.landed || message.lands) ∧ info₁.failed = info.failed ∧
      info₁.reported = info.reported ∧ info₁.blockCreated = false :=
    ⟨hmarked.landed, hmarked.failed, hmarked.reported, hmarked.created.trans hopen⟩
  replace hcreate := Except.ok.inj hcreate
  rw [tryCreateBlock] at hcreate
  split at hcreate
  · split at hcreate
    · cases hcreate
      exact ⟨hnone.1, hnone.2.1, hnone.2.2.1, rfl⟩
    · cases hcreate
      exact hnone
  · cases hcreate
    exact hnone

/-- What a slot has been marked with and reported for. -/
structure Tally (received : List ParsedMessage) (info : SlotInfo) : Prop where
  landed : info.landed = received.any ParsedMessage.lands
  open_ : info.blockCreated = false → info.failed = false ∧ info.reports = []
  created : info.blockCreated = true → ∃ before after, received = before ++ after ∧
    FirstComplete before ∧ info.failed = !after.isEmpty ∧ info.reports = lateOf after

theorem Tally.new (slot : Slot) : Tally [] (.new slot) :=
  ⟨rfl, fun _ => ⟨rfl, rfl⟩, fun h => by cases h⟩

theorem any_lands_append (received : List ParsedMessage) (message : ParsedMessage) :
    (received ++ [message]).any ParsedMessage.lands =
      (received.any ParsedMessage.lands || message.lands) := by
  simp [List.any_append]

/-- A message after the block: the first one is reported. -/
theorem Tally.late (h : Tally received info) (hcreated : info.blockCreated = true)
    (message : ParsedMessage) :
    Tally (received ++ [message]) ((info.markLanded message).reportExtra message) := by
  obtain ⟨before, after, rfl, hfirst, hfailed, hreports⟩ := h.created hcreated
  have hlanded : (info.landed || message.lands) =
      (before ++ after ++ [message]).any ParsedMessage.lands := by
    rw [h.landed, any_lands_append]
  rw [SlotInfo.markLanded_lands, SlotInfo.reportExtra]
  cases hafter : after with
  | nil =>
    rw [hafter] at hfailed hreports
    rw [if_neg (by simp [hfailed])]
    refine ⟨hafter ▸ hlanded, fun hopen => ?_, fun _ => ⟨before, [message], ?_, hfirst, rfl, ?_⟩⟩
    · exact absurd (hopen.symm.trans hcreated) (by decide)
    · simp
    · have hfold : (info.reported ++ [SlotInfo.extraReasons message]).foldl
          SlotInfo.blockMessageFailedInc [] =
            SlotInfo.blockMessageFailedInc info.reports (SlotInfo.extraReasons message) :=
        List.foldl_append
      exact hfold.trans (congrArg (SlotInfo.blockMessageFailedInc · _) hreports)
  | cons first rest =>
    rw [hafter] at hfailed hreports
    rw [if_pos (by simp [hfailed])]
    refine ⟨hafter ▸ hlanded, fun hopen => ?_,
      fun _ => ⟨before, first :: rest ++ [message], ?_, hfirst, ?_, ?_⟩⟩
    · exact absurd (hopen.symm.trans hcreated) (by decide)
    · simp
    · exact hfailed
    · exact hreports

theorem Tally.step {result : Option ParsedMessage} (h : Tally received info)
    (hprogress : info.Progress received)
    (hok : info.getBlockMessage message = .ok (info', result)) :
    Tally (received ++ [message]) info' := by
  cases hcreated : info.blockCreated with
  | true =>
    have hlate := h.late hcreated message
    rw [SlotInfo.getBlockMessage, if_pos (by rw [SlotInfo.markLanded_lands]; exact hcreated)] at hok
    cases hok
    exact hlate
  | false =>
    obtain ⟨hlanded, hfailed, hreported, hblock⟩ := SlotInfo.getBlockMessage_marks hcreated hok
    obtain ⟨hunfailed, hnone⟩ := h.open_ hcreated
    have hreports : info'.reports = [] := by
      rw [SlotInfo.reports, hreported]
      exact hnone
    refine ⟨?_, fun _ => ⟨hfailed.trans hunfailed, hreports⟩, fun hnow => ?_⟩
    · rw [hlanded, h.landed, any_lands_append]
    · have hfirst := (hprogress.step hok).returned.mp (hblock ▸ hnow)
      exact ⟨received ++ [message], [], (List.append_nil _).symm, hfirst,
        hfailed.trans hunfailed, hreports⟩

theorem Given.tally (given : Given slot received info) : Tally received info := by
  induction given with
  | new => exact .new slot
  | message given _ hok ih => exact ih.step given.progress hok

theorem Given.accounted (given : Given slot received info) :
    Accounted received info.release.reports := by
  have htally := given.tally
  rw [SlotInfo.release]
  cases hcreated : info.blockCreated with
  | true =>
    obtain ⟨before, after, hsplit, hfirst, -, hreports⟩ := htally.created hcreated
    rw [if_neg (by simp), hreports]
    exact .assembled hsplit hfirst
  | false =>
    obtain ⟨hfailed, hreports⟩ := htally.open_ hcreated
    obtain ⟨hcollected, hincomplete⟩ := given.progress.open hcreated
    cases hlanded : info.landed with
    | false =>
      rw [if_neg (by simp), hreports]
      refine .forked hincomplete fun message hmessage => ?_
      rw [htally.landed] at hlanded
      exact Bool.eq_false_iff.mpr fun hlands =>
        absurd (List.any_eq_true.mpr ⟨message, hmessage, hlands⟩) (by simp [hlanded])
    | true =>
      have hmissing := missingOf_ne_nil (hincomplete received List.prefix_rfl)
      have hreasons : info.dropReasons = missingOf received := by
        rw [SlotInfo.dropReasons, missingOf, hcollected.blockMeta, hcollected.transactionsCount,
          hcollected.entriesCount]
      have hfold : (info.reported ++ [info.dropReasons]).foldl SlotInfo.blockMessageFailedInc [] =
          SlotInfo.blockMessageFailedInc info.reports info.dropReasons := List.foldl_append
      rw [if_pos (by simp [hfailed]), SlotInfo.reports, hfold, hreports, hreasons,
        SlotInfo.blockMessageFailedInc, if_neg hmissing]
      refine .missing hincomplete ?_ hmissing
      rw [htally.landed] at hlanded
      exact List.any_eq_true.mp hlanded

/-- A slot that is released has been reported as is due for its messages, once at most. -/
theorem released_accounted (given : Given slot received info) :
    Accounted received info.release.reports ∧ info.release.reports.length ≤ 1 ∧
      [] ∉ info.release.reports :=
  ⟨given.accounted, given.accounted.length_le⟩

/-- A confirmed slot whose entry never came. -/
theorem released_accounted_entry : ∃ info : SlotInfo,
    info.release.reports = [[.mismatchEntries]] ∧
    Accounted [oneEntryMeta, SlotInfo.confirmedStatus] info.release.reports := by
  have given : Given 5 [oneEntryMeta] _ :=
    .message .new (fun block hblock => by cases hblock) rfl
  have given' : Given 5 ([oneEntryMeta] ++ [SlotInfo.confirmedStatus]) _ :=
    .message given (fun block hblock => by cases hblock) rfl
  exact ⟨_, by decide +kernel, (released_accounted given').1⟩

end

end Dragonmouth.Richat
