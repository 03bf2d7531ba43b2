import Dragonmouth.Richat.BlockAssembly
import Dragonmouth.Richat.Sender

/-!
# Messages after the block

A message that comes after the block of its slot means that the block is not whole,
and is reported once for the slot. `failed` is set by the first message after the
block whatever it is, and a slot status has nothing to report: after one, no message
of the slot is reported any more.

## Main definitions

- `SlotInfo.giveAll`: a slot given messages
- `SlotInfo.reports`: what the metrics have been given
- `SlotInfo.ReportsOnce`: the first late message is the one reported

## Main results

- `SlotInfo.late_reported_iff`: which late messages are reported
-/

namespace Dragonmouth.Richat

/-- Accounts, transactions, entries and the block meta are parts of a block. -/
def ParsedMessage.isPart : ParsedMessage → Bool
  | .slot _ => false
  | .account _ => true
  | .transaction _ => true
  | .entry _ => true
  | .blockMeta _ => true
  | .block _ => false

namespace SlotInfo

variable {slot : Slot} {info info' created : SlotInfo} {message m : ParsedMessage}
  {messages received before after : List ParsedMessage}

/-- Give a slot messages. -/
def giveAll (info : SlotInfo) : List ParsedMessage → Except Panic SlotInfo
  | [] => .ok info
  | message :: messages => do
    let (info, _) ← info.getBlockMessage message
    info.giveAll messages

/-- `block_message_failed_inc`: a report has reasons. -/
def blockMessageFailedInc (reports : List (List BlockMessageFailedReason))
    (reasons : List BlockMessageFailedReason) : List (List BlockMessageFailedReason) :=
  if reasons = [] then reports else reports ++ [reasons]

/-- The reports made for the slot. -/
def reports (info : SlotInfo) : List (List BlockMessageFailedReason) :=
  info.reported.foldl blockMessageFailedInc []

/-- A message after the block is reported with its reason, and nothing is reported before
it or after it. -/
def ReportsOnce (created : SlotInfo) (before : List ParsedMessage) (m : ParsedMessage)
    (after : List ParsedMessage) : Prop :=
  ∃ info₁ info₂ info₃, created.giveAll before = .ok info₁ ∧
    info₁.getBlockMessage m = .ok (info₂, none) ∧ info₂.giveAll after = .ok info₃ ∧
    info₁.reports = created.reports ∧ info₂.reports = created.reports ++ [extraReasons m] ∧
    info₃.reports = info₂.reports

/-- Storing reports nothing. -/
theorem store_failed (hok : info.store message = .ok info') : info'.failed = info.failed := by
  cases message with
  | account account =>
    obtain ⟨-, rfl⟩ | ⟨version, idx, -, ⟨-, rfl⟩ | ⟨-, rfl⟩⟩ := storeAccount_cases hok
    · rfl
    · rfl
    · rfl
  | block block => cases hok
  | _ =>
    cases hok
    rfl

/-- A slot that has no block has not failed. -/
def Unfailed (info : SlotInfo) : Prop := info.blockCreated = false → info.failed = false

theorem Unfailed.step {result : Option ParsedMessage} (h : info.Unfailed)
    (hok : info.getBlockMessage message = .ok (info', result)) : info'.Unfailed := by
  cases getBlockMessage_outcome hok with
  | extra hcreated => exact fun hopen => absurd (hopen.symm.trans hcreated) (by decide)
  | stored hopen hstore => exact fun _ => (store_failed hstore).trans (h hopen)
  | created =>
    intro hopen
    cases hopen

theorem Unfailed.run (h : info.Unfailed) (hok : info.giveAll messages = .ok info') :
    info'.Unfailed := by
  induction messages generalizing info with
  | nil =>
    cases hok
    exact h
  | cons message messages ih =>
    obtain ⟨⟨info₁, result⟩, hfirst, hrest⟩ := Sender.exists_of_bind hok
    exact ih (h.step hfirst) hrest

/-- The block is created by a slot that had none, and nothing has been reported then. -/
theorem Unfailed.create {block : ParsedMessage} (h : info.Unfailed)
    (hcreate : info.getBlockMessage message = .ok (created, some block)) :
    created.blockCreated = true ∧ created.failed = false := by
  cases getBlockMessage_outcome hcreate with
  | created hopen hstore => exact ⟨rfl, (store_failed hstore).trans (h hopen)⟩

theorem extraReasons_eq_nil_iff (message : ParsedMessage) :
    extraReasons message = [] ↔ message.isPart = false := by
  cases message <;> simp [extraReasons, ParsedMessage.isPart]

/-- What a message after the block does: the first one is reported. -/
structure Late (info : SlotInfo) (message : ParsedMessage) (info' : SlotInfo) : Prop where
  created : info'.blockCreated = true
  failed : info'.failed = true
  first : info.failed = false → info'.reports = blockMessageFailedInc info.reports
    (extraReasons message)
  later : info.failed = true → info'.reports = info.reports

/-- A slot that has its block takes every message. -/
theorem getBlockMessage_late (hcreated : info.blockCreated = true) (message : ParsedMessage) :
    ∃ info', info.getBlockMessage message = .ok (info', none) ∧ info.Late message info' := by
  obtain ⟨landed, hlanded⟩ := markLanded_eq info message
  rw [getBlockMessage, hlanded]
  refine ⟨_, if_pos hcreated, ?_⟩
  rw [reportExtra]
  by_cases hfailed : info.failed = true
  · rw [if_pos hfailed]
    exact ⟨hcreated, hfailed, fun h => absurd (h.symm.trans hfailed) (by decide), fun _ => rfl⟩
  · rw [if_neg hfailed]
    exact ⟨hcreated, rfl, fun _ => List.foldl_append, fun h => absurd h hfailed⟩

/-- Once a slot has failed, nothing is reported for it. -/
theorem giveAll_failed (hcreated : info.blockCreated = true) (hfailed : info.failed = true)
    (messages : List ParsedMessage) :
    ∃ info', info.giveAll messages = .ok info' ∧ info'.failed = true ∧
      info'.blockCreated = true ∧ info'.reports = info.reports := by
  induction messages generalizing info with
  | nil => exact ⟨info, rfl, hfailed, hcreated, rfl⟩
  | cons message messages ih =>
    obtain ⟨info₁, hfirst, hlate⟩ := getBlockMessage_late hcreated message
    obtain ⟨info', hrest, hfailed', hcreated', hreports⟩ := ih hlate.created hlate.failed
    refine ⟨info', ?_, hfailed', hcreated', hreports.trans (hlate.later hfailed)⟩
    rw [giveAll, hfirst]
    exact hrest

/-- A message that is no part of a block is enough for a slot to fail. -/
theorem giveAll_quiet (hcreated : info.blockCreated = true) (hne : messages ≠ [])
    (hquiet : ∀ message ∈ messages, message.isPart = false) :
    ∃ info', info.giveAll messages = .ok info' ∧ info'.failed = true ∧
      info'.blockCreated = true ∧ info'.reports = info.reports := by
  cases messages with
  | nil => exact absurd rfl hne
  | cons message messages =>
    obtain ⟨info₁, hfirst, hlate⟩ := getBlockMessage_late hcreated message
    obtain ⟨info', hrest, hfailed', hcreated', hreports⟩ :=
      giveAll_failed hlate.created hlate.failed messages
    have hsame : info₁.reports = info.reports := by
      cases hfailed : info.failed with
      | true => exact hlate.later hfailed
      | false =>
        have hreasons := (extraReasons_eq_nil_iff message).mpr (hquiet message List.mem_cons_self)
        exact (hlate.first hfailed).trans (if_pos hreasons)
    refine ⟨info', ?_, hfailed', hcreated', hreports.trans hsame⟩
    rw [giveAll, hfirst]
    exact hrest

/-- The first message after the block is reported, and only that one. -/
theorem reportsOnce_first (hcreated : created.blockCreated = true)
    (hfailed : created.failed = false) (hm : m.isPart = true) (after : List ParsedMessage) :
    created.ReportsOnce [] m after := by
  obtain ⟨info₂, hreport, hlate⟩ := getBlockMessage_late hcreated m
  obtain ⟨info₃, hafter, -, -, hsame⟩ := giveAll_failed hlate.created hlate.failed after
  have hreasons : extraReasons m ≠ [] := fun h =>
    absurd ((extraReasons_eq_nil_iff m).mp h) (by simp [hm])
  exact ⟨created, info₂, info₃, rfl, hreport, hafter, rfl,
    (hlate.first hfailed).trans (if_neg hreasons), hsame⟩

/-- After a message that is no part of a block, none is reported. -/
theorem not_reportsOnce (hcreated : created.blockCreated = true) (hne : before ≠ [])
    (hquiet : ∀ message ∈ before, message.isPart = false) :
    ¬created.ReportsOnce before m after := by
  rintro ⟨info₁, info₂, info₃, hbefore, hreport, -, -, hreports, -⟩
  obtain ⟨info₁', hrun, hfailed, hcreated', hsame⟩ := giveAll_quiet hcreated hne hquiet
  cases hrun.symm.trans hbefore
  obtain ⟨info₂', hlate_ok, hlate⟩ := getBlockMessage_late hcreated' m
  cases hlate_ok.symm.trans hreport
  have hlength := congrArg List.length (((hlate.later hfailed).trans hsame).symm.trans hreports)
  rw [List.length_append, List.length_singleton] at hlength
  omega

/-- In every run of a slot whose block has been created, the first part of a block that
comes late is reported, once, exactly if no other message has come in between. -/
theorem late_reported_iff (hgiven : (new slot).giveAll received = .ok info)
    {block : ParsedMessage}
    (hcreate : info.getBlockMessage message = .ok (created, some block))
    (hquiet : ∀ message ∈ before, message.isPart = false) (hm : m.isPart = true) :
    created.ReportsOnce before m after ↔ before = [] := by
  have hunfailed : info.Unfailed := Unfailed.run (fun _ => rfl) hgiven
  obtain ⟨hcreated, hfailed⟩ := hunfailed.create hcreate
  constructor
  · intro h
    by_contra hne
    exact not_reportsOnce hcreated hne hquiet h
  · rintro rfl
    exact reportsOnce_first hcreated hfailed hm after

/-- A confirmed status of the slot. -/
def confirmedStatus : ParsedMessage := .slot ⟨5, none, .confirmed, none, ⟨0, 0⟩, 3⟩

/-- An entry right after the block is reported. -/
theorem late_reported_entry : ∃ info created block,
    (new 5).giveAll [oneEntryMeta] = .ok info ∧
      info.getBlockMessage onlyEntry = .ok (created, some block) ∧
      created.ReportsOnce [] onlyEntry [confirmedStatus] := by
  obtain ⟨info, created, block, hgiven, hcreate⟩ : ∃ info created block,
      (new 5).giveAll [oneEntryMeta] = .ok info ∧
        info.getBlockMessage onlyEntry = .ok (created, some block) := ⟨_, _, _, rfl, rfl⟩
  exact ⟨info, created, block, hgiven, hcreate,
    (late_reported_iff hgiven hcreate (by simp) rfl).mpr rfl⟩

/-- An entry after the block and a confirmed status is not. -/
theorem status_hides_entry : ∃ info created block info₁ info₂,
    (new 5).giveAll [oneEntryMeta] = .ok info ∧
      info.getBlockMessage onlyEntry = .ok (created, some block) ∧
      created.giveAll [confirmedStatus] = .ok info₁ ∧
      info₁.getBlockMessage onlyEntry = .ok (info₂, none) ∧ info₂.reports = [] ∧
      ¬created.ReportsOnce [confirmedStatus] onlyEntry [] := by
  refine ⟨_, _, _, _, _, rfl, rfl, rfl, rfl, rfl, ?_⟩
  rintro ⟨info₁, info₂, info₃, hbefore, hreport, -, -, hreports, -⟩
  cases hbefore
  cases hreport
  cases hreports

end SlotInfo

end Dragonmouth.Richat
