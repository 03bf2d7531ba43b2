import Dragonmouth.Grpc.BlockMeta

/-!
# What the unary requests are answered

The answers of the storage, in terms of the messages it has been given. Three
expectations fail, each for its own reason: the cleanup keeps the blockhashes it
should remove and removes the others, a status creates the entry of a block that
has not been received, and the confirmed and finalized slots follow the last
status even if its slot is lower.

## Main definitions

- `lastMeta`: the last block meta of a slot or of a blockhash
- `Survives`: blockhashes stay valid for their age
- `RealAnswers`: blocks answered are blocks received
- `NeverBack`: no slot answered from goes back
-/

namespace Dragonmouth.Grpc

open Richat
open Proto (CommitmentLevel)

/-- The block metas among the messages. -/
def metas (messages : List ParsedMessage) : List MessageBlockMeta :=
  messages.filterMap fun
    | .blockMeta msg => some msg
    | _ => none

/-- The last block meta that meets a condition. -/
def lastMeta (messages : List ParsedMessage) (which : MessageBlockMeta → Bool) :
    Option MessageBlockMeta :=
  ((metas messages).filter which).getLast?

/-- The slots of the statuses of a commitment level, in order. -/
def statusSlots (level : CommitmentLevel) (messages : List ParsedMessage) : List Slot :=
  messages.filterMap fun
    | .slot msg => if msg.commitment = level then some msg.slot else none
    | _ => none

/-- A status that makes the storage touch the entry of its slot. -/
def Settles (msg : MessageSlot) : Prop :=
  msg.commitment = .confirmed ∨ msg.commitment = .finalized

theorem lastMeta_concat {messages : List ParsedMessage} {message : ParsedMessage}
    (which : MessageBlockMeta → Bool) :
    lastMeta (messages ++ [message]) which =
      match message with
      | .blockMeta msg => if which msg then some msg else lastMeta messages which
      | _ => lastMeta messages which := by
  cases message with
  | blockMeta msg =>
    by_cases hw : which msg <;> simp [lastMeta, metas, hw]
  | _ => simp [lastMeta, metas]

namespace Work

theorem run_concat (messages : List ParsedMessage) (message : ParsedMessage) :
    run (messages ++ [message]) = (run messages).process message := by
  rw [run, List.foldl_append]
  rfl

-- ════════════════════════════════════════════════════════════════════════
-- The maps after a message
-- ════════════════════════════════════════════════════════════════════════

section

variable (w : Work) (slot k : Slot) (msg : MessageBlockMeta) (b : String)

theorem confirm_blocks : (w.confirm slot).blocks.lookup k =
    if k = slot then some { w.entry slot with confirmed := true } else w.blocks.lookup k :=
  Finmap.lookup_insert_eq _ _ _ _

theorem confirm_entry : (w.confirm slot).entry k =
    if k = slot then { w.entry slot with confirmed := true } else w.entry k := by
  rw [entry, confirm_blocks]
  split <;> rfl

theorem confirm_blockhashes : (w.confirm slot).blockhashes.lookup b =
    if b = (w.entry slot).blockhash then some { w.bentry b with confirmed := true }
    else w.blockhashes.lookup b := by
  rw [confirm, put]
  simp only [Finmap.lookup_insert_eq]
  split
  · rename_i hb
    rw [hb]
  · rfl

theorem finalize_blocks : (w.finalize slot).blocks.lookup k =
    if k = slot then some { w.entry slot with finalized := true }
    else (w.blocks.lookup k).filter fun _ => slot ≤ k := by
  rw [finalize, cleanup, put]
  simp only [Finmap.lookup_retain, Finmap.lookup_insert_eq]
  split
  · rename_i hk
    simp [hk]
  · rfl

theorem finalize_entry : (w.finalize slot).entry k =
    if k = slot then { w.entry slot with finalized := true }
    else if slot ≤ k then w.entry k else default := by
  rw [entry, finalize_blocks]
  by_cases hk : k = slot
  · rw [if_pos hk, if_pos hk]
    rfl
  · by_cases hle : slot ≤ k
    · simp only [hk, hle, if_false, if_true, decide_true, entry]
      cases w.blocks.lookup k <;> rfl
    · simp only [hk, hle, if_false, decide_false]
      cases w.blocks.lookup k <;> rfl

theorem finalize_blockhashes : (w.finalize slot).blockhashes.lookup b =
    (if b = (w.entry slot).blockhash then some { w.bentry b with finalized := true }
      else w.blockhashes.lookup b).filter fun bentry =>
        bentry.lastValidBlockHeight < (w.entry slot).blockHeight := by
  rw [finalize, cleanup, put]
  simp only [Finmap.lookup_retain, Finmap.lookup_insert_eq]
  split
  · rename_i hb
    rw [hb]
  · rfl

theorem receive_blocks : (w.receive msg).blocks.lookup k =
    if k = msg.slot then
      some { w.entry msg.slot with
        slot := msg.slot
        blockhash := msg.blockhash
        blockHeight := msg.blockHeight.getD 0
        processed := true }
    else w.blocks.lookup k :=
  Finmap.lookup_insert_eq _ _ _ _

theorem receive_entry : (w.receive msg).entry k =
    if k = msg.slot then
      { w.entry msg.slot with
        slot := msg.slot
        blockhash := msg.blockhash
        blockHeight := msg.blockHeight.getD 0
        processed := true }
    else w.entry k := by
  rw [entry, receive_blocks]
  split <;> rfl

theorem receive_blockhashes : (w.receive msg).blockhashes.lookup b =
    if b = msg.blockhash then
      some { w.bentry b with
        lastValidBlockHeight := (msg.blockHeight.getD 0 + maxProcessingAge) % 2 ^ 64
        processed := true }
    else w.blockhashes.lookup b := by
  rw [receive, put]
  simp only [Finmap.lookup_insert_eq]
  split
  · rename_i hb
    rw [hb]
  · rfl

end

end Work

open Work

variable {messages : List ParsedMessage} {message : ParsedMessage}

-- ════════════════════════════════════════════════════════════════════════
-- Blockhashes
-- ════════════════════════════════════════════════════════════════════════

/-- Whatever block answers at a commitment level, a blockhash whose block meta
has a height within the age of that block is valid. -/
def ValidAnswers (messages : List ParsedMessage) : Prop :=
  ∀ commitment block, (run messages).getBlock commitment = some block →
    ∀ blockhash msg, lastMeta messages (fun msg => msg.blockhash = blockhash) = some msg →
      block.blockHeight < msg.blockHeight.getD 0 + maxProcessingAge →
        (run messages).isBlockhashValid blockhash commitment = some (true, block.slot)

/-- A finalized status removes a blockhash only if it has expired with respect to
the finalized block. -/
def CleansExpired (messages : List ParsedMessage) (msg : MessageSlot) : Prop :=
  ∀ blockhash status, (run messages).blockhashes.lookup blockhash = some status →
    blockhash ∉ (run (messages ++ [.slot msg])).blockhashes →
      status.lastValidBlockHeight ≤ ((run messages).entry msg.slot).blockHeight

/-- Blockhashes stay valid for their age, all along a run. -/
structure Survives (messages : List ParsedMessage) : Prop where
  answers : ∀ before, before <+: messages → ValidAnswers before
  cleanup : ∀ before msg, before ++ [.slot msg] <+: messages → msg.commitment = .finalized →
    CleansExpired before msg

/-- The block meta of a slot comes before the statuses that settle the slot, and
the statuses of either kind come in increasing order. -/
structure Ordered (messages : List ParsedMessage) : Prop where
  metaFirst : ∀ before msg, before ++ [.slot msg] <+: messages → Settles msg →
    ∃ m ∈ metas before, m.slot = msg.slot
  confirmed : (statusSlots .confirmed messages).Pairwise (· < ·)
  finalized : (statusSlots .finalized messages).Pairwise (· < ·)

/-- After a finalized status only blockhashes that have expired are left. -/
theorem finalize_expired {w : Work} {slot : Slot} {blockhash : String} {status : BlockStatus}
    (h : (w.finalize slot).blockhashes.lookup blockhash = some status) :
    status.lastValidBlockHeight < (w.entry slot).blockHeight := by
  rw [finalize_blockhashes, Option.filter_eq_some_iff] at h
  simpa using h.2

theorem finalize_getBlock (w : Work) (slot : Slot) : (w.finalize slot).getBlock .finalized =
    some { w.entry slot with finalized := true } := by
  have h := finalize_blocks w slot slot
  rw [if_pos rfl] at h
  exact h

/-- After a finalized status no blockhash is valid at that level. -/
theorem finalized_none_valid (w : Work) (slot answered : Slot) (blockhash : String) :
    (w.finalize slot).isBlockhashValid blockhash .finalized ≠ some (true, answered) := by
  rw [isBlockhashValid, finalize_getBlock]
  cases hb : (w.finalize slot).blockhashes.lookup blockhash with
  | none => simp
  | some status =>
    have hlt := finalize_expired hb
    have hle : ¬(w.entry slot).blockHeight < status.lastValidBlockHeight := by omega
    simp [hle]

/-- A message that is neither a finalized status with blockhashes for the cleanup to
remove nor a block meta with a height close to the largest. -/
def Harmless (w : Work) : ParsedMessage → Prop
  | .slot msg => msg.commitment = .finalized → ∀ blockhash bentry,
      w.blockhashes.lookup blockhash = some bentry →
        bentry.lastValidBlockHeight < (w.entry msg.slot).blockHeight
  | .blockMeta msg => msg.blockHeight.getD 0 + maxProcessingAge < 2 ^ 64
  | _ => True

/-- Every message is harmless where it is processed. -/
def HarmlessRun (messages : List ParsedMessage) : Prop :=
  ∀ before message, before ++ [message] <+: messages → Harmless (run before) message

theorem HarmlessRun.before {before : List ParsedMessage} (h : HarmlessRun messages)
    (hb : before <+: messages) : HarmlessRun before :=
  fun before' message hb' => h before' message (hb'.trans hb)

/-- A harmless status removes no blockhash. -/
theorem finalize_kept {w : Work} {slot : Slot} {blockhash : String} {bentry : BlockStatus}
    (hb : w.blockhashes.lookup blockhash = some bentry)
    (hlt : bentry.lastValidBlockHeight < (w.entry slot).blockHeight) :
    ∃ bentry', (w.finalize slot).blockhashes.lookup blockhash = some bentry' ∧
      bentry'.lastValidBlockHeight = bentry.lastValidBlockHeight := by
  rw [finalize_blockhashes]
  split
  · exact ⟨{ bentry with finalized := true }, by simp [Work.bentry, hb, hlt], rfl⟩
  · exact ⟨bentry, by simp [hb, hlt], rfl⟩

/-- In a harmless run every blockhash is kept with the height of its last block meta. -/
theorem HarmlessRun.kept (h : HarmlessRun messages) {blockhash : String} {msg : MessageBlockMeta}
    (hmsg : lastMeta messages (fun msg => msg.blockhash = blockhash) = some msg) :
    ∃ status, (run messages).blockhashes.lookup blockhash = some status ∧
      status.lastValidBlockHeight = msg.blockHeight.getD 0 + maxProcessingAge := by
  induction messages using List.reverseRecOn with
  | nil => cases hmsg
  | append_singleton messages message ih =>
    have hall := h.before (List.prefix_append messages [message])
    have hm := h messages message (List.prefix_refl _)
    rw [lastMeta_concat] at hmsg
    rw [run_concat]
    cases message with
    | slot status =>
      obtain ⟨entry, he, hv⟩ := ih hall hmsg
      rw [process]
      by_cases hc : status.commitment = .confirmed
      · rw [if_pos hc, confirm_blockhashes]
        split
        · exact ⟨_, rfl, by rw [bentry, he]; exact hv⟩
        · exact ⟨entry, he, hv⟩
      · rw [if_neg hc]
        by_cases hf : status.commitment = .finalized
        · rw [if_pos hf]
          obtain ⟨entry', he', hv'⟩ := finalize_kept he (hm hf blockhash entry he)
          exact ⟨entry', he', hv'.trans hv⟩
        · rw [if_neg hf]
          exact ⟨entry, he, hv⟩
    | blockMeta received =>
      have hlt : received.blockHeight.getD 0 + maxProcessingAge < 2 ^ 64 := hm
      rw [process, receive_blockhashes]
      by_cases hb : received.blockhash = blockhash
      · simp only [hb, decide_true, if_true, Option.some.injEq] at hmsg
        subst hmsg
        rw [if_pos hb.symm]
        exact ⟨_, rfl, Nat.mod_eq_of_lt hlt⟩
      · simp only [hb, decide_false, Bool.false_eq_true, if_false] at hmsg
        rw [if_neg (Ne.symm hb)]
        exact ih hall hmsg
    | _ => exact ih hall hmsg

theorem HarmlessRun.validAnswers (h : HarmlessRun messages) : ValidAnswers messages := by
  intro commitment block hblock blockhash msg hmsg hlt
  obtain ⟨status, hstatus, hv⟩ := h.kept hmsg
  rw [isBlockhashValid, hblock, hstatus]
  simp [hv, hlt]

/-- Blockhashes stay valid for their age in every run in which no finalized status
finds a blockhash to remove and no block height is within that age of the largest. -/
theorem survives_of_harmless (h : HarmlessRun messages) : Survives messages := by
  refine ⟨fun before hb => (h.before hb).validAnswers, fun before msg hb hf => ?_⟩
  intro blockhash status hstatus _
  exact (h before _ hb hf blockhash status hstatus).le

/-- A slot status and a block meta, of which only what the storage reads matters. -/
def statusOf (slot : Slot) (commitment : CommitmentLevel) : ParsedMessage :=
  .slot ⟨slot, none, commitment, none, ⟨0, 0⟩, 0⟩

def metaOf (slot : Slot) (blockhash : String) (blockHeight : ℕ) : ParsedMessage :=
  .blockMeta ⟨⟨slot, blockhash, none, none, some ⟨blockHeight⟩, 0, "", 0, 0⟩, ⟨0, 0⟩, 0⟩

/-- A confirmed block's blockhash is valid. -/
theorem survives_of_harmless_confirmed :
    (run [metaOf 1 "a" 10, statusOf 1 .confirmed]).isBlockhashValid "a" .confirmed =
      some (true, 1) := by
  have hrun : HarmlessRun [metaOf 1 "a" 10, statusOf 1 .confirmed] := by
    intro before message hp
    rcases before with _ | ⟨first, _ | ⟨second, rest⟩⟩
    · rw [List.nil_append, List.cons_prefix_cons] at hp
      rw [hp.1]
      exact (by decide : 10 + maxProcessingAge < 2 ^ 64)
    · rw [List.cons_append, List.cons_prefix_cons, List.nil_append, List.cons_prefix_cons] at hp
      rw [hp.2.1]
      exact fun hf => (nomatch hf)
    · simp at hp
  have h : Survives [metaOf 1 "a" 10, statusOf 1 .confirmed] := survives_of_harmless hrun
  exact h.answers _ (List.prefix_refl _) .confirmed ⟨1, "a", 10, true, true, false⟩
    (by decide +kernel) "a" _ rfl (by decide)

/-- The finalized block's own blockhash is removed. -/
theorem finalized_blockhash_forgotten : ¬∀ messages, Ordered messages → Survives messages := by
  intro hall
  have hord : Ordered [metaOf 1 "a" 10, statusOf 1 .finalized] := by
    refine ⟨fun before msg hp _ => ?_, by decide, by decide⟩
    rcases before with _ | ⟨first, _ | ⟨second, rest⟩⟩
    · simp [metaOf] at hp
    · rw [List.cons_append, List.cons_prefix_cons] at hp
      obtain ⟨rfl, hp⟩ := hp
      rw [List.nil_append, List.cons_prefix_cons, statusOf, ParsedMessage.slot.injEq] at hp
      rw [hp.1]
      exact ⟨_, List.mem_cons_self, rfl⟩
    · simp at hp
  have h := (hall _ hord).answers _ (List.prefix_refl _) .finalized ⟨1, "a", 10, true, false, true⟩
    (by decide +kernel) "a" _ rfl (by decide)
  exact finalized_none_valid (run [metaOf 1 "a" 10]) 1 1 "a" h

-- ════════════════════════════════════════════════════════════════════════
-- Blocks
-- ════════════════════════════════════════════════════════════════════════

/-- The block has the data of a block meta. -/
def BlockMeta.IsOf (block : BlockMeta) (msg : MessageBlockMeta) : Prop :=
  block.slot = msg.slot ∧ block.blockhash = msg.blockhash ∧
    block.blockHeight = msg.blockHeight.getD 0

/-- The block of the last block meta of the slot answered from. -/
def RealBlock (messages : List ParsedMessage) (commitment : CommitmentLevel)
    (block : BlockMeta) : Prop :=
  ∃ slot msg, (run messages).slotOf commitment = some slot ∧
    lastMeta messages (fun msg => msg.slot = slot) = some msg ∧ block.processed ∧ block.IsOf msg

/-- Both requests are answered from the block of a received block meta. -/
def RealAnswers (messages : List ParsedMessage) : Prop :=
  ∀ commitment,
    (∀ block, (run messages).getBlock commitment = some block →
      RealBlock messages commitment block) ∧
    ∀ blockhash valid slot,
      (run messages).isBlockhashValid blockhash commitment = some (valid, slot) →
        ∃ block, RealBlock messages commitment block ∧ block.slot = slot

/-- The block meta of a slot has been received, and no finalized status of a
higher slot has come since. -/
def Received (messages : List ParsedMessage) (slot : Slot) : Prop :=
  ∃ before msg after, messages = before ++ .blockMeta msg :: after ∧ msg.slot = slot ∧
    ∀ status, .slot status ∈ after → status.commitment = .finalized → status.slot ≤ slot

theorem received_concat {slot : Slot} : Received (messages ++ [message]) slot ↔
    (∃ msg, message = .blockMeta msg ∧ msg.slot = slot) ∨ Received messages slot ∧
      ∀ status, message = .slot status → status.commitment = .finalized → status.slot ≤ slot := by
  constructor
  · rintro ⟨before, msg, after, he, hs, hall⟩
    rcases List.eq_nil_or_concat after with rfl | ⟨after, last, rfl⟩
    · obtain ⟨-, hlast⟩ := List.append_inj' he rfl
      exact .inl ⟨msg, (List.cons.inj hlast).1, hs⟩
    · rw [List.concat_eq_append, ← List.cons_append, ← List.append_assoc] at he
      obtain ⟨hm, hlast⟩ := List.append_inj' he rfl
      have hl : message = last := (List.cons.inj hlast).1
      refine .inr ⟨⟨before, msg, after, hm, hs, fun status hmem => hall status (by simp [hmem])⟩,
        fun status hst => hall status (by simp [← hl, hst])⟩
  · rintro (⟨msg, rfl, hs⟩ | ⟨⟨before, msg, after, rfl, hs, hall⟩, hlast⟩)
    · exact ⟨messages, msg, [], rfl, hs, fun _ h => by cases h⟩
    · refine ⟨before, msg, after ++ [message], by simp, hs, fun status hmem hf => ?_⟩
      rcases List.mem_append.mp hmem with hmem | hmem
      · exact hall status hmem hf
      · exact hlast status (List.mem_singleton.mp hmem).symm hf

/-- A block meta fills the entry of its slot; a finalized status of a higher slot
removes it; nothing else changes whether it is filled. -/
theorem process_entry_processed (w : Work) (message : ParsedMessage) (slot : Slot) :
    ((w.process message).entry slot).processed ↔
      (∃ msg, message = .blockMeta msg ∧ msg.slot = slot) ∨ (w.entry slot).processed ∧
        ∀ status, message = .slot status → status.commitment = .finalized →
          status.slot ≤ slot := by
  cases message with
  | slot status =>
    rw [process]
    by_cases hc : status.commitment = .confirmed
    · rw [if_pos hc, confirm_entry]
      by_cases hk : slot = status.slot
      · simp [hk, hc]
      · simp [hk, hc]
    · rw [if_neg hc]
      by_cases hf : status.commitment = .finalized
      · rw [if_pos hf, finalize_entry]
        by_cases hk : slot = status.slot
        · simp [hk]
        · by_cases hle : status.slot ≤ slot
          · simp [hk, hle]
          · simp [hk, hle, hf]
            rfl
      · simp [hf]
  | blockMeta msg =>
    rw [process, receive_entry]
    by_cases hk : slot = msg.slot
    · simp [hk]
    · simp [hk, Ne.symm hk]
  | _ => simp [process]

/-- An entry is filled exactly if its block meta has been received and not been
cleaned up since. -/
theorem entry_processed_iff {slot : Slot} :
    ((run messages).entry slot).processed ↔ Received messages slot := by
  induction messages using List.reverseRecOn with
  | nil =>
    constructor
    · intro h
      cases h
    · rintro ⟨before, msg, after, he, -⟩
      simp at he
  | append_singleton messages message ih =>
    rw [run_concat, received_concat, process_entry_processed, ih]

/-- A filled entry is the block of the last block meta of its slot. -/
theorem entry_isOf {slot : Slot} (h : ((run messages).entry slot).processed) :
    ∃ msg, lastMeta messages (fun msg => msg.slot = slot) = some msg ∧
      ((run messages).entry slot).IsOf msg := by
  induction messages using List.reverseRecOn with
  | nil => cases h
  | append_singleton messages message ih =>
    rw [run_concat] at h ⊢
    rw [lastMeta_concat]
    cases message with
    | slot status =>
      have hold := (process_entry_processed (run messages) (.slot status) slot).mp h
      simp only [reduceCtorEq, false_and, exists_false, false_or] at hold
      obtain ⟨msg, hmsg, hblock⟩ := ih hold.1
      refine ⟨msg, hmsg, ?_⟩
      rw [process]
      by_cases hc : status.commitment = .confirmed
      · rw [if_pos hc, confirm_entry]
        split
        · rename_i hk
          exact hk ▸ hblock
        · exact hblock
      · rw [if_neg hc]
        split
        · rename_i hf
          rw [finalize_entry, if_pos (hold.2 status rfl hf)]
          split
          · rename_i hk
            exact hk ▸ hblock
          · exact hblock
        · exact hblock
    | blockMeta msg =>
      rw [process, receive_entry] at *
      by_cases hk : slot = msg.slot
      · rw [if_pos hk]
        exact ⟨msg, by simp [hk], rfl, rfl, rfl⟩
      · rw [if_neg hk] at h ⊢
        obtain ⟨msg', hmsg', hblock⟩ := ih h
        exact ⟨msg', by simpa [Ne.symm hk] using hmsg', hblock⟩
    | _ => exact ih h

/-- In order, a finalized status finds the block meta of its slot received and not
cleaned up. -/
theorem Ordered.received (h : Ordered messages) {before : List ParsedMessage} {msg : MessageSlot}
    (hp : before ++ [.slot msg] <+: messages) (hf : msg.commitment = .finalized) :
    Received before msg.slot := by
  obtain ⟨received, hreceived, hslot⟩ := h.metaFirst before msg hp (.inr hf)
  have hmem : ParsedMessage.blockMeta received ∈ before := by
    obtain ⟨message, hmessage, he⟩ := List.mem_filterMap.mp hreceived
    cases message with
    | blockMeta _ =>
      cases he
      exact hmessage
    | _ => cases he
  obtain ⟨earlier, later, rfl⟩ := List.mem_iff_append.mp hmem
  refine ⟨earlier, received, later, rfl, hslot, fun status hstatus hfinal => ?_⟩
  have hrising := h.finalized.sublist (hp.filterMap _).sublist
  rw [List.filterMap_append, List.pairwise_append] at hrising
  refine Nat.le_of_lt (hrising.2.2 status.slot ?_ msg.slot ?_)
  · exact List.mem_filterMap.mpr ⟨.slot status,
      List.mem_append_right _ (List.mem_cons_of_mem _ hstatus), if_pos hfinal⟩
  · exact List.mem_filterMap.mpr ⟨.slot msg, List.mem_cons_self, if_pos hf⟩

/-- A blockhash belongs to one block, and so to one height. -/
def Distinct (messages : List ParsedMessage) : Prop :=
  ∀ msg ∈ metas messages, ∀ msg' ∈ metas messages,
    msg.blockhash = msg'.blockhash → msg.blockHeight = msg'.blockHeight

theorem lastMeta_mem {which : MessageBlockMeta → Bool} {msg : MessageBlockMeta}
    (h : lastMeta messages which = some msg) : msg ∈ metas messages ∧ which msg := by
  rw [← List.mem_filter]
  exact List.mem_of_getLast? h

/-- The blockhash of a block meta is that of a last one. -/
theorem lastMeta_of_mem {msg : MessageBlockMeta} (h : msg ∈ metas messages) :
    ∃ last, lastMeta messages (fun m => m.blockhash = msg.blockhash) = some last := by
  have hmem : msg ∈ (metas messages).filter fun m => m.blockhash = msg.blockhash :=
    List.mem_filter.mpr ⟨h, decide_eq_true rfl⟩
  exact ⟨_, List.getLast?_eq_some_getLast (List.ne_nil_of_mem hmem)⟩

/-- A finalized status that finds its block forgets the block's own blockhash. -/
theorem finalize_forgets (hdistinct : Distinct messages) {msg : MessageSlot}
    (hf : msg.commitment = .finalized) (hr : Received messages msg.slot) :
    ¬ValidAnswers (messages ++ [.slot msg]) := by
  intro hvalid
  have hrun : run (messages ++ [.slot msg]) = (run messages).finalize msg.slot := by
    rw [run_concat, process, if_neg (by rw [hf]; decide), if_pos hf]
  obtain ⟨received, hreceived, -, -, hheight⟩ := entry_isOf (entry_processed_iff.mpr hr)
  have hmem := (lastMeta_mem hreceived).1
  obtain ⟨last, hlast⟩ := lastMeta_of_mem hmem
  obtain ⟨hlastmem, hsame⟩ := lastMeta_mem hlast
  have hheights := hdistinct last hlastmem received hmem (of_decide_eq_true hsame)
  have hblock := finalize_getBlock (run messages) msg.slot
  rw [← hrun] at hblock
  have hlast' : lastMeta (messages ++ [.slot msg])
      (fun m => m.blockhash = received.blockhash) = some last := by
    rw [lastMeta_concat]
    exact hlast
  have hanswer := hvalid .finalized _ hblock received.blockhash last hlast' (by
    rw [hheights, hheight]
    exact Nat.lt_add_of_pos_right (by decide))
  rw [hrun] at hanswer
  exact finalized_none_valid (run messages) msg.slot _ received.blockhash hanswer

/-- Where the messages are in order, every blockhash belongs to one height and no height
is within the age of the largest, blockhashes stay valid for their age exactly if nothing
is ever finalized. -/
theorem survives_iff_none_finalized (h : Ordered messages) (hdistinct : Distinct messages)
    (hheights : ∀ msg ∈ metas messages, msg.blockHeight.getD 0 + maxProcessingAge < 2 ^ 64) :
    Survives messages ↔ statusSlots .finalized messages = [] := by
  constructor
  · intro hs
    by_contra hsome
    obtain ⟨slot, hslot⟩ := List.exists_mem_of_ne_nil _ hsome
    obtain ⟨message, hmessage, he⟩ := List.mem_filterMap.mp hslot
    obtain ⟨before, after, rfl⟩ := List.mem_iff_append.mp hmessage
    cases message with
    | slot msg =>
      obtain ⟨hf, -⟩ := Option.ite_none_right_eq_some.mp he
      have hp : before ++ [.slot msg] <+: before ++ .slot msg :: after :=
        ⟨after, by rw [List.append_assoc]; rfl⟩
      have hmetas : metas before <+: metas (before ++ .slot msg :: after) :=
        (List.prefix_append _ _).filterMap _
      have hearlier : Distinct before := fun m hm m' hm' =>
        hdistinct m (hmetas.subset hm) m' (hmetas.subset hm')
      exact finalize_forgets hearlier hf (h.received hp hf) (hs.answers _ hp)
    | _ => cases he
  · intro hnone
    refine survives_of_harmless fun before message hp => ?_
    have hmem : message ∈ messages := hp.subset (List.mem_append_right _ List.mem_cons_self)
    cases message with
    | slot msg =>
      intro hf
      have hslot : msg.slot ∈ statusSlots .finalized messages :=
        List.mem_filterMap.mpr ⟨.slot msg, hmem, if_pos hf⟩
      rw [hnone] at hslot
      cases hslot
    | blockMeta msg => exact hheights msg (List.mem_filterMap.mpr ⟨.blockMeta msg, hmem, rfl⟩)
    | _ => trivial

/-- Every status that settles a slot finds its block meta received. -/
def StatusesFollow (messages : List ParsedMessage) : Prop :=
  ∀ before msg, before ++ [.slot msg] <+: messages → Settles msg → Received before msg.slot

theorem entry_of_lookup {w : Work} {slot : Slot} {block : BlockMeta}
    (h : w.blocks.lookup slot = some block) : w.entry slot = block := by
  rw [entry, h]
  rfl

/-- While the statuses follow the block metas, every entry is filled. -/
theorem blocks_processed (h : StatusesFollow messages) {slot : Slot} {block : BlockMeta}
    (hb : (run messages).blocks.lookup slot = some block) : block.processed := by
  induction messages using List.reverseRecOn generalizing slot block with
  | nil => cases hb
  | append_singleton messages message ih =>
    have hrest : StatusesFollow messages := fun before msg hp =>
      h before msg (hp.trans (List.prefix_append _ _))
    rw [run_concat] at hb
    cases message with
    | slot status =>
      have hfilled : Settles status → ((run messages).entry status.slot).processed := fun hs =>
        entry_processed_iff.mpr (h messages status (List.prefix_refl _) hs)
      rw [process] at hb
      by_cases hc : status.commitment = .confirmed
      · rw [if_pos hc, confirm_blocks] at hb
        split at hb
        · cases hb
          exact hfilled (.inl hc)
        · exact ih hrest hb
      · rw [if_neg hc] at hb
        split at hb
        · rename_i hf
          rw [finalize_blocks] at hb
          split at hb
          · cases hb
            exact hfilled (.inr hf)
          · exact ih hrest (Option.filter_eq_some_iff.mp hb).1
        · exact ih hrest hb
    | blockMeta msg =>
      rw [process, receive_blocks] at hb
      split at hb
      · cases hb
        rfl
      · exact ih hrest hb
    | _ => exact ih hrest hb

theorem realBlock_of_follow (h : StatusesFollow messages) {commitment : CommitmentLevel}
    {block : BlockMeta} (hb : (run messages).getBlock commitment = some block) :
    RealBlock messages commitment block := by
  obtain ⟨slot, hslot, hlookup⟩ := Option.bind_eq_some_iff.mp hb
  have hp := blocks_processed h hlookup
  have hentry := entry_of_lookup hlookup
  have hfilled : ((run messages).entry slot).processed := hentry ▸ hp
  obtain ⟨msg, hmsg, hof⟩ := entry_isOf hfilled
  exact ⟨slot, msg, hslot, hmsg, hp, hentry ▸ hof⟩

theorem getBlock_of_valid {w : Work} {blockhash : String} {commitment : CommitmentLevel}
    {valid : Bool} {slot : Slot}
    (h : w.isBlockhashValid blockhash commitment = some (valid, slot)) :
    ∃ block, w.getBlock commitment = some block ∧ block.slot = slot := by
  rw [isBlockhashValid] at h
  split at h
  · rename_i block status hb _
    rw [Option.some.injEq, Prod.mk.injEq] at h
    exact ⟨block, hb, h.2⟩
  · cases h

theorem realAnswers_of_follow (h : StatusesFollow messages) : RealAnswers messages := by
  refine fun commitment => ⟨fun block hb => realBlock_of_follow h hb,
    fun blockhash valid slot hv => ?_⟩
  obtain ⟨block, hb, hs⟩ := getBlock_of_valid hv
  exact ⟨block, realBlock_of_follow h hb, hs⟩

/-- A status that settles a slot makes the entry of that slot the answer at its
level, filled or not. -/
theorem settled_getBlock (w : Work) {msg : MessageSlot} (h : Settles msg) :
    ∃ block, (w.process (.slot msg)).getBlock msg.commitment = some block ∧
      block.processed = (w.entry msg.slot).processed := by
  rw [process]
  rcases h with hc | hf
  · rw [if_pos hc, hc]
    have hb := confirm_blocks w msg.slot msg.slot
    rw [if_pos rfl] at hb
    exact ⟨_, hb, rfl⟩
  · have hne : msg.commitment ≠ .confirmed := by
      rw [hf]
      decide
    rw [if_neg hne, if_pos hf, hf]
    exact ⟨_, finalize_getBlock w msg.slot, rfl⟩

/-- Blocks answered are blocks received, all along a run, exactly if every
confirmed or finalized status finds the block meta of its slot received and not
cleaned up. -/
theorem realAnswers_iff (messages : List ParsedMessage) :
    (∀ before, before <+: messages → RealAnswers before) ↔ StatusesFollow messages := by
  constructor
  · intro hall before msg hp hs
    obtain ⟨block, hb, hprocessed⟩ := settled_getBlock (run before) hs
    rw [← run_concat] at hb
    obtain ⟨-, -, -, -, hreal, -⟩ := (hall _ hp msg.commitment).1 block hb
    rw [hprocessed] at hreal
    exact entry_processed_iff.mp hreal
  · intro h before hp
    exact realAnswers_of_follow fun earlier msg hp' => h earlier msg (hp'.trans hp)

/-- A status before the block meta: the block answered is the default one. -/
theorem early_status_answers_default :
    ¬∀ messages before, before <+: messages → RealAnswers before := by
  intro hall
  have h := hall [statusOf 7 .confirmed] _ (List.prefix_refl _) .confirmed
  obtain ⟨-, -, -, -, hreal, -⟩ := h.1 ⟨0, "", 0, false, true, false⟩ (by decide +kernel)
  cases hreal

-- ════════════════════════════════════════════════════════════════════════
-- Slots
-- ════════════════════════════════════════════════════════════════════════

/-- At every level, the slot answered from never goes back along a run. -/
def NeverBack (messages : List ParsedMessage) : Prop :=
  ∀ before after, before <+: after → after <+: messages → ∀ commitment slot slot',
    (run before).slotOf commitment = some slot → (run after).slotOf commitment = some slot' →
      slot ≤ slot'

/-- The statuses of a level come in the order of their slots. -/
def Rising (level : CommitmentLevel) (messages : List ParsedMessage) : Prop :=
  (statusSlots level messages).Pairwise (· ≤ ·)

theorem statusSlots_concat (level : CommitmentLevel) :
    statusSlots level (messages ++ [message]) =
      statusSlots level messages ++ match message with
        | .slot msg => if msg.commitment = level then [msg.slot] else []
        | _ => [] := by
  cases message with
  | slot msg =>
    by_cases hl : msg.commitment = level <;> simp [statusSlots, hl]
  | _ => simp [statusSlots]

/-- The confirmed and finalized slots are those of the last statuses. -/
theorem slotOf_last (messages : List ParsedMessage) :
    (run messages).confirmed = (statusSlots .confirmed messages).getLastD 0 ∧
    (run messages).finalized = (statusSlots .finalized messages).getLastD 0 := by
  induction messages using List.reverseRecOn with
  | nil => exact ⟨rfl, rfl⟩
  | append_singleton messages message ih =>
    rw [run_concat, statusSlots_concat, statusSlots_concat]
    cases message with
    | slot msg =>
      rw [process]
      by_cases hc : msg.commitment = .confirmed
      · simp [hc, confirm, put, ih.2]
      · by_cases hf : msg.commitment = .finalized
        · simp [hf, finalize, cleanup, put, ih.1]
        · simp [hc, hf, ih]
    | _ => simpa [process, receive, put] using ih

/-- No slot answered from is higher. -/
structure Behind (w w' : Work) : Prop where
  processed : w.processed ≤ w'.processed
  confirmed : w.confirmed ≤ w'.confirmed
  finalized : w.finalized ≤ w'.finalized

theorem Behind.refl (w : Work) : Behind w w := ⟨le_rfl, le_rfl, le_rfl⟩

theorem Behind.trans {w w' w'' : Work} (h : Behind w w') (h' : Behind w' w'') : Behind w w'' :=
  ⟨h.processed.trans h'.processed, h.confirmed.trans h'.confirmed,
    h.finalized.trans h'.finalized⟩

theorem behind_iff {w w' : Work} : Behind w w' ↔ ∀ commitment slot slot',
    w.slotOf commitment = some slot → w'.slotOf commitment = some slot' → slot ≤ slot' := by
  constructor
  · intro h commitment slot slot' hs hs'
    cases commitment with
    | processed => cases hs; cases hs'; exact h.processed
    | confirmed => cases hs; cases hs'; exact h.confirmed
    | finalized => cases hs; cases hs'; exact h.finalized
    | _ => cases hs
  · intro h
    exact ⟨h .processed _ _ rfl rfl, h .confirmed _ _ rfl rfl, h .finalized _ _ rfl rfl⟩

/-- Only a status can take a slot back, to its own slot. -/
theorem behind_process_iff (w : Work) (message : ParsedMessage) :
    Behind w (w.process message) ↔ ∀ msg, message = .slot msg →
      (msg.commitment = .confirmed → w.confirmed ≤ msg.slot) ∧
        (msg.commitment = .finalized → w.finalized ≤ msg.slot) := by
  cases message with
  | slot msg =>
    rw [process]
    by_cases hc : msg.commitment = .confirmed
    · rw [if_pos hc]
      constructor
      · rintro h _ ⟨⟩
        exact ⟨fun _ => h.confirmed, fun hf => by rw [hc] at hf; cases hf⟩
      · intro h
        exact ⟨le_rfl, (h msg rfl).1 hc, le_rfl⟩
    · rw [if_neg hc]
      by_cases hf : msg.commitment = .finalized
      · rw [if_pos hf]
        constructor
        · rintro h _ ⟨⟩
          exact ⟨fun hc' => absurd hc' hc, fun _ => h.finalized⟩
        · intro h
          exact ⟨le_rfl, le_rfl, (h msg rfl).2 hf⟩
      · rw [if_neg hf]
        constructor
        · rintro - _ ⟨⟩
          exact ⟨fun hc' => absurd hc' hc, fun hf' => absurd hf' hf⟩
        · exact fun _ => .refl w
  | blockMeta msg =>
    constructor
    · rintro - _ ⟨⟩
    · exact fun _ => ⟨le_max_left _ _, le_rfl, le_rfl⟩
  | _ =>
    constructor
    · rintro - _ ⟨⟩
    · exact fun _ => .refl w

/-- In a list in order, all are at most a bound if the last is. -/
theorem forall_le_iff_last {slots : List Slot} (h : slots.Pairwise (· ≤ ·)) (bound : Slot) :
    (∀ s ∈ slots, s ≤ bound) ↔ slots.getLastD 0 ≤ bound := by
  rcases List.eq_nil_or_concat slots with rfl | ⟨init, last, rfl⟩
  · simp
  · rw [List.concat_eq_append, List.pairwise_append] at h
    rw [List.concat_eq_append, List.getLastD_concat]
    constructor
    · exact fun hall => hall last (by simp)
    · intro hle s hs
      rcases List.mem_append.mp hs with hs | hs
      · exact (h.2.2 s hs last List.mem_cons_self).trans hle
      · rw [List.mem_singleton.mp hs]
        exact hle

theorem rising_concat {level : CommitmentLevel} : Rising level (messages ++ [message]) ↔
    Rising level messages ∧ ∀ msg, message = .slot msg → msg.commitment = level →
      (statusSlots level messages).getLastD 0 ≤ msg.slot := by
  rw [Rising, statusSlots_concat]
  cases message with
  | slot msg =>
    by_cases hl : msg.commitment = level
    · simp only [if_pos hl, List.pairwise_append, List.pairwise_singleton, true_and,
        List.mem_singleton, forall_eq]
      refine and_congr_right fun hr => ?_
      rw [forall_le_iff_last hr]
      constructor
      · rintro h _ ⟨⟩ -
        exact h
      · exact fun h => h msg rfl hl
    · simp only [if_neg hl, List.append_nil]
      refine ⟨fun hr => ⟨hr, ?_⟩, fun h => h.1⟩
      rintro _ ⟨⟩ hl'
      exact absurd hl' hl
  | _ => simp [Rising]

/-- The slots answered from never go back exactly if the confirmed statuses come
in the order of their slots, and so do the finalized ones. -/
theorem neverBack_iff (messages : List ParsedMessage) :
    NeverBack messages ↔ Rising .confirmed messages ∧ Rising .finalized messages := by
  have hbehind : ∀ ms, NeverBack ms ↔ ∀ before after, before <+: after → after <+: ms →
      Behind (run before) (run after) := fun ms => by
    simp only [NeverBack, behind_iff]
  rw [hbehind]
  induction messages using List.reverseRecOn with
  | nil =>
    refine ⟨fun _ => ⟨List.Pairwise.nil, List.Pairwise.nil⟩, fun _ before after hp hq => ?_⟩
    rw [List.prefix_nil.mp hq] at hp ⊢
    rw [List.prefix_nil.mp hp]
    exact .refl _
  | append_singleton messages message ih =>
    obtain ⟨hconf, hfin⟩ := slotOf_last messages
    have hstep := behind_process_iff (run messages) message
    rw [hconf, hfin, ← run_concat] at hstep
    constructor
    · intro h
      obtain ⟨hc, hf⟩ := ih.mp fun before after hp hq =>
        h before after hp (hq.trans (List.prefix_append _ _))
      have hlast := hstep.mp (h _ _ (List.prefix_append _ _) (List.prefix_refl _))
      exact ⟨rising_concat.mpr ⟨hc, fun msg hm => (hlast msg hm).1⟩,
        rising_concat.mpr ⟨hf, fun msg hm => (hlast msg hm).2⟩⟩
    · rintro ⟨hc, hf⟩ before after hp hq
      rw [rising_concat] at hc hf
      have hold := ih.mpr ⟨hc.1, hf.1⟩
      have hlast := hstep.mpr fun msg hm => ⟨hc.2 msg hm, hf.2 msg hm⟩
      rcases List.prefix_concat_iff.mp hq with rfl | hq
      · rcases List.prefix_concat_iff.mp hp with rfl | hp
        · exact .refl _
        · exact (hold before messages hp (List.prefix_refl _)).trans hlast
      · exact hold before after hp hq

/-- A confirmed status of a lower slot takes the slot back. -/
theorem lower_status_goes_back : ¬∀ messages, NeverBack messages := by
  intro hall
  have h := hall [statusOf 8 .confirmed, statusOf 7 .confirmed] [statusOf 8 .confirmed] _
    (List.prefix_append _ _) (List.prefix_refl _) .confirmed 8 7 (by decide +kernel)
    (by decide +kernel)
  exact absurd h (by decide)

end Dragonmouth.Grpc
