import Dragonmouth.Plugin.ChannelLoops

/-!
# Pushing messages

What `push_msg` and `push` do to the channel, for every outcome. A push that
panics leaves cells, head, tail and bytes in agreement with the log: the
messages it has already stored are in the log, the one at which it panicked is
not.

## Main definitions

- `Shared.Inv`: the invariant between calls that have not panicked
- `Shared.Progress`: a push of some messages and all it may change
-/

namespace Dragonmouth.Plugin

open RingLog

/-- A message as it is stored. -/
def ProtobufMessage.stored (message : ProtobufMessage) (data : Bytes) : Stored :=
  (message.getSlot, message.getPluginNotification, data)

/-- The message a write stores, with its position. -/
def CellWrite.toStore : CellWrite → Option (Stored × ℕ)
  | take _ => none
  | store pos slot data => some ((slot, data), pos)

namespace Shared

variable {sh sh' sh₁ sh₂ sh₃ : Shared} {log new new' : List Stored} {x : Stored} {pending : ℕ}

/-- The invariant between calls: nothing is pending, the limits are kept and
every indexed slot points at one of its retained messages. -/
structure Inv (sh : Shared) (log : List Stored) : Prop where
  core : sh.Core log 0
  index : sh.Indexed sh.state.tail log
  slots : sh.state.slots.len ≤ sh.state.slotsMax
  bytes : sh.state.bytesTotal ≤ sh.state.bytesMax

theorem Inv.sound (h : sh.Inv log) : sh.Sound log 0 := by
  refine ⟨h.core, fun s p hp => ?_⟩
  obtain ⟨hle, hlt, -⟩ := h.index s p hp
  exact ⟨h.core.window.base_le.trans hle, hlt.le⟩

/-- From `sh` to `sh'` exactly the messages `new` have been stored, at the
positions from the tail on; besides, messages may have been taken out. -/
structure Progress (sh sh' : Shared) (new : List Stored) : Prop where
  mask : sh'.mask = sh.mask
  slotsMax : sh'.state.slotsMax = sh.state.slotsMax
  bytesMax : sh'.state.bytesMax = sh.state.bytesMax
  wakers : sh'.state.wakers = sh.state.wakers
  tail : sh'.state.tail = sh.state.tail + new.length
  writes : ∃ ws, sh'.writes = sh.writes ++ ws ∧
    sh'.buffer = ws.foldl (writeItem sh.mask) sh.buffer ∧
    ws.filterMap CellWrite.toStore = new.zipIdx sh.state.tail

theorem Progress.refl (sh : Shared) : Progress sh sh [] :=
  ⟨rfl, rfl, rfl, rfl, rfl, [], by simp, rfl, rfl⟩

theorem Progress.trans (h : Progress sh₁ sh₂ new) (h' : Progress sh₂ sh₃ new') :
    Progress sh₁ sh₃ (new ++ new') := by
  obtain ⟨ws, hws, hbuf, hst⟩ := h.writes
  obtain ⟨ws', hws', hbuf', hst'⟩ := h'.writes
  refine ⟨h'.mask.trans h.mask, h'.slotsMax.trans h.slotsMax, h'.bytesMax.trans h.bytesMax,
    h'.wakers.trans h.wakers, ?_, ws ++ ws', ?_, ?_, ?_⟩
  · rw [h'.tail, h.tail, List.length_append, Nat.add_assoc]
  · rw [hws', hws, List.append_assoc]
  · rw [hbuf', hbuf, h.mask, List.foldl_append]
  · rw [List.filterMap_append, hst, hst', h.tail, List.zipIdx_append]

theorem Evicts.progress (h : Evicts sh sh') : Progress sh sh' [] := by
  obtain ⟨ps, hps, hbuf⟩ := h.writes
  refine ⟨h.mask, h.slotsMax, h.bytesMax, h.wakers, h.tail, _, hps, hbuf, ?_⟩
  rw [List.filterMap_map, List.zipIdx_nil, List.filterMap_eq_nil_iff]
  exact fun _ _ => rfl

-- ════════════════════════════════════════════════════════════════════════
-- Storing a message
-- ════════════════════════════════════════════════════════════════════════

theorem cells_store (sh : Shared) (p : ℕ) (x : Stored) :
    (sh.write (.store p x.1 x.2)).cells = Function.update sh.cells (sh.getIdx p) ⟨p, some x⟩ :=
  cells_write sh (.store p x.1 x.2)

/-- The channel after the tail has been moved past the new message. -/
def tailMoved (sh : Shared) : Shared :=
  { sh with state := { sh.state with tail := sh.state.tail + 1 } }

/-- Storing into a free cell. -/
theorem storeItem_free (hnone : (sh.buffer (sh.getIdx sh.state.tail)).data = none) (x : Stored) :
    sh.tailMoved.storeItem sh.state.tail x.1 x.2 =
      .ok (sh.tailMoved.write (.store sh.state.tail x.1 x.2)) := by
  have hdata : (sh.tailMoved.buffer (sh.tailMoved.getIdx sh.state.tail)).data = none := hnone
  simp only [storeItem, hdata]
  rfl

/-- The channel after the message `y` at `head` has been overwritten by `x`. -/
def overwritten (sh : Shared) (y x : Stored) : Shared :=
  let sh' := sh.tailMoved.advanceHead (fun itemSlot slots => removeSlots slots none itemSlot) y.1
  { sh' with state := { sh'.state with bytesTotal := sh'.state.bytesTotal - y.size } }.write
    (.store sh.state.tail x.1 x.2)

/-- Storing into a cell that still holds a message. -/
theorem storeItem_full {y : Stored} (hslot : (sh.buffer (sh.getIdx sh.state.tail)).slot = y.1)
    (hdata : (sh.buffer (sh.getIdx sh.state.tail)).data = some y.2)
    (hle : y.size ≤ sh.state.bytesTotal) (x : Stored) :
    sh.tailMoved.storeItem sh.state.tail x.1 x.2 = .ok (sh.overwritten y x) := by
  have hslot' : (sh.tailMoved.buffer (sh.tailMoved.getIdx sh.state.tail)).slot = y.1 := hslot
  have hdata' : (sh.tailMoved.buffer (sh.tailMoved.getIdx sh.state.tail)).data = some y.2 := hdata
  have hle' : y.2.2.length ≤ (sh.tailMoved.advanceHead
    (fun itemSlot slots => removeSlots slots none itemSlot) y.1).state.bytesTotal := hle
  simp only [storeItem, hdata', hslot', subBytes_of_le hle']
  rfl

/-- Storing succeeds; it overwrites the oldest message if the ring is full. -/
theorem storeItem_core (h : sh.Core log (x.size + pending)) :
    ∃ sh', sh.tailMoved.storeItem sh.state.tail x.1 x.2 = .ok sh' ∧
      sh'.Core (log ++ [x]) pending ∧ Progress sh sh' [x] ∧
      sh'.state.slots.Sub sh.state.slots ∧ sh'.state.bytesTotal ≤ sh.state.bytesTotal ∧
      (sh.Indexed (sh.state.tail + 1) (log ++ [x]) → sh'.Indexed sh'.state.tail (log ++ [x])) := by
  have hw := h.window
  have hbase := hw.base_le
  have hhead := hw.head_le
  have htail := hw.tail_eq
  have hN : 0 < sh.ringSize := Nat.succ_pos _
  have hget := h.getIdx sh.state.tail
  rcases Nat.lt_or_eq_of_le hw.tail_le with hlt | hfull
  · have hnone : (sh.buffer (sh.getIdx sh.state.tail)).data = none := by
      have hv := hw.next_free hlt
      rw [← hget, cells, Item.cell] at hv
      exact Option.map_eq_none_iff.mp hv
    have hstore := hw.store x le_rfl hhead hlt (fun p hp hp' => by omega)
    rw [← hget, ← cells_store] at hstore
    refine ⟨_, storeItem_free hnone x, ⟨h.mask, hstore, ?_⟩,
      ⟨rfl, rfl, rfl, rfl, rfl, _, rfl, rfl, rfl⟩, .refl _, le_rfl, id⟩
    change sh.state.bytesTotal =
      pending + weightFrom Stored.size (log ++ [x]) (sh.state.head - sh.ringSize)
    rw [h.bytes, weightFrom_append _ _ (by omega)]
    omega
  · obtain ⟨y, hy, hcell⟩ := hw.next_full hN hfull
    rw [← hget, cells, Item.cell, Cell.mk.injEq, Option.map_eq_some_iff] at hcell
    obtain ⟨-, d, hd, hyd⟩ := hcell
    have hbytes := h.bytes
    rw [weightFrom_eq_add hy] at hbytes
    have hstore := hw.store x (Nat.le_succ _) (by omega) (by omega) (fun p hp hp' => by omega)
    rw [← hget, ← cells_store] at hstore
    have hfirst : (log ++ [x])[sh.state.head - sh.ringSize]? = some y := by
      rw [List.getElem?_append_left (List.getElem?_eq_some_iff.mp hy).1, hy]
    have hsub := removeSlots_sub sh.state.slots none y.1
    have hkey : y.1 ∉ removeSlots sh.state.slots none y.1 := by
      rw [← Finmap.lookup_eq_none, removeSlots_none_lookup, if_pos le_rfl]
    refine ⟨_, storeItem_full (by rw [← hyd]) (by rw [hd, ← hyd]) (by omega) x,
      ⟨h.mask, hstore, ?_⟩, ⟨rfl, rfl, rfl, rfl, rfl, _, rfl, rfl, rfl⟩, hsub, Nat.sub_le _ _,
      fun hi => hi.evict hfirst (fun _ _ hs => headOf_sub hsub hs) (headOf_eq_none.mpr hkey)⟩
    change sh.state.bytesTotal - y.size =
      pending + weightFrom Stored.size (log ++ [x]) (sh.state.head + 1 - sh.ringSize)
    rw [hbytes, weightFrom_append _ _ (by omega),
      show sh.state.head + 1 - sh.ringSize = sh.state.head - sh.ringSize + 1 by omega]
    omega

theorem storeItem_spec (h : sh.Sound log (x.size + pending)) :
    ∃ sh', sh.tailMoved.storeItem sh.state.tail x.1 x.2 = .ok sh' ∧
      sh'.Sound (log ++ [x]) pending ∧ Progress sh sh' [x] ∧
      sh'.state.slots.Sub sh.state.slots ∧ sh'.state.bytesTotal ≤ sh.state.bytesTotal ∧
      (sh.Indexed (sh.state.tail + 1) (log ++ [x]) → sh'.Indexed sh'.state.tail (log ++ [x])) := by
  obtain ⟨sh', hok, hcore, hp, hsub, hrest⟩ := storeItem_core h.core
  refine ⟨sh', hok, ⟨hcore, fun s p hs => ?_⟩, hp, hsub, hrest⟩
  obtain ⟨hle, hle'⟩ := h.heads s p (headOf_sub hsub hs)
  rw [ringSize, hp.mask, hp.tail]
  exact ⟨hle, hle'.trans (Nat.le_add_right _ _)⟩

-- ════════════════════════════════════════════════════════════════════════
-- One message
-- ════════════════════════════════════════════════════════════════════════

/-- Updating the slot info adds at most an entry that points at the tail. -/
theorem headOf_updateSlot (sh : Shared) (message : ProtobufMessage) (s : Slot) :
    headOf (sh.updateSlot sh.state.tail message).state.slots s =
      if s = message.getSlot then
        some ((headOf sh.state.slots s).getD sh.state.tail)
      else headOf sh.state.slots s := by
  have hhead : ∀ entry : SlotInfo, (entry.update message).head = entry.head := by
    intro entry
    cases message with
    | slot slot parent status => cases parent <;> simp only [SlotInfo.update] <;> split_ifs <;> rfl
    | _ => rfl
  rw [headOf, updateSlot]
  simp only [Finmap.lookup_insert_eq]
  split
  · rename_i hs
    subst s
    rw [Option.map_some, hhead, headOf]
    cases sh.state.slots.lookup message.getSlot <;> rfl
  · rfl

theorem updateSlot_progress (sh : Shared) (message : ProtobufMessage) :
    Progress sh (sh.updateSlot sh.state.tail message) [] :=
  ⟨rfl, rfl, rfl, rfl, rfl, [], (List.append_nil _).symm, rfl, rfl⟩

theorem Sound.updateSlot (h : sh.Sound log pending) (message : ProtobufMessage) :
    (sh.updateSlot sh.state.tail message).Sound log pending := by
  have hbase := h.core.window.base_le.trans h.core.window.head_le
  refine ⟨⟨h.core.mask, h.core.window, h.core.bytes⟩, fun s p hp => ?_⟩
  rw [headOf_updateSlot] at hp
  split at hp
  · cases hs : headOf sh.state.slots s with
    | none =>
      rw [hs, Option.getD_none] at hp
      rw [← Option.some.inj hp]
      exact ⟨hbase, le_rfl⟩
    | some q =>
      rw [hs, Option.getD_some] at hp
      rw [← Option.some.inj hp]
      exact h.heads s q hs
  · exact h.heads s p hp

/-- The index of the slots may already point at the message to be stored. -/
theorem Inv.updateSlot (h : sh.Inv log) (message : ProtobufMessage) (data : Bytes) :
    (sh.updateSlot sh.state.tail message).Pushing log (message.stored data) 0 := by
  refine ⟨(h.sound.updateSlot message).core, ?_⟩
  have hw := h.core.window
  have happ := h.index.append (message.stored data) hw.base_le hw.tail_eq
  intro s p hp
  rw [headOf_updateSlot] at hp
  split at hp
  · rename_i hslot
    cases hs : headOf sh.state.slots s with
    | none =>
      rw [hs, Option.getD_none] at hp
      have hlog : sh.state.tail - sh.ringSize = log.length := by
        rw [hw.tail_eq, Nat.add_sub_cancel_left]
      rw [← Option.some.inj hp, hslot]
      exact ⟨hw.head_le, Nat.lt_succ_self _, by
        change (_ : List Stored)[sh.state.tail - sh.ringSize]?.map _ = _
        rw [hlog, List.getElem?_concat_length]
        rfl⟩
    | some q =>
      rw [hs, Option.getD_some] at hp
      rw [← Option.some.inj hp]
      exact happ s q hs
  · exact happ s p hp

theorem len_updateSlot (sh : Shared) (message : ProtobufMessage) :
    (sh.updateSlot sh.state.tail message).state.slots.len =
      if message.getSlot ∈ sh.state.slots then sh.state.slots.len else sh.state.slots.len + 1 := by
  split
  · rename_i hm
    exact Finmap.len_insert_of_mem _ hm
  · rename_i hm
    exact Finmap.len_insert_of_notMem _ hm

/-- The channel after the bytes of a message have been counted. -/
def bytesAdded (sh : Shared) (len : ℕ) : Shared :=
  { sh with state := { sh.state with bytesTotal := sh.state.bytesTotal + len } }

theorem Sound.bytesAdded (h : sh.Sound log pending) (len : ℕ) :
    (sh.bytesAdded len).Sound log (len + pending) := by
  refine ⟨⟨h.core.mask, h.core.window, ?_⟩, h.heads⟩
  change sh.state.bytesTotal + len = _
  rw [h.core.bytes]
  change _ = len + pending + weightFrom Stored.size log (sh.state.head - sh.ringSize)
  omega

theorem bytesAdded_progress (sh : Shared) (len : ℕ) : Progress sh (sh.bytesAdded len) [] :=
  ⟨rfl, rfl, rfl, rfl, rfl, [], (List.append_nil _).symm, rfl, rfl⟩

/-- `push_msg` up to the position of the new message. -/
def makeRoom (sh : Shared) (message : ProtobufMessage) (data : Bytes) : Outcome := do
  let sh := sh.updateSlot sh.state.tail message
  let sh ← dropSlots sh.state.slots.len sh
  dropBytes (sh.state.tail - sh.state.head) (sh.bytesAdded data.length)

theorem pushMsg_eq (sh : Shared) (message : ProtobufMessage) (data : Bytes) :
    sh.pushMsg message data = sh.makeRoom message data >>= fun sh₂ =>
      sh₂.tailMoved.storeItem sh.state.tail (message.stored data).1 (message.stored data).2 := by
  rw [makeRoom, bind_assoc]
  rfl

/-- Making room for a message keeps the limits, or fails at one of two assertions. -/
theorem makeRoom_spec (h : sh.Sound log pending) (message : ProtobufMessage) (data : Bytes) :
    (∃ sh', sh.makeRoom message data = .ok sh' ∧ sh'.Sound log (data.length + pending) ∧
      Progress sh sh' [] ∧ sh'.state.slots.Sub (sh.updateSlot sh.state.tail message).state.slots ∧
      sh'.state.slots.len ≤ sh'.state.slotsMax ∧ sh'.state.bytesTotal ≤ sh'.state.bytesMax ∧
      (sh.Inv log → sh'.Pushing log (message.stored data) data.length)) ∨
    (∃ e pending', sh.makeRoom message data = .error e ∧
      (e.panic = .slotsOverflow2 ∨ e.panic = .bytesOverflow) ∧
      e.shared.Sound log pending' ∧ Progress sh e.shared []) := by
  have hu := h.updateSlot message
  have hup := updateSlot_progress sh message
  rw [makeRoom]
  rcases dropSlots_spec hu le_rfl with ⟨sh₁, hok₁, hev₁, hlen₁⟩ | ⟨sh₁, herr₁, hev₁⟩
  · have hs₁ := (hev₁.sound hu).bytesAdded data.length
    have hp₁ := (hup.trans hev₁.evicts.progress).trans (bytesAdded_progress sh₁ data.length)
    simp only [hok₁]
    rcases dropBytes_spec hs₁.core le_rfl with
      ⟨sh₂, hok₂, hev₂, -, hbytes₂⟩ | ⟨sh₂, herr₂, hev₂, -⟩
    · refine .inl ⟨sh₂, hok₂, hev₂.sound hs₁, hp₁.trans hev₂.evicts.progress,
        hev₂.evicts.slots.trans hev₁.evicts.slots, ?_, hbytes₂, fun hinv => hev₂.pushing ?_⟩
      · rw [hev₂.evicts.slotsMax]
        exact hev₂.evicts.slots.len_le.trans hlen₁
      · have hpush := hev₁.pushing (hinv.updateSlot message data)
        refine ⟨⟨hpush.core.mask, hpush.core.window, ?_⟩, hpush.index⟩
        change sh₁.state.bytesTotal + data.length = _
        rw [hpush.core.bytes, Nat.zero_add, Nat.add_comm]
        rfl
    · exact .inr ⟨_, _, herr₂, .inr rfl, hev₂.sound hs₁, hp₁.trans hev₂.evicts.progress⟩
  · simp only [herr₁]
    exact .inr ⟨_, _, rfl, .inl rfl, hev₁.sound hu, hup.trans hev₁.evicts.progress⟩

/-- Pushing one message stores it, or panics at one of two assertions. -/
theorem pushMsg_spec (h : sh.Sound log pending) (message : ProtobufMessage) (data : Bytes) :
    (∃ sh', sh.pushMsg message data = .ok sh' ∧
      sh'.Sound (log ++ [message.stored data]) pending ∧
      Progress sh sh' [message.stored data] ∧
      sh'.state.slots.Sub (sh.updateSlot sh.state.tail message).state.slots ∧
      (sh.Inv log → sh'.Inv (log ++ [message.stored data]))) ∨
    (∃ e pending', sh.pushMsg message data = .error e ∧
      (e.panic = .slotsOverflow2 ∨ e.panic = .bytesOverflow) ∧
      e.shared.Sound log pending' ∧ Progress sh e.shared []) := by
  rw [pushMsg_eq]
  rcases makeRoom_spec h message data with
    ⟨sh₂, hok₂, hs₂, hp₂, hsub₂, hlen₂, hbytes₂, hinv₂⟩ | ⟨e, pending', herr, hrest⟩
  · obtain ⟨sh', hok', hs', hp', hsub', hbytes', hix'⟩ :=
      storeItem_spec (x := message.stored data) hs₂
    have htail : sh₂.state.tail = sh.state.tail := hp₂.tail
    rw [htail] at hok'
    refine .inl ⟨sh', by rw [hok₂]; exact hok', hs', hp₂.trans hp', hsub'.trans hsub₂,
      fun hinv => ?_⟩
    have hpush := hinv₂ hinv
    have hroom : sh₂.Core log ((message.stored data).size + 0) := hpush.core
    obtain ⟨sh'', hok'', hcore'', -⟩ := storeItem_core hroom
    rw [htail, hok', Except.ok.injEq] at hok''
    subst hok''
    refine ⟨hcore'', hix' hpush.index, ?_, ?_⟩
    · rw [hp'.slotsMax]
      exact hsub'.len_le.trans hlen₂
    · rw [hp'.bytesMax]
      exact hbytes'.trans hbytes₂
  · exact .inr ⟨e, pending', by rw [herr]; rfl, hrest⟩

/-- From a state with the invariant, a message that fits into the byte limit is
pushed exactly if the slot limit is kept or the least slot can be removed. -/
theorem pushMsg_ok_iff (h : sh.Inv log) (message : ProtobufMessage) {data : Bytes}
    (hfit : data.length ≤ sh.state.bytesMax) :
    (∃ sh', sh.pushMsg message data = .ok sh') ↔
      (sh.state.slotsMax < (sh.updateSlot sh.state.tail message).state.slots.len →
        (sh.updateSlot sh.state.tail message).Removable log) := by
  have hu := h.sound.updateSlot message
  have hlen : (sh.updateSlot sh.state.tail message).state.slots.len ≤ sh.state.slotsMax + 1 := by
    have := h.slots
    rw [len_updateSlot]
    split <;> omega
  refine Iff.trans ?_ (dropSlots_ok_iff hu hlen)
  rw [pushMsg_eq, makeRoom]
  rcases dropSlots_spec hu le_rfl with ⟨sh₁, hok₁, hev₁, -⟩ | ⟨sh₁, herr₁, -⟩
  · have hs₁ := (hev₁.sound hu).bytesAdded data.length
    have htail₁ : sh₁.state.tail = sh.state.tail := hev₁.evicts.tail
    have hmax₁ : sh₁.state.bytesMax = sh.state.bytesMax := hev₁.evicts.bytesMax
    rw [hok₁]
    rcases dropBytes_spec hs₁.core le_rfl with ⟨sh₂, hok₂, hev₂, -, -⟩ | ⟨sh₂, -, -, hgt⟩
    · obtain ⟨sh', hok', -⟩ :=
        storeItem_spec (x := message.stored data) (hev₂.sound hs₁)
      have hbytes : dropBytes (sh₁.state.tail - sh₁.state.head) (sh₁.bytesAdded data.length) =
          .ok sh₂ := hok₂
      have htail : sh₂.state.tail = sh.state.tail := hev₂.evicts.tail.trans htail₁
      rw [htail] at hok'
      refine ⟨fun _ => ⟨sh₁, rfl⟩, fun _ => ⟨sh', ?_⟩⟩
      change dropBytes _ (sh₁.bytesAdded data.length) >>= _ = _
      rw [hbytes]
      exact hok'
    · have : sh.state.bytesMax < data.length + 0 := hmax₁ ▸ hgt
      omega
  · rw [herr₁]
    constructor <;> rintro ⟨sh', h'⟩ <;> cases h'

/-- The messages of a batch as they are stored. -/
def storedBatch (encode : ProtobufMessage → Bytes) (messages : List ProtobufMessage) :
    List Stored := messages.map fun message => message.stored (encode message)

/-- A batch is stored in order, up to the message at which a push panics. -/
theorem pushBatch_spec (encode : ProtobufMessage → Bytes) (messages : List ProtobufMessage)
    (h : sh.Sound log pending) :
    (∃ sh', pushBatch encode sh messages = .ok sh' ∧
      sh'.Sound (log ++ storedBatch encode messages) pending ∧
      Progress sh sh' (storedBatch encode messages) ∧
      (sh.Inv log → sh'.Inv (log ++ storedBatch encode messages))) ∨
    (∃ e new pending', pushBatch encode sh messages = .error e ∧
      new <+: storedBatch encode messages ∧
      (e.panic = .slotsOverflow2 ∨ e.panic = .bytesOverflow) ∧
      e.shared.Sound (log ++ new) pending' ∧ Progress sh e.shared new) := by
  induction messages generalizing sh log with
  | nil =>
    rw [storedBatch, List.map_nil, List.append_nil]
    exact .inl ⟨sh, rfl, h, .refl sh, id⟩
  | cons message messages ih =>
    have hcons : storedBatch encode (message :: messages) =
        [message.stored (encode message)] ++ storedBatch encode messages := rfl
    rw [pushBatch, hcons, ← List.append_assoc]
    rcases pushMsg_spec h message (encode message) with
      ⟨sh₁, hok, hs, hp, -, hinv⟩ | ⟨e, pending', herr, hpanic, hs, hp⟩
    · rw [hok]
      rcases ih hs with ⟨sh', hok', hs', hp', hinv'⟩ |
        ⟨e, new, pending', herr, hpre, hpanic, hs', hp'⟩
      · exact .inl ⟨sh', hok', hs', hp.trans hp', fun hi => hinv' (hinv hi)⟩
      · refine .inr ⟨e, _, pending', herr, (List.prefix_append_right_inj _).mpr hpre, hpanic, ?_,
          hp.trans hp'⟩
        rwa [← List.append_assoc]
    · rw [herr]
      refine .inr ⟨e, [], pending', rfl, List.nil_prefix, hpanic, ?_, hp⟩
      rwa [List.append_nil]

/-- The channel after its wakers have been woken. -/
def drained (sh : Shared) : Shared := { sh with state := { sh.state with wakers := [] } }

theorem push_eq (sh : Shared) (encode : ProtobufMessage → Bytes) (message : ProtobufMessage) :
    sh.push encode message = (sh.batch message).map fun messages =>
      (pushBatch encode sh messages).map drained := by
  rw [push]
  congr 1

theorem Inv.drained (h : sh.Inv log) : sh.drained.Inv log :=
  ⟨⟨h.core.mask, h.core.window, h.core.bytes⟩, h.index, h.slots, h.bytes⟩

theorem Sound.drained (h : sh.Sound log pending) : sh.drained.Sound log pending :=
  ⟨⟨h.core.mask, h.core.window, h.core.bytes⟩, h.heads⟩

end Shared

end Dragonmouth.Plugin
