import Dragonmouth.Plugin.ChannelPush

/-!
# What the channel retains

After any run of pushes that have returned, the ring holds exactly the newest
messages, the byte count is their total size, the limits are kept and every
indexed slot points at one of its retained messages.

## Main definitions

- `Reaches`: the runs of pushes from a fresh channel
-/

namespace Dragonmouth.Plugin

open RingLog

/-- A message handed to `push_msg`, with its encoded bytes. -/
abbrev Pushed := ProtobufMessage × Bytes

/-- The channel is reached by pushes that have returned; `pushed` lists the
messages handed to `push_msg`. -/
inductive Reaches (config : ConfigChannel) : List Pushed → Shared → Prop where
  | new : Reaches config [] (Sender.new config)
  | push {pushed : List Pushed} {sh sh' : Shared} {messages : List ProtobufMessage}
      (reaches : Reaches config pushed sh) (encode : ProtobufMessage → Bytes)
      (message : ProtobufMessage) (batch : sh.batch message = some messages)
      (returns : sh.push encode message = some (.ok sh')) :
      Reaches config (pushed ++ messages.map fun m => (m, encode m)) sh'

/-- The messages of a run as they are stored. -/
def storedLog (pushed : List Pushed) : List Stored := pushed.map fun m => m.1.stored m.2

theorem storedLog_append (pushed : List Pushed) (encode : ProtobufMessage → Bytes)
    (messages : List ProtobufMessage) :
    storedLog (pushed ++ messages.map fun m => (m, encode m)) =
      storedLog pushed ++ Shared.storedBatch encode messages := by
  rw [storedLog, List.map_append, List.map_map]
  rfl

/-- The number of cells a configuration asks for. -/
def ConfigChannel.ringSize (config : ConfigChannel) : ℕ := config.maxMessages.nextPowerOfTwo

theorem ConfigChannel.ringSize_eq (config : ConfigChannel) :
    (Sender.new config).ringSize = config.ringSize := by
  have hpos : 0 < config.maxMessages.nextPowerOfTwo := Nat.pos_of_isPowerOfTwo
    (Nat.isPowerOfTwo_nextPowerOfTwo _)
  exact Nat.sub_add_cancel hpos

theorem Shared.Inv.new (config : ConfigChannel) : (Sender.new config).Inv [] := by
  have hsize := config.ringSize_eq
  obtain ⟨k, hk⟩ := Nat.isPowerOfTwo_nextPowerOfTwo config.maxMessages
  refine ⟨⟨⟨k, hsize.trans hk⟩, ?_, ?_⟩, fun s p hp => ?_, Nat.zero_le _, Nat.zero_le _⟩
  · rw [hsize]
    exact .init fun i _ => rfl
  · simp [Sender.new, weightFrom]
  · simp [headOf, Sender.new] at hp

/-- The limits and the ring size never change. -/
structure Shared.Configured (sh : Shared) (config : ConfigChannel) : Prop where
  ringSize : sh.ringSize = config.ringSize
  slotsMax : sh.state.slotsMax = config.maxSlots
  bytesMax : sh.state.bytesMax = config.maxBytes

theorem Shared.Progress.configured {sh sh' : Shared} {new : List Stored} {config : ConfigChannel}
    (h : Progress sh sh' new) (hc : sh.Configured config) : sh'.Configured config := by
  refine ⟨?_, h.slotsMax.trans hc.slotsMax, h.bytesMax.trans hc.bytesMax⟩
  rw [Shared.ringSize, h.mask]
  exact hc.ringSize

/-- A push that returns preserves the invariant of the longer log. -/
theorem Shared.push_inv {sh sh' : Shared} {log : List Stored} {config : ConfigChannel}
    {encode : ProtobufMessage → Bytes} {message : ProtobufMessage}
    {messages : List ProtobufMessage} (h : sh.Inv log) (hc : sh.Configured config)
    (hb : sh.batch message = some messages) (hok : sh.push encode message = some (.ok sh')) :
    sh'.Inv (log ++ storedBatch encode messages) ∧ sh'.Configured config := by
  rw [push_eq, hb, Option.map_some, Option.some.injEq] at hok
  rcases pushBatch_spec encode messages h.sound with ⟨sh₁, hrun, -, hp, hinv⟩ | ⟨e, _, _, hrun, -⟩
  · rw [hrun] at hok
    cases hok
    have hc₁ := hp.configured hc
    exact ⟨(hinv h).drained, hc₁.ringSize, hc₁.slotsMax, hc₁.bytesMax⟩
  · rw [hrun] at hok
    cases hok

theorem Reaches.inv {config : ConfigChannel} {pushed : List Pushed} {sh : Shared}
    (h : Reaches config pushed sh) : sh.Inv (storedLog pushed) ∧ sh.Configured config := by
  induction h with
  | new => exact ⟨.new config, config.ringSize_eq, rfl, rfl⟩
  | push _ encode message hb hok ih =>
    rw [storedLog_append]
    exact Shared.push_inv ih.1 ih.2 hb hok

/-- One call of `Sender::push`; the encoder is the one at the time of the call. -/
structure Call where
  encode : ProtobufMessage → Bytes
  message : ProtobufMessage

/-- Calls of `Sender::push` one after the other, up to a panic or a call that
never returns. -/
def Shared.pushCalls : Shared → List Call → Option Outcome
  | sh, [] => some (.ok sh)
  | sh, call :: calls =>
    match sh.push call.encode call.message with
    | some (.ok sh) => pushCalls sh calls
    | result => result

/-- What is read off the channel after a call that returns. -/
def readOff {α : Type} (f : Shared → α) (result : Option Outcome) : Option α :=
  result.bind fun outcome => outcome.toOption.map f

theorem exists_of_readOff {α : Type} {f : Shared → α} {result : Option Outcome} {a : α}
    (h : readOff f result = some a) : ∃ sh, result = some (.ok sh) ∧ f sh = a := by
  rcases result with _ | _ | sh
  · cases h
  · cases h
  · exact ⟨sh, rfl, Option.some.inj h⟩

/-- Calls that have returned extend the run. -/
theorem Reaches.pushCalls {config : ConfigChannel} {pushed : List Pushed} {sh sh' : Shared}
    {calls : List Call} (h : Reaches config pushed sh)
    (hok : sh.pushCalls calls = some (.ok sh')) : ∃ pushed', Reaches config pushed' sh' := by
  induction calls generalizing sh pushed with
  | nil =>
    cases hok
    exact ⟨pushed, h⟩
  | cons call calls ih =>
    rw [Shared.pushCalls] at hok
    split at hok
    · rename_i sh₁ hpush
      cases hb : sh.batch call.message with
      | none => simp [Shared.push, hb] at hpush
      | some messages => exact ih (h.push call.encode call.message hb hpush) hok
    · rename_i hne
      exact absurd hok (hne sh')

/-- The newest `n` messages. -/
def newest (pushed : List Pushed) (n : ℕ) : List Pushed := pushed.drop (pushed.length - n)

/-- What a channel retains of the messages pushed to it. -/
structure Retained (config : ConfigChannel) (pushed : List Pushed) (sh : Shared) : Prop where
  base_le : config.ringSize ≤ sh.state.head
  head_le : sh.state.head ≤ sh.state.tail
  tail_le : sh.state.tail ≤ sh.state.head + config.ringSize
  count : sh.state.tail - sh.state.head ≤ pushed.length
  /-- The cells from `head` to `tail` hold the newest messages in order. -/
  cell : ∀ p, sh.state.head ≤ p → p < sh.state.tail →
    ∃ m, (newest pushed (sh.state.tail - sh.state.head))[p - sh.state.head]? = some m ∧
      (sh.buffer (sh.getIdx p)).pos = p ∧
      (sh.buffer (sh.getIdx p)).slot = m.1.getSlot ∧
      (sh.buffer (sh.getIdx p)).data = some (m.1.getPluginNotification, m.2)
  /-- Every other cell is empty. -/
  empty : ∀ i < config.ringSize,
    (∀ p, sh.state.head ≤ p → p < sh.state.tail → sh.getIdx p ≠ i) → (sh.buffer i).data = none
  bytes : sh.state.bytesTotal =
    ((newest pushed (sh.state.tail - sh.state.head)).map fun m => m.2.length).sum
  bytes_le : sh.state.bytesTotal ≤ config.maxBytes
  /-- No subtraction from the byte count underflows. -/
  subtracts : ∀ encode message e,
    sh.push encode message = some (.error e) → e.panic ≠ .subtractOverflow
  slots_le : sh.state.slots.len ≤ config.maxSlots
  /-- Every indexed slot points at one of its retained messages. -/
  indexed : ∀ s info, sh.state.slots.lookup s = some info →
    sh.state.head ≤ info.head ∧ info.head < sh.state.tail ∧
      (sh.buffer (sh.getIdx info.head)).pos = info.head ∧
      (sh.buffer (sh.getIdx info.head)).slot = s ∧
      (sh.buffer (sh.getIdx info.head)).data.isSome

section

variable {config : ConfigChannel} {pushed : List Pushed} {sh : Shared}

theorem storedLog_getElem? {pushed : List Pushed} {i : ℕ} {x : Stored}
    (h : (storedLog pushed)[i]? = some x) :
    ∃ m, pushed[i]? = some m ∧ x = m.1.stored m.2 := by
  rw [storedLog, List.getElem?_map, Option.map_eq_some_iff] at h
  obtain ⟨m, hm, rfl⟩ := h
  exact ⟨m, hm, rfl⟩

/-- The retained part of the log consists of the newest messages. -/
theorem Shared.Core.newest_eq (h : sh.Core (storedLog pushed) 0) :
    newest pushed (sh.state.tail - sh.state.head) =
      pushed.drop (sh.state.head - sh.ringSize) := by
  have hb := h.window.base_le
  have hh := h.window.head_le
  have ht := h.window.tail_eq
  rw [storedLog, List.length_map] at ht
  rw [newest, show pushed.length - (sh.state.tail - sh.state.head) =
    sh.state.head - sh.ringSize by omega]

/-- A cell outside the retained positions is empty. -/
theorem Shared.Core.data_eq_none {log : List Stored} {pending i : ℕ} (h : sh.Core log pending)
    (hi : i < sh.ringSize)
    (hout : ∀ p, sh.state.head ≤ p → p < sh.state.tail → sh.getIdx p ≠ i) :
    (sh.buffer i).data = none := by
  cases hd : (sh.buffer i).data with
  | none => rfl
  | some d =>
    have hv : (sh.cells i).val = some ((sh.buffer i).slot, d) := by
      rw [cells, Item.cell, hd]
      rfl
    obtain ⟨p, hp, hp', hmod, -⟩ := h.window.exists_of_val hi hv
    exact absurd ((h.getIdx p).trans hmod) (hout p hp hp')

/-- A push never gives back more bytes than are counted. -/
theorem Shared.Sound.subtracts {log : List Stored} {pending : ℕ} (h : sh.Sound log pending)
    {encode : ProtobufMessage → Bytes} {message : ProtobufMessage} {e : Panicked}
    (he : sh.push encode message = some (.error e)) :
    e.panic = .slotsOverflow2 ∨ e.panic = .bytesOverflow := by
  rw [push_eq, Option.map_eq_some_iff] at he
  obtain ⟨messages, -, hrun⟩ := he
  rcases pushBatch_spec encode messages h with
    ⟨sh₁, hok, -⟩ | ⟨e', new, pending', herr, -, hpanic, -⟩
  · rw [hok] at hrun
    cases hrun
  · rw [herr] at hrun
    cases hrun
    exact hpanic

/-- After every run of pushes the channel retains the newest messages. -/
theorem reaches_retained (h : Reaches config pushed sh) : Retained config pushed sh := by
  obtain ⟨hinv, hc⟩ := h.inv
  have hcore := hinv.core
  have hw := hcore.window
  have hsize := hc.ringSize
  have hbase := hw.base_le
  have htail := hw.tail_eq
  have hhead := hw.head_le
  rw [storedLog, List.length_map] at htail
  refine
    { base_le := hsize ▸ hbase
      head_le := hhead
      tail_le := hsize ▸ hw.tail_le
      count := by omega
      cell := fun p hp hp' => ?_
      empty := fun i hi hout => hcore.data_eq_none (hsize ▸ hi) hout
      bytes := ?_
      bytes_le := hc.bytesMax ▸ hinv.bytes
      subtracts := fun encode message e he => ?_
      slots_le := hc.slotsMax ▸ hinv.slots
      indexed := fun s info hs => ?_ }
  · obtain ⟨x, hx, hpos, hslot, hdata⟩ := hcore.item hp hp'
    obtain ⟨m, hm, rfl⟩ := storedLog_getElem? hx
    refine ⟨m, ?_, hpos, hslot, hdata⟩
    rw [hcore.newest_eq, List.getElem?_drop, ← hm]
    congr 1
    omega
  · rw [hcore.bytes, hcore.newest_eq, Nat.zero_add, weightFrom, storedLog, ← List.map_drop,
      List.map_map]
    rfl
  · intro hpanic
    rcases hinv.sound.subtracts he with hp | hp <;> rw [hpanic] at hp <;> cases hp
  · obtain ⟨hle, hlt, hkey⟩ := hinv.index s info.head (by rw [headOf, hs]; rfl)
    obtain ⟨x, hx, hpos, hslot, hdata⟩ := hcore.item hle hlt
    rw [hx, Option.map_some, Option.some.injEq] at hkey
    exact ⟨hle, hlt, hpos, hslot.trans hkey, by rw [hdata]; rfl⟩

end

/-- Six messages of three slots in a ring of four cells. -/
theorem reaches_retained_six : ∃ pushed sh,
    Reaches ⟨4, 2, 10⟩ pushed sh ∧ sh.state.tail = 10 ∧ Retained ⟨4, 2, 10⟩ pushed sh := by
  have hrun : readOff (fun sh => sh.state.tail) ((Sender.new ⟨4, 2, 10⟩).pushCalls
      ([7, 7, 8, 7, 9, 9].map fun slot => ⟨fun _ => [1, 2], .slot slot none .processed⟩)) =
      some 10 := by
    decide +kernel
  obtain ⟨sh, hok, htail⟩ := exists_of_readOff hrun
  obtain ⟨pushed, hreach⟩ := Reaches.new.pushCalls hok
  exact ⟨pushed, sh, hreach, htail, reaches_retained hreach⟩

end Dragonmouth.Plugin
