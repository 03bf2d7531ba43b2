import Dragonmouth.Filters.Encode

/-!
# Parsing and encoding again

A message parsed from an update and encoded without restrictions gives the update
back, with the names of the subscriber's filters in place of its own. The parser
takes each kind apart and `FilteredUpdate::encode` rebuilds it; the outer message
is written by hand as the generated code would write it.

## Main results

- `SubscribeUpdateMessage.encodeToVec_eq`: the outer message
- `message_of_parse`: the parts of an update are all put back
-/

namespace Dragonmouth.Filters

open Checks Encoding Writer
open Proto (CommitmentLevel Timestamp SubscribeUpdateAccountInfo SubscribeUpdateTransactionInfo)
open Richat (MessageAccount MessageTransaction MessageEntry MessageBlock)

/-- The update a hand-written message stands for. -/
def SubscribeUpdateMessage.subscribeUpdate (self : SubscribeUpdateMessage) : SubscribeUpdate where
  filters := self.filters
  updateOneof := some self.update
  createdAt := some self.createdAt

/-- The hand-written message is encoded as the generated one. -/
theorem SubscribeUpdateMessage.encodeToVec_eq {P : Prost} {G : Geyser} (hP : P.Documented)
    (hwire : P.WireFormat) (hG : G.Documented P) (self : SubscribeUpdateMessage) :
    self.encodeToVec P G = generatedBytes (G.update self.subscribeUpdate) := by
  have hfilters : Agree (seq (self.filters.map fun filter => bytesEncode P 1 (strBytes filter)))
      (total (self.filters.map fun filter => bytesEncodedLen P 1 (strBytes filter)))
      ((Field.strings 1 (some self.filters)).write P) := by
    have hwrite : (Field.strings 1 (some self.filters)).write P = self.filters.flatMap fun filter =>
        delimited (P.encodeKey 1 .lengthDelimited) P.encodeVarint (strBytes filter) := by
      rw [Field.write, Option.elim_some, hwire.stringRepeated]
      exact congrArg (List.flatMap · self.filters) (funext (hwire.string 1))
    rw [hwrite]
    exact .flatMap fun filter => hP.slice_agree 1 (strBytes filter)
  have honeof := hG.updateOneof self.update
  have hcreated := hP.message_field 11 (hG.timestamp self.createdAt)
  have hall : (self.message P G).Fixed (fieldsWrite P (self.subscribeUpdate.fields P)) :=
    StandsAll.agree (.cons hfilters (.cons honeof (.cons hcreated .nil)))
  rw [encodeToVec, generatedBytes, generatedBytes, hall.denotes.content,
    (hG.update self.subscribeUpdate).content]

section

open MessageParserProst

variable {G : Geyser} {capacity : Finset Pubkey → ℕ} {slot : Slot} {isStartup : Bool}
  {createdAt : Timestamp} {size : ℕ}

/-- An account is kept as it is. -/
theorem parseAccount_keeps {account : SubscribeUpdateAccountInfo} {message : MessageAccount}
    (h : parseAccount account slot isStartup createdAt size = .ok message) :
    message.account = account ∧ message.slot = slot ∧ message.isStartup = isStartup ∧
      message.createdAt = createdAt := by
  obtain ⟨pubkey, -, h⟩ := bind_eq_ok.mp h
  obtain ⟨owner, -, h⟩ := bind_eq_ok.mp h
  rw [← Except.ok.inj h]
  exact ⟨rfl, rfl, rfl, rfl⟩

/-- A transaction is kept as it is. -/
theorem parseTransaction_keeps {transaction : SubscribeUpdateTransactionInfo}
    {message : MessageTransaction}
    (h : parseTransaction capacity transaction slot createdAt size = .ok message) :
    message.transaction = transaction ∧ message.slot = slot ∧ message.createdAt = createdAt := by
  obtain ⟨txMeta, -, h⟩ := bind_eq_ok.mp h
  obtain ⟨keys, -, h⟩ := bind_eq_ok.mp h
  obtain ⟨signature, -, h⟩ := bind_eq_ok.mp h
  rw [← Except.ok.inj h]
  exact ⟨rfl, rfl, rfl⟩

theorem accountInfo_empty (account : SubscribeUpdateAccountInfo) :
    accountInfo .empty account = .ok account := rfl

/-- Selecting every index visits every item. -/
theorem mapM_range {α β : Type} (items : List α) {f : α → Except Panic β} {g : α → β}
    (hf : ∀ item, f item = .ok (g item)) :
    ((List.range items.length).mapM fun idx => do
      let item ← itemAt items idx
      f item) = .ok (items.map g) := by
  rw [mapM_eq_ok, List.forall₂_iff_get]
  refine ⟨by simp, fun i h₁ h₂ => ?_⟩
  rw [List.length_range] at h₁
  simp only [List.get_eq_getElem, List.getElem_range, List.getElem_map, itemAt,
    List.getElem?_eq_getElem h₁, Option.elim_some]
  exact hf _

/-- The parts of a block are put together again. -/
theorem blockUpdate_of_parse {block : SubscribeUpdateBlock} {message : MessageBlock}
    (h : parseBlock G capacity block createdAt size = .ok message)
    (hcount : block.updatedAccountCount = block.accounts.length) :
    blockUpdate message (List.range message.accounts.length)
      (List.range message.transactions.length) true .empty = .ok block ∧
      message.createdAt = createdAt := by
  obtain ⟨accounts, haccounts, h⟩ := bind_eq_ok.mp h
  obtain ⟨transactions, htransactions, h⟩ := bind_eq_ok.mp h
  rw [← Except.ok.inj h]
  refine ⟨?_, rfl⟩
  have haccount : accounts.map MessageAccount.account = block.accounts :=
    map_of_mapM_ok haccounts fun _ _ hparse => (parseAccount_keeps hparse).1
  have htransaction : transactions.map MessageTransaction.transaction = block.transactions :=
    map_of_mapM_ok htransactions fun _ _ hparse => (parseTransaction_keeps hparse).1
  have hentry : ∀ lengthOf : Proto.SubscribeUpdateEntry → ℕ,
      (block.entries.map fun entry =>
        { entry := entry, createdAt := createdAt, size := lengthOf entry : MessageEntry }).map
          MessageEntry.entry = block.entries := by
    intro lengthOf
    rw [List.map_map]
    exact List.map_id _
  have hlength : accounts.length = block.updatedAccountCount := by
    rw [hcount, ← haccount, List.length_map]
  have htransactions' := mapM_range transactions (f := fun tx => .ok tx.transaction) fun _ => rfl
  have haccounts' := mapM_range accounts
    (f := fun account => accountInfo .empty account.account) fun _ => accountInfo_empty _
  refine bind_eq_ok.mpr ⟨_, htransactions', bind_eq_ok.mpr ⟨_, haccounts', ?_⟩⟩
  simp only [if_true, haccount, htransaction, hentry, hlength]

/-- What is parsed from an update is all of it but the names. -/
theorem message_of_parse {u : SubscribeUpdate} {encodedLen : Option ℕ} {message : Message}
    (h : parse G capacity u encodedLen = .ok message)
    (hcount : ∀ block, u.updateOneof = some (.block block) →
      block.updatedAccountCount = block.accounts.length) (filters : List String) :
    ∃ rebuilt, FilteredUpdate.message ⟨filters, .ofMessage message⟩ = .ok rebuilt ∧
      rebuilt.subscribeUpdate = { u with filters := filters } := by
  obtain ⟨names, updateOneof, created⟩ := u
  obtain ⟨createdAt, oneof, hcreated, honeof, hparses⟩ := parse_eq_ok.mp h
  cases hcreated
  cases honeof
  cases hparses with
  | slot hcommitment =>
    refine ⟨_, rfl, ?_⟩
    simp only [SubscribeUpdateMessage.subscribeUpdate,
      CommitmentLevel.toInt32_of_ofInt32 hcommitment]
  | @account account info parsed hinfo hparsed =>
    obtain ⟨haccount, hslot, hstartup, hat⟩ := parseAccount_keeps hparsed
    refine ⟨_, rfl, ?_⟩
    obtain ⟨info', slot, isStartup⟩ := account
    cases hinfo
    simp only [SubscribeUpdateMessage.subscribeUpdate, haccount, hslot, hstartup, hat]
  | @transaction transaction info parsed hinfo hparsed =>
    obtain ⟨htransaction, hslot, hat⟩ := parseTransaction_keeps hparsed
    refine ⟨_, rfl, ?_⟩
    obtain ⟨info', slot⟩ := transaction
    cases hinfo
    simp only [SubscribeUpdateMessage.subscribeUpdate, htransaction, hslot, hat]
  | entry => exact ⟨_, rfl, rfl⟩
  | blockMeta => exact ⟨_, rfl, rfl⟩
  | @block block parsed hparsed =>
    obtain ⟨hblock, hat⟩ := blockUpdate_of_parse hparsed (hcount block rfl)
    refine ⟨⟨filters, .block block, parsed.createdAt⟩, bind_eq_ok.mpr ⟨block, hblock, rfl⟩, ?_⟩
    rw [SubscribeUpdateMessage.subscribeUpdate, hat]

end

/-- Parsing and encoding again loses nothing but the names of the source. -/
theorem encode_of_parse {P : Prost} {G : Geyser} (hP : P.Documented) (hwire : P.WireFormat)
    (hG : G.Documented P) (capacity : Finset Pubkey → ℕ) {u : SubscribeUpdate}
    (encodedLen : Option ℕ) {message : Message}
    (hparse : MessageParserProst.parse G capacity u encodedLen = .ok message)
    (hcount : ∀ block, u.updateOneof = some (.block block) →
      block.updatedAccountCount = block.accounts.length) (filters : List String) :
    FilteredUpdate.encode P G ⟨filters, .ofMessage message⟩ =
      .ok (generatedBytes (G.update { u with filters := filters })) := by
  obtain ⟨rebuilt, hmessage, hupdate⟩ := message_of_parse hparse hcount filters
  rw [FilteredUpdate.encode, hmessage, ← hupdate, ← rebuilt.encodeToVec_eq hP hwire hG]
  rfl

/-- A block with an account and an entry. -/
def accountAndEntry : SubscribeUpdate where
  filters := ["source"]
  updateOneof := some (.block
    { slot := 9
      blockhash := "hash"
      rewards := none
      blockTime := some ⟨7⟩
      blockHeight := none
      parentSlot := 8
      parentBlockhash := "parent"
      executedTransactionCount := 0
      transactions := []
      updatedAccountCount := 1
      accounts :=
        [{ pubkey := .replicate 32 1
           lamports := 300
           owner := .replicate 32 2
           executable := false
           rentEpoch := 0
           data := [6, 6]
           writeVersion := 6
           txnSignature := none }]
      entriesCount := 1
      entries :=
        [{ slot := 9
           index := 0
           numHashes := 5
           hash := .replicate 32 3
           executedTransactionCount := 0
           startingTransactionIndex := 0 }] })
  createdAt := some ⟨1, 500⟩

theorem encode_of_parse_accountAndEntry : ∃ message,
    MessageParserProst.parse (geyser wire) Finset.card accountAndEntry none = .ok message ∧
      FilteredUpdate.encode wire (geyser wire) ⟨["subscriber"], .ofMessage message⟩ =
        .ok (generatedBytes ((geyser wire).update
          { accountAndEntry with filters := ["subscriber"] })) :=
  ⟨_, rfl, encode_of_parse wire_documented wire_wireFormat (geyser_documented wire) Finset.card
    none rfl (fun block h => by cases h; rfl) ["subscriber"]⟩

end Dragonmouth.Filters
