import Mathlib.Algebra.Order.BigOperators.Group.List
import Mathlib.Algebra.Order.Group.Nat
import Dragonmouth.Filters.AnySwitch
import Dragonmouth.Filters.Reencode

/-!
# Sizes of blocks

The size of a block is the sum of the sizes of its parts. Accounts, entries and the
block meta are measured by themselves. A transaction is measured by the length of the
whole update, so a block is larger than its parts by about that length for each of its
transactions.

## Main definitions

- `SizedByParts`: every part has a size of its own
- `parseBlock_sized`: the sizes the parser gives
- `block_sizes`: when they are those of the parts
-/

namespace Dragonmouth.Filters

open Checks Encoding
open MessageParserProst (lengthOf parse parseBlock)
open Proto (SubscribeUpdateTransactionInfo Timestamp)
open Richat (MessageAccount MessageTransaction MessageEntry MessageBlockMeta MessageBlock)

section

variable (G : Geyser) (T : SubscribeUpdateTransactionInfo → Encoding.Message)
  (capacity : Finset Pubkey → ℕ)

/-- The length of an account and what is kept beside it. -/
def accountPart (message : MessageAccount) : ℕ :=
  pubkeyBytes + pubkeyBytes + signatureBytes + lengthOf (G.account message.account) + 8

/-- The length of a transaction and what is kept beside it. -/
def transactionPart (message : MessageTransaction) : ℕ :=
  lengthOf (T message.transaction) + signatureBytes + capacity message.accountKeys * pubkeyBytes

def entryPart (message : MessageEntry) : ℕ := lengthOf (G.entry message.entry)

def blockMetaPart (message : MessageBlockMeta) : ℕ := lengthOf (G.blockMeta message.blockMeta)

/-- The parts of a block together. -/
def partsOf (block : MessageBlock) : ℕ :=
  (block.accounts.map (accountPart G) ++ block.transactions.map (transactionPart T capacity) ++
    block.entries.map (entryPart G)).sum + blockMetaPart G block.blockMeta

/-- Every part of a block has a size of its own, and the block that of its parts. -/
structure SizedByParts (block : MessageBlock) : Prop where
  accounts : ∀ message ∈ block.accounts, message.size = accountPart G message
  transactions : ∀ message ∈ block.transactions, message.size = transactionPart T capacity message
  entries : ∀ message ∈ block.entries, message.size = entryPart G message
  blockMeta : block.blockMeta.size = blockMetaPart G block.blockMeta
  size : block.size = partsOf G T capacity block

/-- What the parser makes of a block in an update of the given length. -/
structure Sized (message : SubscribeUpdateBlock) (encodedLen : ℕ) (block : MessageBlock) :
    Prop where
  accounts : ∀ message ∈ block.accounts, message.size = accountPart G message
  transactions : ∀ message ∈ block.transactions,
    message.size = encodedLen + signatureBytes + capacity message.accountKeys * pubkeyBytes
  entries : ∀ message ∈ block.entries, message.size = entryPart G message
  blockMeta : block.blockMeta.size = blockMetaPart G block.blockMeta
  kept : block.transactions.map MessageTransaction.transaction = message.transactions

end

section

variable {G : Geyser} {T : SubscribeUpdateTransactionInfo → Encoding.Message}
  {capacity : Finset Pubkey → ℕ} {message : SubscribeUpdateBlock} {createdAt : Timestamp}
  {encodedLen : ℕ} {block : MessageBlock}

theorem parseAccount_size {account : Proto.SubscribeUpdateAccountInfo} {slot : Slot}
    {isStartup : Bool} {size : ℕ} {parsed : MessageAccount}
    (h : MessageParserProst.parseAccount account slot isStartup createdAt size = .ok parsed) :
    parsed.size = size := by
  obtain ⟨pubkey, -, h⟩ := bind_eq_ok.mp h
  obtain ⟨owner, -, h⟩ := bind_eq_ok.mp h
  rw [← Except.ok.inj h]

theorem parseTransaction_size {transaction : SubscribeUpdateTransactionInfo} {slot : Slot}
    {parsed : MessageTransaction}
    (h : MessageParserProst.parseTransaction capacity transaction slot createdAt encodedLen =
      .ok parsed) :
    parsed.size = encodedLen + signatureBytes + capacity parsed.accountKeys * pubkeyBytes := by
  obtain ⟨txMeta, -, h⟩ := bind_eq_ok.mp h
  obtain ⟨keys, -, h⟩ := bind_eq_ok.mp h
  obtain ⟨signature, -, h⟩ := bind_eq_ok.mp h
  rw [← Except.ok.inj h]

/-- All parts but the transactions are measured by themselves. -/
theorem parseBlock_sized (h : parseBlock G capacity message createdAt encodedLen = .ok block) :
    Sized G capacity message encodedLen block := by
  obtain ⟨accounts, haccounts, h⟩ := bind_eq_ok.mp h
  obtain ⟨transactions, htransactions, h⟩ := bind_eq_ok.mp h
  rw [← Except.ok.inj h]
  refine ⟨fun parsed hparsed => ?_, fun parsed hparsed => ?_, fun parsed hparsed => ?_, rfl, ?_⟩
  · obtain ⟨account, -, hparse⟩ := exists_left (mapM_eq_ok.mp haccounts) hparsed
    rw [parseAccount_size hparse, accountPart, (parseAccount_keeps hparse).1]
  · obtain ⟨transaction, -, hparse⟩ := exists_left (mapM_eq_ok.mp htransactions) hparsed
    exact parseTransaction_size hparse
  · obtain ⟨entry, -, rfl⟩ := List.mem_map.mp hparsed
    rfl
  · exact map_of_mapM_ok htransactions fun _ _ hparse =>
      (parseTransaction_keeps hparse).1

/-- The sizes are those of the parts if and only if each transaction is as long as the
whole update. -/
theorem Sized.byParts_iff (h : Sized G capacity message encodedLen block) :
    SizedByParts G T capacity block ↔
      ∀ transaction ∈ message.transactions, lengthOf (T transaction) = encodedLen := by
  rw [← h.kept]
  constructor
  · intro hparts transaction htransaction
    obtain ⟨parsed, hparsed, rfl⟩ := List.mem_map.mp htransaction
    have hown := hparts.transactions parsed hparsed
    rw [h.transactions parsed hparsed, transactionPart] at hown
    omega
  · intro hlengths
    have htransactions : ∀ parsed ∈ block.transactions,
        parsed.size = transactionPart T capacity parsed := by
      intro parsed hparsed
      rw [h.transactions parsed hparsed, transactionPart,
        hlengths _ (List.mem_map_of_mem hparsed)]
    refine ⟨h.accounts, htransactions, h.entries, h.blockMeta, ?_⟩
    rw [MessageBlock.size, partsOf, List.map_congr_left h.accounts,
      List.map_congr_left htransactions, List.map_congr_left h.entries, h.blockMeta]

/-- How much larger than its parts a block is. -/
theorem Sized.size_eq (h : Sized G capacity message encodedLen block) :
    block.size + (message.transactions.map fun transaction => lengthOf (T transaction)).sum =
      partsOf G T capacity block + message.transactions.length * encodedLen := by
  have htransactions : (block.transactions.map MessageTransaction.size).sum +
      (message.transactions.map fun transaction => lengthOf (T transaction)).sum =
        (block.transactions.map (transactionPart T capacity)).sum +
          message.transactions.length * encodedLen := by
    have hsizes := h.transactions
    rw [← h.kept, List.map_map, List.length_map]
    generalize block.transactions = transactions at hsizes ⊢
    induction transactions with
    | nil => simp
    | cons parsed transactions ih =>
      obtain ⟨hparsed, hrest⟩ := List.forall_mem_cons.mp hsizes
      have hih := ih hrest
      simp only [List.map_cons, List.sum_cons, List.length_cons, hparsed, transactionPart,
        Function.comp_apply] at hih ⊢
      rw [Nat.succ_mul]
      omega
  rw [MessageBlock.size, partsOf, List.map_congr_left h.accounts,
    List.map_congr_left h.entries, h.blockMeta]
  simp only [List.sum_append]
  omega

end

-- ════════════════════════════════════════════════════════════════════════
-- An update is longer than its transactions
-- ════════════════════════════════════════════════════════════════════════

section

variable {P : Prost} {fields : List Field} {field : Field}

theorem length_write_le (h : field ∈ fields) :
    (field.write P).length ≤ (fieldsWrite P fields).length := by
  rw [fieldsWrite, List.length_flatMap]
  exact List.le_sum_of_mem (List.mem_map_of_mem h)

/-- A key has at least one byte. -/
theorem length_lt_delimited (hkey : ∀ tag wireType, P.encodeKey tag wireType ≠ []) (tag : ℕ)
    (bytes : Bytes) : bytes.length <
      (Writer.delimited (P.encodeKey tag .lengthDelimited) P.encodeVarint bytes).length := by
  have hpos := List.length_pos_iff.mpr (hkey tag .lengthDelimited)
  rw [Writer.delimited, List.length_append, List.length_append]
  omega

/-- A nested message is shorter than the message it stands in. -/
theorem length_lt_fieldsWrite (hkey : ∀ tag wireType, P.encodeKey tag wireType ≠ []) {tag : ℕ}
    {bytes : Bytes} {bodies : List Bytes} (hbody : bytes ∈ bodies)
    (hfield : .messages tag bodies ∈ fields) : bytes.length < (fieldsWrite P fields).length := by
  refine Nat.lt_of_lt_of_le (length_lt_delimited hkey tag bytes) ?_
  refine Nat.le_trans ?_ (length_write_le hfield)
  rw [Field.write, List.length_flatMap]
  exact List.le_sum_of_mem (List.mem_map_of_mem hbody)

theorem transaction_lt_update (hkey : ∀ tag wireType, P.encodeKey tag wireType ≠ [])
    {update : SubscribeUpdate} {message : SubscribeUpdateBlock}
    {transaction : SubscribeUpdateTransactionInfo}
    (hblock : update.updateOneof = some (.block message))
    (htransaction : transaction ∈ message.transactions) :
    (fieldsWrite P (transaction.fields P)).length <
      (fieldsWrite P (update.fields P)).length := by
  have hmessage : (fieldsWrite P (transaction.fields P)).length <
      (fieldsWrite P (message.fields P)).length := by
    have hbody : fieldsWrite P (transaction.fields P) ∈
        message.transactions.map fun self => fieldsWrite P (self.fields P) :=
      List.mem_map_of_mem htransaction
    have hfield : Field.messages 6 (message.transactions.map fun self =>
        fieldsWrite P (self.fields P)) ∈ message.fields P := by
      simp [SubscribeUpdateBlock.fields]
    exact length_lt_fieldsWrite hkey hbody hfield
  have hupdate : (UpdateOneof.block message).field P ∈ update.fields P := by
    simp [SubscribeUpdate.fields, hblock]
  refine hmessage.trans (Nat.lt_of_lt_of_le ?_ (length_write_le hupdate))
  exact length_lt_delimited hkey 5 _

end

theorem wire_encodeKey_ne (tag : ℕ) (wireType : WireType) : wire.encodeKey tag wireType ≠ [] := by
  change varintBytes (9 + 1) _ ≠ []
  rw [varintBytes]
  split <;> exact List.cons_ne_nil _ _

-- ════════════════════════════════════════════════════════════════════════
-- The sizes of a parsed block
-- ════════════════════════════════════════════════════════════════════════

theorem parse_block {G : Geyser} {capacity : Finset Pubkey → ℕ} {update : SubscribeUpdate}
    {encodedLen : Option ℕ} {block : MessageBlock}
    (h : parse G capacity update encodedLen = .ok (.block block)) :
    ∃ message createdAt, update.updateOneof = some (.block message) ∧
      parseBlock G capacity message createdAt
        (encodedLen.getD (lengthOf (G.update update))) = .ok block := by
  obtain ⟨createdAt, updateOneof, -, hupdateOneof, hparses⟩ :=
    MessageParserProst.parse_eq_ok.mp h
  cases hparses with
  | block hblock => exact ⟨_, createdAt, hupdateOneof, hblock⟩

/-- The sizes of a block are those of its parts if and only if each of its transactions is
as long as what is taken for the length of the update. The update is longer, so there
must be none. -/
theorem block_sizes {P : Prost} {G : Geyser}
    {T : SubscribeUpdateTransactionInfo → Encoding.Message}
    (hG : G.Documented P) (hT : ∀ self, (T self).Denotes (fieldsWrite P (self.fields P)))
    (hkey : ∀ tag wireType, P.encodeKey tag wireType ≠ []) {capacity : Finset Pubkey → ℕ}
    {update : SubscribeUpdate} {encodedLen : Option ℕ} {block : MessageBlock}
    (h : parse G capacity update encodedLen = .ok (.block block)) :
    ∃ message, update.updateOneof = some (.block message) ∧
      block.transactions.map MessageTransaction.transaction = message.transactions ∧
      (SizedByParts G T capacity block ↔ ∀ transaction ∈ message.transactions,
        lengthOf (T transaction) = encodedLen.getD (lengthOf (G.update update))) ∧
      (lengthOf (G.update update) ≤ encodedLen.getD (lengthOf (G.update update)) →
        (SizedByParts G T capacity block ↔ message.transactions = [])) ∧
      block.size + (message.transactions.map fun transaction => lengthOf (T transaction)).sum =
        partsOf G T capacity block +
          message.transactions.length * encodedLen.getD (lengthOf (G.update update)) := by
  obtain ⟨message, createdAt, hblock, hparsed⟩ := parse_block h
  have hsized := parseBlock_sized hparsed
  refine ⟨message, hblock, hsized.kept, hsized.byParts_iff, fun hlength => ?_, hsized.size_eq⟩
  rw [hsized.byParts_iff]
  constructor
  · intro hlengths
    refine List.eq_nil_iff_forall_not_mem.mpr fun transaction htransaction => ?_
    have hshorter := transaction_lt_update hkey hblock htransaction
    have hown := hlengths transaction htransaction
    rw [lengthOf, (hT transaction).measures] at hown
    rw [lengthOf, (hG.update update).measures] at hlength hown
    omega
  · intro hnone transaction htransaction
    rw [hnone] at htransaction
    cases htransaction

theorem block_sizes_accountAndEntry : ∃ block,
    parse (geyser wire) Finset.card accountAndEntry none = .ok (.block block) ∧
      SizedByParts (geyser wire) (fun self => fieldsMessage wire (self.fields wire)) Finset.card
        block := by
  refine ⟨_, rfl, ?_⟩
  obtain ⟨message, hblock, -, -, hparts, -⟩ := block_sizes (geyser_documented wire)
    (fun self => fieldsMessage_denotes wire (self.fields wire)) wire_encodeKey_ne
    (show parse (geyser wire) Finset.card accountAndEntry none = .ok (.block _) from rfl)
  refine (hparts (Nat.le_refl _)).mpr ?_
  cases hblock
  rfl

/-- A block with a transaction and the given hash. -/
def transactionUnder (blockhash : String) : SubscribeUpdate where
  filters := []
  updateOneof := some (.block
    { slot := 9
      blockhash := blockhash
      rewards := none
      blockTime := none
      blockHeight := none
      parentSlot := 8
      parentBlockhash := "parent"
      executedTransactionCount := 1
      transactions := [transactionInfo false false (.replicate 64 1) [.replicate 32 2]]
      updatedAccountCount := 0
      accounts := []
      entriesCount := 0
      entries := [] })
  createdAt := some ⟨1, 500⟩

theorem parse_transactionUnder (blockhash : String) : ∃ block,
    parse (geyser wire) Finset.card (transactionUnder blockhash) none = .ok (.block block) ∧
      block.transactions =
        [{ signature := .replicate 64 1
           error := none
           accountKeys := [.replicate 32 2].toFinset
           transaction := transactionInfo false false (.replicate 64 1) [.replicate 32 2]
           slot := 9
           createdAt := ⟨1, 500⟩
           size := lengthOf ((geyser wire).update (transactionUnder blockhash)) +
             signatureBytes + Finset.card {(.replicate 32 2 : Pubkey)} * pubkeyBytes }] := by
  have hparsed := parseTransaction_transactionInfo false false (.replicate 64 1)
    [.replicate 32 2] Finset.card 9 ⟨1, 500⟩
    (lengthOf ((geyser wire).update (transactionUnder blockhash)))
  have hparts := mapM_eq_ok.mpr (.cons hparsed .nil)
  exact ⟨_, bind_eq_ok.mpr ⟨_, rfl, bind_eq_ok.mpr ⟨_, rfl, bind_eq_ok.mpr ⟨_,
    bind_eq_ok.mpr ⟨[], rfl, bind_eq_ok.mpr ⟨_, hparts, rfl⟩⟩, rfl⟩⟩⟩, rfl⟩

/-- A longer hash makes the transaction larger. -/
theorem transaction_grows : ∃ short long,
    parse (geyser wire) Finset.card (transactionUnder "") none = .ok (.block short) ∧
      parse (geyser wire) Finset.card (transactionUnder "hash") none = .ok (.block long) ∧
      short.transactions.map (fun message => (message.transaction, message.accountKeys)) =
        long.transactions.map (fun message => (message.transaction, message.accountKeys)) ∧
      short.transactions.map MessageTransaction.size ≠
        long.transactions.map MessageTransaction.size ∧
      ¬ SizedByParts (geyser wire) (fun self => fieldsMessage wire (self.fields wire))
        Finset.card long := by
  obtain ⟨short, hshort, hshortened⟩ := parse_transactionUnder ""
  obtain ⟨long, hlong, hlengthened⟩ := parse_transactionUnder "hash"
  refine ⟨short, long, hshort, hlong, ?_, ?_, fun hparts => ?_⟩
  · simp only [hshortened, hlengthened, List.map_singleton]
  · have hlengths : lengthOf ((geyser wire).update (transactionUnder "")) <
        lengthOf ((geyser wire).update (transactionUnder "hash")) := by decide +kernel
    simp only [hshortened, hlengthened, List.map_singleton, ne_eq, List.singleton_inj]
    omega
  · have hown := hparts.transactions _ (hlengthened ▸ List.mem_singleton_self _)
    revert hown
    decide +kernel

end Dragonmouth.Filters
