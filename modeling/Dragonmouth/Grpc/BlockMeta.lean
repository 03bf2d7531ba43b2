import Dragonmouth.Foundations.OrderedMap
import Dragonmouth.Richat.Message

/-!
# The storage of block metas

`BlockMetaStorage::work` follows the slot statuses and block metas of the
processed stream and answers the unary requests from what it has kept. Requests
change nothing, so a run is a list of messages, and a request is answered in the
state after some prefix of it.

Both of the source's hash maps are looked up, filled and pruned only. The height
until which a blockhash is valid is computed in 64 bits and wraps, as in the
release build.

## Main definitions

- `Work`: the local variables of the loop
- `Work.process`: the branch of the loop that handles a message
- `Work.getBlock`, `Work.isBlockhashValid`: the answers to the two requests
-/

namespace Dragonmouth.Grpc

open Richat
open Proto (CommitmentLevel)

/-- `MAX_PROCESSING_AGE` of the Solana SDK, in blocks. -/
def maxProcessingAge : ℕ := 150

structure BlockMeta where
  slot : Slot
  blockhash : String
  blockHeight : ℕ
  /-- A block meta message has been received. -/
  processed : Bool
  confirmed : Bool
  finalized : Bool
  deriving DecidableEq, Inhabited

structure BlockStatus where
  lastValidBlockHeight : ℕ
  /-- A block meta message has been received. -/
  processed : Bool
  confirmed : Bool
  finalized : Bool
  deriving DecidableEq, Inhabited

/-- The local variables of `BlockMetaStorage::work`. -/
structure Work where
  blocks : OrderedMap Slot BlockMeta
  blockhashes : OrderedMap String BlockStatus
  processed : Slot
  confirmed : Slot
  finalized : Slot

namespace Work

def new : Work where
  blocks := ∅
  blockhashes := ∅
  processed := 0
  confirmed := 0
  finalized := 0

/-- `blocks.entry(slot).or_default()`. -/
def entry (w : Work) (slot : Slot) : BlockMeta := (w.blocks.lookup slot).getD default

/-- `blockhashes.entry(blockhash).or_default()`. -/
def bentry (w : Work) (blockhash : String) : BlockStatus :=
  (w.blockhashes.lookup blockhash).getD default

/-- Put an entry of a slot and one of its blockhash back. -/
def put (w : Work) (slot : Slot) (entry : BlockMeta) (bentry : BlockStatus) : Work :=
  { w with
    blocks := w.blocks.insert slot entry
    blockhashes := w.blockhashes.insert entry.blockhash bentry }

/-- A confirmed status. -/
def confirm (w : Work) (slot : Slot) : Work :=
  let entry := { w.entry slot with confirmed := true }
  { w.put slot entry { w.bentry entry.blockhash with confirmed := true } with confirmed := slot }

/-- The cleanup after a finalized status. -/
def cleanup (w : Work) (slot : Slot) (blockHeight : ℕ) : Work :=
  { w with
    blockhashes := w.blockhashes.retain fun _ bentry => bentry.lastValidBlockHeight < blockHeight
    blocks := w.blocks.retain fun bslot _ => slot ≤ bslot }

/-- A finalized status. -/
def finalize (w : Work) (slot : Slot) : Work :=
  let entry := { w.entry slot with finalized := true }
  let w := w.put slot entry { w.bentry entry.blockhash with finalized := true }
  { w with finalized := slot }.cleanup slot entry.blockHeight

/-- A block meta. -/
def receive (w : Work) (msg : MessageBlockMeta) : Work :=
  let slot := msg.slot
  let entry :=
    { w.entry slot with
      slot := slot
      blockhash := msg.blockhash
      blockHeight := msg.blockHeight.getD 0
      processed := true }
  let bentry :=
    { w.bentry entry.blockhash with
      lastValidBlockHeight := (entry.blockHeight + maxProcessingAge) % 2 ^ 64
      processed := true }
  { w.put slot entry bentry with processed := max w.processed slot }

/-- What the loop does with a message. -/
def process (w : Work) : ParsedMessage → Work
  | .slot msg =>
    if msg.commitment = .confirmed then w.confirm msg.slot
    else if msg.commitment = .finalized then w.finalize msg.slot
    else w
  | .blockMeta msg => w.receive msg
  | _ => w

/-- The state after a list of messages. -/
def run (messages : List ParsedMessage) : Work := messages.foldl process new

/-- The slot whose block answers a request at a commitment level. -/
def slotOf (w : Work) : CommitmentLevel → Option Slot
  | .processed => some w.processed
  | .confirmed => some w.confirmed
  | .finalized => some w.finalized
  | _ => none

/-- The answer to `Request::GetBlock`. -/
def getBlock (w : Work) (commitment : CommitmentLevel) : Option BlockMeta :=
  (w.slotOf commitment).bind w.blocks.lookup

/-- The answer to `Request::IsBlockhashValid`. -/
def isBlockhashValid (w : Work) (blockhash : String) (commitment : CommitmentLevel) :
    Option (Bool × Slot) :=
  match w.getBlock commitment, w.blockhashes.lookup blockhash with
  | some block, some entry =>
    some (decide (block.blockHeight < entry.lastValidBlockHeight), block.slot)
  | _, _ => none

end Work

end Dragonmouth.Grpc
