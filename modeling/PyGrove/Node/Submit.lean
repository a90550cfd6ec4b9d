import PyGrove.Consensus.Asert
import PyGrove.Node.Startup

set_option autoImplicit false

namespace PyGrove.Node

open Words Steps PyGrove.Core Crypto PyGrove.Consensus PyGrove.State

structure Submission where
  nowMs : U64
  block : Block
  write : WriteOutcome

-- The data of the messages. A panic of the retarget unwinds before the call
-- takes a lock, so to the node it is one more rejection.
inductive SubmitError where
  | preGenesis (genesisTimeMs nowMs : U64)
  | staleParent
  | wrongHeight (got expected : U64)
  | retargetPanicked
  | wrongBits (got expected parentBits : U32) (parentHeight parentTs : U64)
  | nonMonotonicTimestamp (got parent : U64)
  | timestampTooFarInFuture (got limit : U64)
  | hashAboveTarget
  | txRootMismatch (header body : Bytes 32)
  | witnessRootMismatch (header body : Bytes 32)
  | applyBlock (e : ApplyError)
  | append (e : StoreError)
deriving DecidableEq

def futureTimeToleranceMs : U64 := 2 * 60 * 60 * 1000

structure TipView where
  expectedParent : Bytes 32
  expectedHeight : U64
  parentTs : U64
  parentBits : U32
  parentHeight : U64

section
variable [HashFns]

def tipView (config : NodeConfig) : Option Block → TipView
  | some b =>
      { expectedParent := hashHeader b.header
        expectedHeight := b.header.height + 1
        parentTs := b.header.timestampMs
        parentBits := b.header.bits
        parentHeight := b.header.height }
  | none =>
      { expectedParent := .replicate 32 0
        expectedHeight := 0
        parentTs := 0
        parentBits := config.bits
        parentHeight := 0 }

def expectedBits (config : NodeConfig) (tip : Option Block) (timestampMs : U64) : Option U32 :=
  let view := tipView config tip
  nextBitsFromParent view.parentBits view.parentHeight view.parentTs timestampMs config.targetBlockTimeMs
    config.emission.bootstrapHeight config.bootstrapAsertTauMs config.asertTauMs

def checkBlock (config : NodeConfig) (nowMs : U64) (tip : Option Block) (block : Block) : Except SubmitError Unit :=
  let hdr := block.header
  let view := tipView config tip
  if nowMs < config.genesisTimeMs then .error (.preGenesis config.genesisTimeMs nowMs)
  else if hdr.parent ≠ view.expectedParent then .error .staleParent
  else if hdr.height ≠ view.expectedHeight then .error (.wrongHeight hdr.height view.expectedHeight)
  else
    match expectedBits config tip hdr.timestampMs with
    | none => .error .retargetPanicked
    | some bits =>
        if hdr.bits ≠ bits then
          .error (.wrongBits hdr.bits bits view.parentBits view.parentHeight view.parentTs)
        else if hdr.timestampMs < view.parentTs then
          .error (.nonMonotonicTimestamp hdr.timestampMs view.parentTs)
        else if nowMs + futureTimeToleranceMs < hdr.timestampMs then
          .error (.timestampTooFarInFuture hdr.timestampMs (nowMs + futureTimeToleranceMs))
        else if !meetsTarget (hashHeader hdr).toList (targetFromBits hdr.bits).toList then .error .hashAboveTarget
        else if hdr.txRoot ≠ block.body.txRoot then .error (.txRootMismatch hdr.txRoot block.body.txRoot)
        else if hdr.witnessRoot ≠ block.body.witnessRoot then
          .error (.witnessRootMismatch hdr.witnessRoot block.body.witnessRoot)
        else .ok ()

structure Acceptable (config : NodeConfig) (nowMs : U64) (tip : Option Block) (block : Block) : Prop where
  launched : ¬ nowMs < config.genesisTimeMs
  parent : block.header.parent = (tipView config tip).expectedParent
  height : block.header.height = (tipView config tip).expectedHeight
  bits : expectedBits config tip block.header.timestampMs = some block.header.bits
  monotonic : ¬ block.header.timestampMs < (tipView config tip).parentTs
  skew : ¬ nowMs + futureTimeToleranceMs < block.header.timestampMs
  work : meetsTarget (hashHeader block.header).toList (targetFromBits block.header.bits).toList
  txRoot : block.header.txRoot = block.body.txRoot
  witnessRoot : block.header.witnessRoot = block.body.witnessRoot

theorem check_block_iff (config : NodeConfig) (nowMs : U64) (tip : Option Block) (block : Block) :
    checkBlock config nowMs tip block = .ok () ↔ Acceptable config nowMs tip block := by
  unfold checkBlock
  dsimp only
  rw [guard_ok, guard_ok, guard_ok, not_not, not_not]
  constructor
  · intro ⟨launched, parent, height, checked⟩
    cases expected : expectedBits config tip block.header.timestampMs with
    | none =>
        rw [expected] at checked
        cases checked
    | some bits =>
        rw [expected] at checked
        dsimp only at checked
        rw [guard_ok, guard_ok, guard_ok, guard_ok, guard_ok, guard_ok, not_not, not_not, not_not] at checked
        obtain ⟨sameBits, monotonic, skew, work, txRoot, witnessRoot, _⟩ := checked
        rw [← sameBits] at expected
        exact ⟨launched, parent, height, expected, monotonic, skew, by simpa using work, txRoot, witnessRoot⟩
  · intro ok
    refine ⟨ok.launched, ok.parent, ok.height, ?_⟩
    rw [ok.bits]
    dsimp only
    rw [guard_ok, guard_ok, guard_ok, guard_ok, guard_ok, guard_ok, not_not, not_not, not_not]
    exact ⟨rfl, ok.monotonic, ok.skew, by simp [ok.work], ok.txRoot, ok.witnessRoot, rfl⟩

end

-- The parent timestamp of the reward, from a read of the tip of its own.
def rewardParentTs (config : NodeConfig) : Option Block → U64
  | some b => b.header.timestampMs
  | none => config.genesisTimeMs

def blockReward (config : NodeConfig) (hdr : BlockHeader) (parentTs : U64) (minted : U128)
    (prevReward : Option U128) : U128 :=
  currentRewardWithHeight config.emission config.genesisTimeMs hdr.timestampMs parentTs minted hdr.height prevReward

def callReward (config : NodeConfig) (node : NodeState) (call : Submission) : U128 :=
  blockReward config call.block.header (rewardParentTs config node.store.tip) node.mintedSoFar node.prevRewardSat

def confirmedHashes [HashFns] (block : Block) : List (Bytes 32) := block.body.txs.map TxBody.bodyHash

section
variable [HashFns] [SigFns] [StateCbor]

-- The call with no other call running. The state is applied in place, so a
-- rejected block leaves behind what it wrote before its error.
def tryApplyBlock (config : NodeConfig) (node : NodeState) (call : Submission) :
    NodeState × Except SubmitError Unit :=
  match checkBlock config call.nowMs node.store.tip call.block with
  | .error e => (node, .error e)
  | .ok () =>
      let reward := callReward config node call
      match applyBlock node.state call.block reward with
      | (state, .error e) => ({ node with state }, .error (.applyBlock e))
      | (state, .ok _) =>
          let (store, written) := node.store.append call.block call.write
          let next : NodeState :=
            { store
              state
              mempool := node.mempool.confirm (confirmedHashes call.block)
              mintedSoFar := saturatingAdd node.mintedSoFar reward
              prevRewardSat := some reward }
          match written with
          | .error e => (next, .error (.append e))
          | .ok () => (next, .ok ())

end

end PyGrove.Node
