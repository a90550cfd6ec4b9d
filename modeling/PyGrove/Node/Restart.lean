import PyGrove.Node.Submit
import PyGrove.State.Atomicity

set_option autoImplicit false

namespace PyGrove.Node

open Words Steps Frames PyGrove.Core Crypto PyGrove.Consensus PyGrove.State

theorem acceptable_height [HashFns] (config : NodeConfig) (nowMs : U64) (store : ChainStore) (blocks : List Block)
    (block : Block) (holds : store.Holds blocks) (ordered : InOrder blocks) (nonempty : blocks ≠ [])
    (acceptable : Acceptable config nowMs store.tip block)
    (room : ∀ tip ∈ store.tip, tip.header.height ≠ BitVec.allOnes 64) :
    block.header.height.toNat = blocks.length := by
  have height := acceptable.height
  rw [holds.tip] at height room
  obtain ⟨tip, last⟩ : ∃ tip, blocks.getLast? = some tip := ⟨_, List.getLast?_eq_some_getLast nonempty⟩
  have position := ordered (blocks.length - 1) tip (by rw [← List.getLast?_eq_getElem?, last])
  have positive := List.length_pos_of_ne_nil nonempty
  have below := to_nat_lt_top tip.header.height (room tip (by rw [last]; rfl))
  rw [last] at height
  rw [height, tipView, to_nat_succ tip.header.height below]
  omega

section
variable [HashFns] [SigFns] [StateCbor]

inductive CallOutcome (config : NodeConfig) (node : NodeState) (call : Submission) :
    NodeState × Except SubmitError Unit → Prop where
  | refused (e : SubmitError) : CallOutcome config node call (node, .error e)
  | notApplied (state : MemState) (e : ApplyError)
      (acceptable : Acceptable config call.nowMs node.store.tip call.block)
      (applied : applyBlock node.state call.block (callReward config node call) = (state, .error e)) :
      CallOutcome config node call ({ node with state }, .error (.applyBlock e))
  | notLogged (state : MemState) (out : ApplyOutput) (written : Nat)
      (acceptable : Acceptable config call.nowMs node.store.tip call.block)
      (applied : applyBlock node.state call.block (callReward config node call) = (state, .ok out))
      (failed : call.write = .fails written) :
      CallOutcome config node call
        ({ store := (node.store.append call.block (.fails written)).1
           state
           mempool := node.mempool.confirm (confirmedHashes call.block)
           mintedSoFar := saturatingAdd node.mintedSoFar (callReward config node call)
           prevRewardSat := some (callReward config node call) }, .error (.append .io))
  | logged (state : MemState) (out : ApplyOutput)
      (acceptable : Acceptable config call.nowMs node.store.tip call.block)
      (applied : applyBlock node.state call.block (callReward config node call) = (state, .ok out))
      (done : call.write = .done) :
      CallOutcome config node call
        ({ store := (node.store.append call.block .done).1
           state
           mempool := node.mempool.confirm (confirmedHashes call.block)
           mintedSoFar := saturatingAdd node.mintedSoFar (callReward config node call)
           prevRewardSat := some (callReward config node call) }, .ok ())

theorem try_apply_block_outcome (config : NodeConfig) (node : NodeState) (call : Submission) :
    CallOutcome config node call (tryApplyBlock config node call) := by
  simp only [tryApplyBlock]
  cases checked : checkBlock config call.nowMs node.store.tip call.block with
  | error e => exact .refused e
  | ok done =>
      have acceptable := (check_block_iff config call.nowMs node.store.tip call.block).mp checked
      dsimp only
      rcases applied : applyBlock node.state call.block (callReward config node call) with ⟨state, e | out⟩
      · exact .notApplied state e acceptable applied
      · cases write : call.write with
        | done => exact .logged state out acceptable applied write
        | fails written => exact .notLogged state out written acceptable applied write

-- The call takes none of the branches that part the state from the log: a
-- late failure of apply_block, and, once a block is applied, an append that
-- does not write one whole record or a height that wraps.
structure CleanCall (config : NodeConfig) (node : NodeState) (call : Submission) : Prop where
  early : Acceptable config call.nowMs node.store.tip call.block →
    ¬ (call.block.body.txs ≠ [] ∧ LateFailure node.state call.block (callReward config node call))
  appends : Acceptable config call.nowMs node.store.tip call.block →
    (∃ out, (applyBlock node.state call.block (callReward config node call)).2 = .ok out) →
      call.write = .done ∧ (blockCodec.encode call.block).length < 2 ^ 32 ∧
        ∀ tip ∈ node.store.tip, tip.header.height ≠ BitVec.allOnes 64

variable [HexFns]

def SurvivesRestart (g : Genesis) (node : NodeState) : Prop :=
  cmdRun g node.store.log = .ok { node with mempool := .new 10000 }

structure Synced (g : Genesis) (node : NodeState) (blocks : List Block) : Prop where
  holds : node.store.Holds blocks
  ordered : InOrder blocks
  nonempty : blocks ≠ []
  replayed : replay g blocks = .ok ⟨node.state, node.mintedSoFar, node.prevRewardSat⟩

theorem cmd_run_records (g : Genesis) (log : List U8) (blocks : List Block) (whole : Records blockCodec log blocks)
    (nonempty : blocks ≠ []) :
    cmdRun g log =
      (replay g blocks).map fun reached =>
        { store := { log, tip := blocks.getLast?, count := BitVec.ofNat 64 blocks.length }
          state := reached.mem
          mempool := .new 10000
          mintedSoFar := reached.mintedSoFar
          prevRewardSat := reached.prevReward } := by
  have read := records_read blockCodec log blocks whole
  have tip : ¬ blocks.getLast?.isNone := by
    rw [Option.isNone_iff_eq_none, List.getLast?_eq_none_iff]
    exact nonempty
  simp only [cmdRun, ChainStore.openLog, ChainStore.loadAll, readAllFromDisk, read, if_neg tip]

theorem synced_survives (g : Genesis) (node : NodeState) (blocks : List Block) (synced : Synced g node blocks) :
    SurvivesRestart g node := by
  simp only [SurvivesRestart, cmd_run_records g node.store.log blocks synced.holds.whole synced.nonempty,
    synced.replayed, Except.map, ← synced.holds.tip, ← synced.holds.count]

theorem cmd_run_synced (g : Genesis) (log : List U8) (blocks : List Block) (node : NodeState)
    (whole : Records blockCodec log blocks) (ordered : InOrder blocks) (nonempty : blocks ≠ [])
    (started : cmdRun g log = .ok node) : Synced g node blocks := by
  rw [cmd_run_records g log blocks whole nonempty] at started
  cases replayed : replay g blocks with
  | error e =>
      rw [replayed] at started
      cases started
  | ok reached =>
      rw [replayed] at started
      cases started
      exact ⟨⟨whole, rfl, rfl⟩, ordered, nonempty, replayed⟩

theorem cmd_run_nonempty (g : Genesis) (log : List U8) (blocks : List Block) (node : NodeState)
    (whole : Records blockCodec log blocks) (started : cmdRun g log = .ok node) : blocks ≠ [] := by
  intro empty
  rw [cmdRun, ChainStore.openLog, readAllFromDisk, records_read blockCodec log blocks whole, empty] at started
  cases started

theorem synced_call (g : Genesis) (node : NodeState) (blocks : List Block) (call : Submission)
    (synced : Synced g node blocks) (clean : CleanCall g.nodeConfig node call) :
    ∃ after, Synced g (tryApplyBlock g.nodeConfig node call).1 after := by
  have outcome := try_apply_block_outcome g.nodeConfig node call
  generalize tryApplyBlock g.nodeConfig node call = result at outcome
  cases outcome with
  | refused e => exact ⟨blocks, synced⟩
  | notApplied state e acceptable applied =>
      have kept : state = node.state := by
        apply MemState.ext_get
        intro sub key
        have atomic := atomic_without_late_failure node.state call.block _ (clean.early acceptable) e
          (by rw [applied]) sub key
        rwa [applied] at atomic
      exact ⟨blocks, synced.holds, synced.ordered, synced.nonempty, by rw [kept]; exact synced.replayed⟩
  | notLogged state out written acceptable applied failed =>
      have done := (clean.appends acceptable ⟨out, by rw [applied]⟩).1
      rw [failed] at done
      cases done
  | logged state out acceptable applied done =>
      obtain ⟨_, sized, room⟩ := clean.appends acceptable ⟨out, by rw [applied]⟩
      have height := acceptable_height g.nodeConfig call.nowMs node.store blocks call.block synced.holds synced.ordered
        synced.nonempty acceptable room
      refine ⟨blocks ++ [call.block], ChainStore.holds_append node.store blocks call.block synced.holds sized,
        (in_order_snoc blocks call.block).mpr ⟨synced.ordered, height⟩, by simp, ?_⟩
      have sameParent : parentTimestamp g (blocks ++ [call.block]) call.block.header =
          rewardParentTs g.nodeConfig node.store.tip := by
        rw [parent_timestamp_last g blocks call.block height, synced.holds.tip]
        cases blocks.getLast? with
        | none => rfl
        | some tip => rfl
      rw [replay_snoc g blocks call.block _ synced.ordered synced.replayed, replayBlock, sameParent]
      have sameReward : currentRewardWithHeight g.emissionParams g.genesisTimeMs call.block.header.timestampMs
          (rewardParentTs g.nodeConfig node.store.tip) node.mintedSoFar call.block.header.height node.prevRewardSat =
          callReward g.nodeConfig node call := rfl
      dsimp only
      rw [sameReward, applied]

theorem clean_calls_survive_restart (g : Genesis) (log : List U8) (blocks : List Block) (start : NodeState)
    (calls : List Submission) (whole : Records blockCodec log blocks) (ordered : InOrder blocks)
    (started : cmdRun g log = .ok start)
    (clean : Along (tryApplyBlock g.nodeConfig) (CleanCall g.nodeConfig) start calls) :
    SurvivesRestart g start ∧
      Along (tryApplyBlock g.nodeConfig)
        (fun node call => SurvivesRestart g (tryApplyBlock g.nodeConfig node call).1) start calls := by
  have synced := cmd_run_synced g log blocks start whole ordered (cmd_run_nonempty g log blocks start whole started) started
  refine ⟨synced_survives g start blocks synced, ?_⟩
  clear started whole ordered
  induction calls generalizing start blocks with
  | nil => trivial
  | cons call tail ih =>
      obtain ⟨after, next⟩ := synced_call g start blocks call synced clean.1
      exact ⟨synced_survives g _ after next, ih after _ clean.2 next⟩

end

end PyGrove.Node

/- The shipped chain under the closed environment: a mined genesis block and
   calls with mined blocks of height 1. -/
namespace PyGrove.Sample

open Words Steps Frames PyGrove.Core PyGrove.Consensus PyGrove.State PyGrove.Node

scoped instance hex : HexFns where
  decode := fun text => if text.isEmpty then .ok [] else .error "Invalid character"

def mined (height : U64) (parent : Bytes 32) (timestampMs nonce : U64) (signed : List (TxBody × Witness)) : Block :=
  block { header height parent timestampMs 0x1F00FFFF with nonce } signed

def genesisBlock : Block := mined 0 (.replicate 32 0) 1778716820000 42412 []

def onGenesis (nonce : U64) (signed : List (TxBody × Witness)) : Submission where
  nowMs := 1778717420000
  block := mined 1 (hashHeader genesisBlock.header) 1778717420000 nonce signed
  write := .done

def pokeSelf (nonce : U64) : TxBody × Witness :=
  let key := List.replicate 32 7
  signedTx nonce (.transfer (.fromPubkey key) 0) 0 3 key (.inline key)

def pokeOnce : Submission := onGenesis 7536 [pokeSelf 0]
def pokeTwice : Submission := onGenesis 13858 [pokeSelf 0, pokeSelf 0]
def pokeNext : Submission := onGenesis 32128 [pokeSelf 1]

def genesisState : MemState := (applyBlock MemState.new genesisBlock 0).1

def freshNode : NodeState where
  store := { log := record blockCodec genesisBlock, tip := some genesisBlock, count := 1 }
  state := genesisState
  mempool := .new 10000
  mintedSoFar := 0
  prevRewardSat := some 0

theorem genesis_log : Records blockCodec freshNode.store.log [genesisBlock] :=
  record_whole blockCodec genesisBlock (by decide +kernel)

theorem genesis_in_order : InOrder [genesisBlock] :=
  (in_order_snoc [] genesisBlock).mpr ⟨fun _ _ found => by simp at found, by decide⟩

theorem genesis_replayed : replay .shipped [genesisBlock] = .ok ⟨genesisState, 0, some 0⟩ := by
  have nothing : currentRewardWithHeight Genesis.shipped.emissionParams Genesis.shipped.genesisTimeMs
      genesisBlock.header.timestampMs (parentTimestamp .shipped [genesisBlock] genesisBlock.header) 0
      genesisBlock.header.height none = 0 := by decide +kernel
  have applied : (applyBlock MemState.new genesisBlock 0).2.toOption.isSome := by decide +kernel
  rw [replay_ok]
  refine ⟨.new, rfl, ?_⟩
  rw [runSteps, replayBlock]
  dsimp only
  rw [nothing]
  simp only [genesisState]
  generalize applyBlock MemState.new genesisBlock 0 = result at applied
  rcases result with ⟨state, e | out⟩
  · exact Bool.noConfusion applied
  · rfl

theorem fresh_node_started : cmdRun .shipped freshNode.store.log = .ok freshNode := by
  rw [cmd_run_records .shipped freshNode.store.log [genesisBlock] genesis_log (by simp), genesis_replayed]
  rfl

end PyGrove.Sample

namespace PyGrove.Node

open Words Steps Frames PyGrove.Core Crypto PyGrove.Consensus PyGrove.State

open Sample in
theorem spend_and_stale_block_survive_restart :
    SurvivesRestart .shipped freshNode ∧
      Along (tryApplyBlock Genesis.shipped.nodeConfig)
        (fun node call => SurvivesRestart .shipped (tryApplyBlock Genesis.shipped.nodeConfig node call).1) freshNode
        [pokeOnce, pokeTwice] := by
  apply clean_calls_survive_restart .shipped freshNode.store.log [genesisBlock] freshNode [pokeOnce, pokeTwice]
    genesis_log genesis_in_order fresh_node_started
  refine ⟨⟨fun _ late => ?_, fun _ _ => ⟨rfl, by decide +kernel, by decide⟩⟩, ⟨?_, ?_⟩, trivial⟩
  · obtain ⟨e, failed⟩ := late_failure_error _ _ _ late.2
    have applied : (applyBlock freshNode.state pokeOnce.block
        (callReward Genesis.shipped.nodeConfig freshNode pokeOnce)).2.toOption.isSome := by decide +kernel
    rw [failed] at applied
    exact Bool.noConfusion applied
  · intro acceptable
    exact absurd acceptable.parent (by decide +kernel)
  · intro acceptable
    exact absurd acceptable.parent (by decide +kernel)

-- The first tx of the rejected block stays in the state and is not in the log.
-- A block that continues from it is taken, and then the node no longer starts.
open Sample in
theorem rejected_block_breaks_restart :
    let rejected := (tryApplyBlock Genesis.shipped.nodeConfig freshNode pokeTwice).1
    let extended := (tryApplyBlock Genesis.shipped.nodeConfig rejected pokeNext).1
    cmdRun .shipped freshNode.store.log = .ok freshNode ∧
      (∃ restarted, cmdRun .shipped rejected.store.log = .ok restarted ∧ restarted.state ≠ rejected.state) ∧
      cmdRun .shipped extended.store.log = .error (.replay 1 (.nonceMismatch 0 1 0)) := by
  intro rejected extended
  have sameLog : rejected.store = freshNode.store := by decide +kernel
  refine ⟨fresh_node_started, ⟨freshNode, by rw [sameLog, fresh_node_started], ?_⟩, ?_⟩
  · intro sameState
    have sender := congrArg (fun state => state.get .accounts (pokeSelf 0).1.fromAccount.id.toList) sameState
    revert sender
    decide +kernel
  · have grown : extended.store = (freshNode.store.append pokeNext.block .done).1 := by decide +kernel
    have whole := records_snoc blockCodec freshNode.store.log [genesisBlock] pokeNext.block genesis_log (by decide +kernel)
    have log : extended.store.log = freshNode.store.log ++ record blockCodec pokeNext.block := by rw [grown]; rfl
    rw [log, cmd_run_records .shipped _ ([genesisBlock] ++ [pokeNext.block]) whole (by simp),
      replay_snoc .shipped [genesisBlock] pokeNext.block _ genesis_in_order genesis_replayed]
    have stale := replay_block_error .shipped ([genesisBlock] ++ [pokeNext.block]) ⟨genesisState, 0, some 0⟩
      pokeNext.block (.nonceMismatch 0 1 0) (by decide +kernel)
    rw [stale]
    rfl

end PyGrove.Node
