import Mathlib.Data.List.Chain
import PyGrove.Lib.Interleave
import PyGrove.Node.Restart

set_option autoImplicit false

namespace PyGrove.Node

open Words Steps Frames Interleave PyGrove.Core Crypto PyGrove.Consensus PyGrove.State

-- How far a call of try_apply_block is, with the locals that later steps
-- still read. tip is the block of the first read.
inductive Phase where
  | start
  | readParentTime (tip : Option Block)
  | readMinted (tip : Option Block) (parentTs : U64)
  | readPrevReward (tip : Option Block) (parentTs : U64) (minted : U128)
  | applying (tip : Option Block) (minted reward : U128)
  | writeMinted (tip : Option Block) (minted reward : U128)
  | writePrevReward (tip : Option Block) (reward : U128)
  | confirming (tip : Option Block) (reward : U128)
  | appending (tip : Option Block) (reward : U128)
  | refused (e : SubmitError)
  | unlogged (e : StoreError)
  | appended (reward : U128)

namespace Phase

def result : Phase → Option (Except SubmitError Unit)
  | .refused e => some (.error e)
  | .unlogged e => some (.error (.append e))
  | .appended _ => some (.ok ())
  | _ => none

def tipRead : Phase → Option (Option Block)
  | .readParentTime tip => some tip
  | .readMinted tip _ => some tip
  | .readPrevReward tip _ _ => some tip
  | .applying tip _ _ => some tip
  | .writeMinted tip _ _ => some tip
  | .writePrevReward tip _ => some tip
  | .confirming tip _ => some tip
  | .appending tip _ => some tip
  | _ => none

def applies : Phase → Option (Option Block × U128 × U128)
  | .applying tip minted reward => some (tip, minted, reward)
  | _ => none

def mintedRead : Phase → Option U128
  | .readPrevReward _ _ minted => some minted
  | .applying _ minted _ => some minted
  | .writeMinted _ minted _ => some minted
  | _ => none

def holding : Phase → Bool
  | .writeMinted .. => true
  | .writePrevReward .. => true
  | .confirming .. => true
  | .appending .. => true
  | _ => false

def paid : Phase → Nat
  | .appended reward => reward.toNat
  | _ => 0

def credited : Phase → Nat
  | .writePrevReward _ reward => reward.toNat
  | .confirming _ reward => reward.toNat
  | .appending _ reward => reward.toNat
  | .appended reward => reward.toNat
  | _ => 0

def owed : Phase → Nat
  | .writeMinted _ _ reward => reward.toNat
  | .writePrevReward _ reward => reward.toNat
  | .confirming _ reward => reward.toNat
  | .appending _ reward => reward.toNat
  | .appended reward => reward.toNat
  | _ => 0

def logged (call : Submission) : Phase → List Block
  | .appended _ => [call.block]
  | _ => []

theorem paid_settled (phase : Phase) (settled : phase.holding = false) :
    phase.credited = phase.paid ∧ phase.owed = phase.paid := by
  cases phase <;> first | exact ⟨rfl, rfl⟩ | cases settled

theorem credited_le_owed (phase : Phase) : phase.credited ≤ phase.owed := by
  cases phase <;> first | exact Nat.le_refl _ | exact Nat.zero_le _

end Phase

section
variable [HashFns] [SigFns] [StateCbor]

def submitStep (config : NodeConfig) (call : Submission) (node : NodeState) : Phase → NodeState × Phase
  | .start =>
      match checkBlock config call.nowMs node.store.tip call.block with
      | .error e => (node, .refused e)
      | .ok () => (node, .readParentTime node.store.tip)
  | .readParentTime tip => (node, .readMinted tip (rewardParentTs config node.store.tip))
  | .readMinted tip parentTs => (node, .readPrevReward tip parentTs node.mintedSoFar)
  | .readPrevReward tip parentTs minted =>
      (node, .applying tip minted (blockReward config call.block.header parentTs minted node.prevRewardSat))
  | .applying tip minted reward =>
      match applyBlock node.state call.block reward with
      | (state, .error e) => ({ node with state }, .refused (.applyBlock e))
      | (state, .ok _) => ({ node with state }, .writeMinted tip minted reward)
  | .writeMinted tip minted reward =>
      ({ node with mintedSoFar := saturatingAdd minted reward }, .writePrevReward tip reward)
  | .writePrevReward tip reward => ({ node with prevRewardSat := some reward }, .confirming tip reward)
  | .confirming tip reward =>
      ({ node with mempool := node.mempool.confirm (confirmedHashes call.block) }, .appending tip reward)
  | .appending _ reward =>
      match node.store.append call.block call.write with
      | (store, .error e) => ({ node with store }, .unlogged e)
      | (store, .ok ()) => ({ node with store }, .appended reward)
  | .refused e => (node, .refused e)
  | .unlogged e => (node, .unlogged e)
  | .appended reward => (node, .appended reward)

theorem alone_try_apply_block (config : NodeConfig) (call : Submission) (node : NodeState) :
    (alone (submitStep config) call 9 (node, .start)).1 = (tryApplyBlock config node call).1 ∧
      (alone (submitStep config) call 9 (node, .start)).2.result = some (tryApplyBlock config node call).2 := by
  have checks : alone (submitStep config) call 9 (node, .start) =
      alone (submitStep config) call 8 (submitStep config call node .start) := rfl
  cases checked : checkBlock config call.nowMs node.store.tip call.block with
  | error e =>
      have refused : submitStep config call node .start = (node, .refused e) := by rw [submitStep, checked]
      rw [checks, refused, tryApplyBlock, checked]
      exact ⟨rfl, rfl⟩
  | ok passed =>
      have accepted : submitStep config call node .start = (node, .readParentTime node.store.tip) := by
        rw [submitStep, checked]
      have reads : alone (submitStep config) call 8 (node, .readParentTime node.store.tip) =
          alone (submitStep config) call 4 (submitStep config call node
            (.applying node.store.tip node.mintedSoFar (callReward config node call))) := rfl
      rw [checks, accepted, reads, tryApplyBlock, checked, submitStep]
      dsimp only
      rcases applyBlock node.state call.block (callReward config node call) with ⟨state, e | out⟩
      · exact ⟨rfl, rfl⟩
      · have writes : alone (submitStep config) call 4
            ({ node with state }, .writeMinted node.store.tip node.mintedSoFar (callReward config node call)) =
            submitStep config call
              { node with
                state
                mempool := node.mempool.confirm (confirmedHashes call.block)
                mintedSoFar := saturatingAdd node.mintedSoFar (callReward config node call)
                prevRewardSat := some (callReward config node call) }
              (.appending node.store.tip (callReward config node call)) := rfl
        dsimp only
        rw [writes, submitStep]
        cases call.write with
        | done => exact ⟨rfl, rfl⟩
        | fails written => exact ⟨rfl, rfl⟩

theorem serial_calls (config : NodeConfig) (a b : Submission) (node : NodeState) :
    let race := runCalls (move (submitStep config) a b) ⟨node, .start, .start⟩
      (List.replicate 9 .left ++ List.replicate 9 .right)
    race.shared = (tryApplyBlock config (tryApplyBlock config node a).1 b).1 ∧
      race.left.result = some (tryApplyBlock config node a).2 ∧
      race.right.result = some (tryApplyBlock config (tryApplyBlock config node a).1 b).2 := by
  intro race
  obtain ⟨first, firstResult⟩ := alone_try_apply_block config a node
  obtain ⟨second, secondResult⟩ := alone_try_apply_block config b (tryApplyBlock config node a).1
  have left := run_left_alone (submitStep config) a b 9 ⟨node, .start, .start⟩
  have split : race = runCalls (move (submitStep config) a b)
      (runCalls (move (submitStep config) a b) ⟨node, .start, .start⟩ (List.replicate 9 .left)) (List.replicate 9 .right) :=
    List.foldl_append
  rw [left] at split
  rw [run_right_alone] at split
  dsimp only at split
  rw [split, ← first, ← firstResult]
  rw [← first] at second secondResult
  exact ⟨second, rfl, secondResult⟩

end

end PyGrove.Node
