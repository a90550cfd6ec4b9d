import PyGrove.Consensus.RetargetRuns
import PyGrove.Node.Restart

set_option autoImplicit false

namespace PyGrove.Node

open Words Steps PyGrove.Core Crypto PyGrove.Consensus PyGrove.State

def NodeConfig.retargetParams (config : NodeConfig) : RetargetParams where
  targetBlockTimeMs := config.targetBlockTimeMs
  bootstrapHeight := config.emission.bootstrapHeight
  bootstrapAsertTauMs := config.bootstrapAsertTauMs
  asertTauMs := config.asertTauMs

def retargetTip (header : BlockHeader) : RetargetTip := ⟨header.bits, header.height, header.timestampMs⟩

def blockTarget (block : Block) : ℕ := targetNat (targetFromBits block.header.bits)

section
variable [HashFns]

theorem acceptable_next_tip (config : NodeConfig) (nowMs : U64) (tip block : Block)
    (acceptable : Acceptable config nowMs (some tip) block) :
    nextTip config.retargetParams (retargetTip tip.header) block.header.timestampMs = some (retargetTip block.header) := by
  have bits := acceptable.bits
  have height := acceptable.height
  rw [expectedBits, tipView] at bits
  rw [tipView] at height
  dsimp only at bits height
  rw [nextTip, retargetTip, NodeConfig.retargetParams]
  dsimp only
  rw [bits, Option.map_some, ← height]
  rfl

variable [SigFns] [StateCbor]

theorem call_eases (config : NodeConfig) (node : NodeState) (call : Submission) (tip : Block)
    (held : node.store.tip = some tip) (nonzero : upperHalf (targetFromBits tip.header.bits) ≠ 0) :
    ∃ after, (tryApplyBlock config node call).1.store.tip = some after ∧
      upperHalf (targetFromBits after.header.bits) ≠ 0 ∧
      ((tryApplyBlock config node call).2 = .ok () → blockTarget after * 100 ≤ blockTarget tip * 108) ∧
      ∀ e, (tryApplyBlock config node call).2 = .error e → after = tip := by
  have outcome := try_apply_block_outcome config node call
  generalize tryApplyBlock config node call = result at outcome
  cases outcome with
  | refused e => exact ⟨tip, held, nonzero, (fun ok => by cases ok), fun _ _ => rfl⟩
  | notApplied state e acceptable applied => exact ⟨tip, held, nonzero, (fun ok => by cases ok), fun _ _ => rfl⟩
  | notLogged state out written acceptable applied failed => exact ⟨tip, held, nonzero, (fun ok => by cases ok), fun _ _ => rfl⟩
  | logged state out acceptable applied done =>
      rw [held] at acceptable
      have moved := acceptable_next_tip config call.nowMs tip call.block acceptable
      obtain ⟨next, produced, valid⟩ := next_tip_valid config.retargetParams (retargetTip tip.header)
        call.block.header.timestampMs nonzero
      obtain rfl := Option.some.inj (moved.symm.trans produced)
      have eased : blockTarget call.block * 100 ≤ blockTarget tip * 108 := by
        rw [blockTarget, blockTarget]
        exact next_tip_eases config.retargetParams (retargetTip tip.header) (retargetTip call.block.header)
          call.block.header.timestampMs nonzero moved
      exact ⟨call.block, rfl, valid.2.2, fun _ => eased, (fun e failed => by cases failed)⟩

def RefusedKeepsTip (config : NodeConfig) (node : NodeState) (call : Submission) : Prop :=
  ∀ e, (tryApplyBlock config node call).2 = .error e → (tryApplyBlock config node call).1.store.tip = node.store.tip

theorem accepted_blocks_ease_slowly (config : NodeConfig) (start : NodeState) (calls : List Submission) (tip : Block)
    (held : start.store.tip = some tip) (nonzero : upperHalf (targetFromBits tip.header.bits) ≠ 0) :
    let accepted := (replies (tryApplyBlock config) start calls).countP Except.isOk
    Along (tryApplyBlock config) (RefusedKeepsTip config) start calls ∧
      ∃ after, (runCalls (tryApplyBlock config) start calls).store.tip = some after ∧
        blockTarget after * 100 ^ accepted ≤ blockTarget tip * 108 ^ accepted := by
  induction calls generalizing start tip with
  | nil => exact ⟨trivial, tip, held, Nat.le_refl _⟩
  | cons call tail ih =>
      obtain ⟨middle, heldNext, nonzeroNext, taken, kept⟩ := call_eases config start call tip held nonzero
      obtain ⟨still, after, reached, bound⟩ := ih _ middle heldNext nonzeroNext
      have unmoved : RefusedKeepsTip config start call := by
        intro e failed
        rw [heldNext, held, kept e failed]
      refine ⟨⟨unmoved, still⟩, after, reached, ?_⟩
      rw [replies, List.countP_cons]
      generalize List.countP Except.isOk _ = accepted at bound ⊢
      cases result : (tryApplyBlock config start call).2 with
      | error e =>
          rw [kept e result] at bound
          exact bound
      | ok done =>
          calc blockTarget after * 100 ^ (accepted + 1) = blockTarget after * 100 ^ accepted * 100 := by ring
            _ ≤ blockTarget middle * 108 ^ accepted * 100 := Nat.mul_le_mul_right 100 bound
            _ = blockTarget middle * 100 * 108 ^ accepted := by ring
            _ ≤ blockTarget tip * 108 * 108 ^ accepted := Nat.mul_le_mul_right _ (taken result)
            _ = blockTarget tip * 108 ^ (accepted + 1) := by ring

end

open Sample in
theorem poked_chain_eases_slowly :
    let accepted := (replies (tryApplyBlock Genesis.shipped.nodeConfig) freshNode [pokeTwice, pokeOnce]).countP Except.isOk
    Along (tryApplyBlock Genesis.shipped.nodeConfig) (RefusedKeepsTip Genesis.shipped.nodeConfig) freshNode
        [pokeTwice, pokeOnce] ∧
      ∃ after, (runCalls (tryApplyBlock Genesis.shipped.nodeConfig) freshNode [pokeTwice, pokeOnce]).store.tip = some after ∧
        blockTarget after * 100 ^ accepted ≤ blockTarget genesisBlock * 108 ^ accepted :=
  accepted_blocks_ease_slowly Genesis.shipped.nodeConfig freshNode [pokeTwice, pokeOnce] genesisBlock rfl (by decide +kernel)

end PyGrove.Node
