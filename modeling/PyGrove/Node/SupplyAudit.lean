import PyGrove.Node.Restart
import PyGrove.State.BurntFees

set_option autoImplicit false

namespace PyGrove.Node

open Words Steps PyGrove.Core Crypto PyGrove.Consensus PyGrove.State

section
variable [HashFns] [SigFns] [StateCbor]

structure Audited (state : MemState) (mintedSoFar : U128) (prevReward : Option U128) (burnt : ℕ) : Prop where
  held : Ledger.total (balances state) + burnt = mintedSoFar.toNat
  room : mintedSoFar.toNat + 3 * (prevReward.map BitVec.toNat).getD 0 ≤ supplyCap

omit [SigFns] in
theorem audited_reward (state : MemState) (minted : U128) (prev : Option U128) (burnt : ℕ)
    (audited : Audited state minted prev burnt) (genesisTimeMs timestampMs parentTimestampMs height : U64) :
    minted.toNat + 4 * (currentRewardWithHeight .bitcoinLike genesisTimeMs timestampMs parentTimestampMs minted height
      prev).toNat ≤ supplyCap :=
  mint_potential genesisTimeMs ⟨height, parentTimestampMs, minted, prev⟩ timestampMs audited.room

theorem audited_applied (state final : MemState) (minted reward : U128) (prev : Option U128) (burnt : ℕ) (block : Block)
    (out : ApplyOutput) (audited : Audited state minted prev burnt) (room : minted.toNat + 4 * reward.toNat ≤ supplyCap)
    (applied : applyBlock state block reward = (final, .ok out)) :
    Audited final (saturatingAdd minted reward) (some reward) (burnt + burntFees state block reward) := by
  have cap : supplyCap < 2 ^ 128 - 1 := by decide
  have held := audited.held
  obtain ⟨total, nothing⟩ := accepted_total state final block reward out (by omega) applied
  have sum : (saturatingAdd minted reward).toNat = minted.toNat + reward.toNat := by
    rw [to_nat_saturating_add]
    omega
  constructor
  · omega
  · rw [sum, Option.map_some, Option.getD_some]
    omega

theorem audited_rejected (state final : MemState) (minted reward : U128) (prev : Option U128) (burnt : ℕ) (block : Block)
    (e : ApplyError) (audited : Audited state minted prev burnt) (room : minted.toNat + 4 * reward.toNat ≤ supplyCap)
    (rejected : applyBlock state block reward = (final, .error e)) :
    Audited final minted prev (burnt + burntFees state block reward) := by
  have cap : supplyCap < 2 ^ 128 - 1 := by decide
  have held := audited.held
  have total := rejected_total state final block reward e (by omega) rejected
  exact ⟨by omega, audited.room⟩

def callBurns (config : NodeConfig) (node : NodeState) (call : Submission) : ℕ :=
  match checkBlock config call.nowMs node.store.tip call.block with
  | .error _ => 0
  | .ok () => burntFees node.state call.block (callReward config node call)

def burningCall (config : NodeConfig) (node : NodeState) (call : Submission) : NodeState × ℕ :=
  ((tryApplyBlock config node call).1, callBurns config node call)

theorem audited_call (config : NodeConfig) (shipped : config.emission = .bitcoinLike) (node : NodeState)
    (call : Submission) (burnt : ℕ) (audited : Audited node.state node.mintedSoFar node.prevRewardSat burnt) :
    let next := (tryApplyBlock config node call).1
    Audited next.state next.mintedSoFar next.prevRewardSat (burnt + callBurns config node call) := by
  intro next
  have room := audited_reward _ _ _ _ audited config.genesisTimeMs call.block.header.timestampMs
    (rewardParentTs config node.store.tip) call.block.header.height
  rw [← shipped] at room
  cases checked : checkBlock config call.nowMs node.store.tip call.block with
  | error e =>
      have same : next = node := by simp only [next, tryApplyBlock, checked]
      rw [callBurns, checked, same]
      exact audited
  | ok done =>
      rw [callBurns, checked]
      dsimp only
      rcases applied : applyBlock node.state call.block (callReward config node call) with ⟨state, e | out⟩
      · have reached : next = { node with state } := by simp only [next, tryApplyBlock, checked, applied]
        rw [reached]
        exact audited_rejected node.state state _ _ _ burnt call.block e audited room applied
      · have counted : next.state = state ∧ next.mintedSoFar = saturatingAdd node.mintedSoFar (callReward config node call) ∧
            next.prevRewardSat = some (callReward config node call) := by
          simp only [next, tryApplyBlock, checked, applied]
          split <;> exact ⟨rfl, rfl, rfl⟩
        rw [counted.1, counted.2.1, counted.2.2]
        exact audited_applied node.state state _ _ _ burnt call.block out audited room applied

theorem audited_calls (config : NodeConfig) (shipped : config.emission = .bitcoinLike) (node : NodeState)
    (calls : List Submission) (burnt : ℕ) (audited : Audited node.state node.mintedSoFar node.prevRewardSat burnt) :
    let final := runCalls (tryApplyBlock config) node calls
    Audited final.state final.mintedSoFar final.prevRewardSat
      (burnt + (replies (burningCall config) node calls).sum) := by
  induction calls generalizing node burnt with
  | nil => exact audited
  | cons call tail ih =>
      have rest := ih _ _ (audited_call config shipped node call burnt audited)
      rwa [Nat.add_assoc] at rest

variable [HexFns]

omit [SigFns] in
theorem initial_total (g : Genesis) (mem : MemState) (initial : g.initialState = .ok mem) :
    Ledger.total (balances mem) = 0 := by
  have nothing : balances mem = balances MemState.new := by
    funext id
    rw [balances, balances, initial_accounts g mem initial, load_new]
  rw [nothing, empty_store_total]

theorem audited_replay (g : Genesis) (shipped : g.emissionParams = .bitcoinLike) (blocks : List Block)
    (reached : Replayed) (replayed : replay g blocks = .ok reached) :
    Audited reached.mem reached.mintedSoFar reached.prevReward 0 := by
  obtain ⟨mem, initial, ran⟩ := (replay_ok g blocks reached).mp replayed
  have through := run_steps_invariant (replayBlock g blocks)
    (fun reached => Audited reached.mem reached.mintedSoFar reached.prevReward 0) blocks ⟨mem, 0, none⟩
    ⟨initial_total g mem initial, Nat.zero_le _⟩ ?_
  · rwa [ran] at through
  · intro block _ state next audited taken
    obtain ⟨reward, rewardEq, ⟨out, applied⟩, minted, prev⟩ := replay_block_ok g blocks state next block taken
    have room := audited_reward _ _ _ _ audited g.genesisTimeMs block.header.timestampMs
      (parentTimestamp g blocks block.header) block.header.height
    rw [← shipped, ← rewardEq] at room
    have cap : supplyCap < 2 ^ 128 := by decide
    have held := audited.held
    have grown := audited_applied state.mem next.mem _ _ _ 0 block out audited room applied
    have nothing := (accepted_total state.mem next.mem block _ out (by omega) applied).2
    rw [minted, prev]
    rwa [nothing] at grown

theorem replay_last_audited (g : Genesis) (shipped : g.emissionParams = .bitcoinLike) (blocks : List Block) (block : Block)
    (reached : Replayed) (ordered : InOrder blocks) (replayed : replay g (blocks ++ [block]) = .ok reached) :
    ∃ middle reward out, replay g blocks = .ok middle ∧
      reward = currentRewardWithHeight g.emissionParams g.genesisTimeMs block.header.timestampMs
        (parentTimestamp g (blocks ++ [block]) block.header) middle.mintedSoFar block.header.height middle.prevReward ∧
      Audited middle.mem middle.mintedSoFar middle.prevReward 0 ∧
      middle.mintedSoFar.toNat + 4 * reward.toNat ≤ supplyCap ∧
      applyBlock middle.mem block reward = (reached.mem, .ok out) ∧
      reached.mintedSoFar = saturatingAdd middle.mintedSoFar reward := by
  obtain ⟨middle, earlier, last⟩ := replay_snoc_ok g blocks block reached ordered replayed
  obtain ⟨reward, rewardEq, ⟨out, applied⟩, minted, _⟩ := replay_block_ok g _ middle reached block last
  have audited := audited_replay g shipped blocks middle earlier
  have room := audited_reward _ _ _ _ audited g.genesisTimeMs block.header.timestampMs
    (parentTimestamp g (blocks ++ [block]) block.header) block.header.height
  rw [← shipped, ← rewardEq] at room
  exact ⟨middle, reward, out, earlier, rewardEq, audited, room, applied, minted⟩

theorem audited_start (g : Genesis) (shipped : g.emissionParams = .bitcoinLike) (log : List U8) (start : NodeState)
    (started : cmdRun g log = .ok start) : Audited start.state start.mintedSoFar start.prevRewardSat 0 := by
  obtain ⟨blocks, replayed⟩ := cmd_run_replayed g log start started
  exact audited_replay g shipped blocks _ replayed

theorem minted_accounted (g : Genesis) (shipped : g.emissionParams = .bitcoinLike) (log : List U8) (start : NodeState)
    (started : cmdRun g log = .ok start) (calls : List Submission) :
    let node := runCalls (tryApplyBlock g.nodeConfig) start calls
    Ledger.total (balances node.state) + (replies (burningCall g.nodeConfig) start calls).sum = node.mintedSoFar.toNat ∧
      node.mintedSoFar.toNat ≤ supplyCap := by
  intro node
  have audited := audited_calls g.nodeConfig shipped start calls 0 (audited_start g shipped log start started)
  have held := audited.held
  have room := audited.room
  rw [Nat.zero_add] at held
  exact ⟨held, Nat.le_trans (Nat.le_add_right _ _) audited.room⟩

end

open Sample in
theorem rejected_poke_burns :
    let node := runCalls (tryApplyBlock Genesis.shipped.nodeConfig) freshNode [pokeTwice, pokeOnce]
    Ledger.total (balances node.state) + (replies (burningCall Genesis.shipped.nodeConfig) freshNode [pokeTwice, pokeOnce]).sum =
        node.mintedSoFar.toNat ∧
      node.mintedSoFar.toNat ≤ supplyCap :=
  minted_accounted .shipped shipped_emission_params freshNode.store.log freshNode fresh_node_started [pokeTwice, pokeOnce]

end PyGrove.Node
