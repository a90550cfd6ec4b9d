import PyGrove.Consensus.SlewRecovery
import PyGrove.Node.SupplyAudit

set_option autoImplicit false

namespace PyGrove.Consensus

open Words Steps

-- Three initial rewards: what the floor of the slew limit still forces out when
-- the schedule is used up is 3/4 of the last reward, 3/4 of that, and so on.
def slewTail : ℕ := 3 * EmissionParams.bitcoinLike.initialRewardSat.toNat

def OnSchedule (genesisTimeMs latest : U64) (mintedSoFar : U128) (prevReward : Option U128) : Prop :=
  mintedSoFar.toNat + 3 * (prevReward.map BitVec.toNat).getD 0 ≤
    (scheduledSupplyAt (latest - genesisTimeMs) .bitcoinLike).toNat + slewTail

theorem reward_on_schedule (genesisTimeMs latest timestampMs parentTimestampMs : U64) (minted : U128) (height : U64)
    (prev : Option U128) (stamped : timestampMs ≤ latest) (bounded : OnSchedule genesisTimeMs latest minted prev) :
    let reward := currentRewardWithHeight .bitcoinLike genesisTimeMs timestampMs parentTimestampMs minted height prev
    OnSchedule genesisTimeMs latest (saturatingAdd minted reward) (some reward) := by
  intro reward
  rw [OnSchedule] at bounded
  have paid : minted.toNat + 4 * reward.toNat ≤
      (scheduledSupplyAt (latest - genesisTimeMs) .bitcoinLike).toNat + slewTail := by
    by_cases early : timestampMs ≤ genesisTimeMs
    · have nothing : reward = 0 := if_pos early
      rw [nothing, show (0 : U128).toNat = 0 from rfl]
      omega
    · have limited : reward = slewLimit .bitcoinLike prev
          (cappedReward .bitcoinLike genesisTimeMs timestampMs parentTimestampMs minted height) := if_neg early
      by_cases below : reward.toNat ≤
          (cappedReward .bitcoinLike genesisTimeMs timestampMs parentTimestampMs minted height).toNat
      · obtain ⟨calendar, epoch, _⟩ := (le_capped_reward_iff ..).mp below
        have initial := epoch_reward_le_initial .bitcoinLike (timestampMs - genesisTimeMs)
        have later := scheduled_supply_mono _ _
          (elapsed_mono genesisTimeMs timestampMs latest (BitVec.le_of_lt (BitVec.not_le.mp early)) stamped)
        rw [calendarRemaining, to_nat_saturating_sub] at calendar
        rw [slewTail] at bounded ⊢
        omega
      · rw [limited] at below ⊢
        obtain ⟨last, known, floor⟩ := slew_limit_floor _ _ _ below
        have decay := to_nat_slew_down last
        rw [known, Option.map_some, Option.getD_some] at bounded
        omega
  have sum : (saturatingAdd minted reward).toNat ≤ minted.toNat + reward.toNat := by
    rw [to_nat_saturating_add]
    exact Nat.min_le_left ..
  rw [OnSchedule, Option.map_some, Option.getD_some]
  omega

end PyGrove.Consensus

namespace PyGrove.Node

open Words Steps Frames PyGrove.Core Crypto PyGrove.Consensus PyGrove.State

section
variable [HashFns] [SigFns] [StateCbor]

theorem on_schedule_call (config : NodeConfig) (shipped : config.emission = .bitcoinLike) (node : NodeState)
    (call : Submission) (latest : U64) (clock : call.nowMs + futureTimeToleranceMs ≤ latest)
    (bounded : OnSchedule config.genesisTimeMs latest node.mintedSoFar node.prevRewardSat) :
    let next := (tryApplyBlock config node call).1
    OnSchedule config.genesisTimeMs latest next.mintedSoFar next.prevRewardSat := by
  intro next
  have counted (acceptable : Acceptable config call.nowMs node.store.tip call.block) :
      OnSchedule config.genesisTimeMs latest (saturatingAdd node.mintedSoFar (callReward config node call))
        (some (callReward config node call)) := by
    have stamped := BitVec.le_trans (BitVec.not_lt.mp acceptable.skew) clock
    have paid := reward_on_schedule config.genesisTimeMs latest call.block.header.timestampMs
      (rewardParentTs config node.store.tip) node.mintedSoFar call.block.header.height node.prevRewardSat stamped bounded
    rwa [← shipped] at paid
  have outcome := try_apply_block_outcome config node call
  simp only [next]
  generalize tryApplyBlock config node call = result at outcome ⊢
  cases outcome with
  | refused e => exact bounded
  | notApplied state e acceptable applied => exact bounded
  | notLogged state out written acceptable applied failed => exact counted acceptable
  | logged state out acceptable applied done => exact counted acceptable

theorem on_schedule_calls (config : NodeConfig) (shipped : config.emission = .bitcoinLike) (node : NodeState)
    (calls : List Submission) (latest : U64) (clock : ∀ call ∈ calls, call.nowMs + futureTimeToleranceMs ≤ latest)
    (bounded : OnSchedule config.genesisTimeMs latest node.mintedSoFar node.prevRewardSat) :
    let final := runCalls (tryApplyBlock config) node calls
    OnSchedule config.genesisTimeMs latest final.mintedSoFar final.prevRewardSat := by
  induction calls generalizing node with
  | nil => exact bounded
  | cons call tail ih =>
      exact ih _ (fun other member => clock other (List.mem_cons_of_mem _ member))
        (on_schedule_call config shipped node call latest (clock call List.mem_cons_self) bounded)

variable [HexFns]

theorem on_schedule_replay (g : Genesis) (shipped : g.emissionParams = .bitcoinLike) (blocks : List Block) (latest : U64)
    (stamped : ∀ block ∈ blocks, block.header.timestampMs ≤ latest) (reached : Replayed)
    (replayed : replay g blocks = .ok reached) :
    OnSchedule g.genesisTimeMs latest reached.mintedSoFar reached.prevReward := by
  obtain ⟨mem, initial, ran⟩ := (replay_ok g blocks reached).mp replayed
  have through := run_steps_invariant (replayBlock g blocks)
    (fun reached => OnSchedule g.genesisTimeMs latest reached.mintedSoFar reached.prevReward) blocks ⟨mem, 0, none⟩
    (Nat.zero_le _) ?_
  · rwa [ran] at through
  · intro block member state next bounded taken
    obtain ⟨reward, rewardEq, _, minted, prev⟩ := replay_block_ok g blocks state next block taken
    have paid := reward_on_schedule g.genesisTimeMs latest block.header.timestampMs (parentTimestamp g blocks block.header)
      state.mintedSoFar block.header.height state.prevReward (stamped block member) bounded
    rw [minted, prev, rewardEq, shipped]
    exact paid

theorem issuance_follows_clock (g : Genesis) (shipped : g.emissionParams = .bitcoinLike) (log : List U8)
    (blocks : List Block) (whole : Records blockCodec log blocks) (start : NodeState)
    (started : cmdRun g log = .ok start) (latest : U64) (stamped : ∀ block ∈ blocks, block.header.timestampMs ≤ latest)
    (calls : List Submission) (clock : ∀ call ∈ calls, call.nowMs + futureTimeToleranceMs ≤ latest) :
    let node := runCalls (tryApplyBlock g.nodeConfig) start calls
    Ledger.total (balances node.state) ≤ node.mintedSoFar.toNat ∧
      node.mintedSoFar.toNat ≤ (scheduledSupplyAt (latest - g.genesisTimeMs) .bitcoinLike).toNat +
        3 * EmissionParams.bitcoinLike.initialRewardSat.toNat := by
  intro node
  have audited := audited_calls g.nodeConfig shipped start calls 0 (audited_start g shipped log start started)
  have replayed : replay g blocks = .ok ⟨start.state, start.mintedSoFar, start.prevRewardSat⟩ := by
    have again := started
    rw [cmd_run_records g log blocks whole (cmd_run_nonempty g log blocks start whole started)] at again
    cases ran : replay g blocks with
    | error e =>
        rw [ran] at again
        cases again
    | ok reached =>
        rw [ran] at again
        cases again
        rfl
  have bounded := on_schedule_calls g.nodeConfig shipped start calls latest clock
    (on_schedule_replay g shipped blocks latest stamped _ replayed)
  exact ⟨Nat.le.intro audited.held, Nat.le_trans (Nat.le_add_right _ _) bounded⟩

end

open Sample in
theorem pokes_follow_clock :
    let node := runCalls (tryApplyBlock Genesis.shipped.nodeConfig) freshNode [pokeTwice, pokeOnce]
    Ledger.total (balances node.state) ≤ node.mintedSoFar.toNat ∧
      node.mintedSoFar.toNat ≤ (scheduledSupplyAt (1778724620000 - Genesis.shipped.genesisTimeMs) .bitcoinLike).toNat +
        3 * EmissionParams.bitcoinLike.initialRewardSat.toNat :=
  issuance_follows_clock .shipped shipped_emission_params freshNode.store.log [genesisBlock] genesis_log freshNode
    fresh_node_started 1778724620000 (by decide +kernel) [pokeTwice, pokeOnce] (by decide +kernel)

end PyGrove.Node
