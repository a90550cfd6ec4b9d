import PyGrove.Consensus.StabilityBias
import PyGrove.Node.SupplyAudit
import PyGrove.State.ReflectionHistory

set_option autoImplicit false

namespace PyGrove.Node

open Words Steps Frames PyGrove.Core Crypto PyGrove.Consensus PyGrove.State

section
variable [HashFns] [SigFns] [StateCbor]

structure Chronicled (state : MemState) (minted : U128) (blocks : List Block) : Prop where
  records : ∃ rewards : List U128,
    List.Forall₂ (fun block reward => loadReflectionAt state block.header.height = some (blockRecord block reward))
      blocks rewards ∧ (rewards.map BitVec.toNat).sum = minted.toNat
  latest : loadLatestReflection state = blocks.getLast?.bind fun tip => loadReflectionAt state tip.header.height
  beyond : ∀ height : U64, blocks.length ≤ height.toNat → loadReflectionAt state height = none
  fees : ∀ block ∈ blocks, bodyFees block ≤ supplyCap

theorem chronicled_applied (state final : MemState) (minted reward : U128) (prev : Option U128) (burnt : ℕ)
    (blocks : List Block) (block : Block) (out : ApplyOutput) (audited : Audited state minted prev burnt)
    (room : minted.toNat + 4 * reward.toNat ≤ supplyCap) (chronicled : Chronicled state minted blocks)
    (ordered : InOrder blocks) (height : block.header.height.toNat = blocks.length)
    (applied : applyBlock state block reward = (final, .ok out)) :
    Chronicled final (saturatingAdd minted reward) (blocks ++ [block]) := by
  have cap : supplyCap < 2 ^ 128 - 1 := by decide
  have held := audited.held
  have recorded := accepted_recorded state final block reward out applied
  obtain ⟨rewards, kept, total⟩ := chronicled.records
  refine ⟨⟨rewards ++ [reward], ?_, ?_⟩, ?_, ?_, ?_⟩
  · -- A block of the log stands below the new height, so its record is an untouched one.
    refine List.rel_append ?_ (.cons recorded.written .nil)
    refine (List.forall₂_iff_get.mpr ⟨kept.length_eq, fun i inside bound => ?_⟩)
    have position := ordered i blocks[i] (List.getElem?_eq_getElem inside)
    have apart : block.header.height ≠ blocks[i].header.height := by
      intro same
      rw [← same, height] at position
      omega
    rw [List.get_eq_getElem, recorded.others _ apart]
    exact kept.get inside bound
  · rw [List.map_append, List.sum_append, total, List.map_singleton, List.sum_singleton, to_nat_saturating_add]
    omega
  · rw [List.getLast?_concat, recorded.latest, Option.bind_some, recorded.written]
  · intro other above
    rw [List.length_append, List.length_singleton] at above
    rw [recorded.others other (by intro same; rw [← same, height] at above; omega)]
    exact chronicled.beyond other (by omega)
  · intro member present
    rcases List.mem_append.mp present with earlier | last
    · exact chronicled.fees member earlier
    · rw [List.mem_singleton.mp last]
      exact (accepted_fees_funded state final block reward out (by omega) applied).trans (by omega)

def WholeAppend (config : NodeConfig) (node : NodeState) (call : Submission) : Prop :=
  Acceptable config call.nowMs node.store.tip call.block →
    (∃ out, (applyBlock node.state call.block (callReward config node call)).2 = .ok out) →
      call.write = .done ∧ (blockCodec.encode call.block).length < 2 ^ 32 ∧
        ∀ tip ∈ node.store.tip, tip.header.height ≠ BitVec.allOnes 64

structure LogChronicled (node : NodeState) (burnt : ℕ) (blocks : List Block) : Prop where
  holds : node.store.Holds blocks
  ordered : InOrder blocks
  nonempty : blocks ≠ []
  audited : Audited node.state node.mintedSoFar node.prevRewardSat burnt
  chronicled : Chronicled node.state node.mintedSoFar blocks

theorem log_chronicled_call (config : NodeConfig) (shipped : config.emission = .bitcoinLike) (node : NodeState)
    (call : Submission) (burnt : ℕ) (blocks : List Block) (log : LogChronicled node burnt blocks)
    (appends : WholeAppend config node call) :
    ∃ after, LogChronicled (tryApplyBlock config node call).1 (burnt + callBurns config node call) after := by
  have audited := audited_call config shipped node call burnt log.audited
  dsimp only at audited
  have outcome := try_apply_block_outcome config node call
  generalize tryApplyBlock config node call = result at outcome audited
  cases outcome with
  | refused e => exact ⟨blocks, log.holds, log.ordered, log.nonempty, audited, log.chronicled⟩
  | notApplied state e acceptable applied =>
      -- A late failure leaves spends and effects behind, but no reflection record.
      have same := rejected_reflections node.state state call.block _ e applied
      obtain ⟨rewards, kept, total⟩ := log.chronicled.records
      refine ⟨blocks, log.holds, log.ordered, log.nonempty, audited, ⟨rewards, ?_, total⟩, ?_, ?_, log.chronicled.fees⟩
      · simpa only [(same_reflections_load state node.state same _).1] using kept
      · simpa only [(same_reflections_load state node.state same _).1, (same_reflections_load state node.state same 0).2]
          using log.chronicled.latest
      · simpa only [(same_reflections_load state node.state same _).1] using log.chronicled.beyond
  | notLogged state out written acceptable applied failed =>
      have done := (appends acceptable ⟨out, by rw [applied]⟩).1
      rw [failed] at done
      cases done
  | logged state out acceptable applied done =>
      obtain ⟨_, sized, room⟩ := appends acceptable ⟨out, by rw [applied]⟩
      have height := acceptable_height config call.nowMs node.store blocks call.block log.holds log.ordered log.nonempty
        acceptable room
      have minted := audited_reward _ _ _ _ log.audited config.genesisTimeMs call.block.header.timestampMs
        (rewardParentTs config node.store.tip) call.block.header.height
      rw [← shipped] at minted
      exact ⟨blocks ++ [call.block], ChainStore.holds_append node.store blocks call.block log.holds sized,
        (in_order_snoc blocks call.block).mpr ⟨log.ordered, height⟩, by simp, audited,
        chronicled_applied node.state state node.mintedSoFar _ _ burnt blocks call.block out log.audited minted
          log.chronicled log.ordered height applied⟩

variable [HexFns]

omit [SigFns] in
theorem initial_chronicled (g : Genesis) (mem : MemState) (initial : g.initialState = .ok mem) : Chronicled mem 0 [] := by
  have empty : ∀ key, StateStore.get mem .reflect key = none := fun key =>
    initial_elsewhere g mem initial .reflect key (by simp)
  refine ⟨⟨[], .nil, rfl⟩, ?_, ?_, by simp⟩
  · rw [loadLatestReflection, loadRecord, empty]
    rfl
  · intro height _
    rw [loadReflectionAt, loadRecord, empty]
    rfl

theorem replay_chronicled (g : Genesis) (shipped : g.emissionParams = .bitcoinLike) (blocks : List Block)
    (reached : Replayed) (ordered : InOrder blocks) (replayed : replay g blocks = .ok reached) :
    Chronicled reached.mem reached.mintedSoFar blocks := by
  induction blocks using List.reverseRecOn generalizing reached with
  | nil =>
      obtain ⟨mem, initial, ran⟩ := (replay_ok g [] reached).mp replayed
      cases ran
      exact initial_chronicled g mem initial
  | append_singleton blocks block ih =>
      obtain ⟨before, height⟩ := (in_order_snoc blocks block).mp ordered
      obtain ⟨middle, reward, out, earlier, _, audited, room, applied, minted⟩ :=
        replay_last_audited g shipped blocks block reached before replayed
      rw [minted]
      exact chronicled_applied middle.mem reached.mem _ _ _ 0 blocks block out audited room (ih middle before earlier)
        before height applied

theorem log_chronicled_start (g : Genesis) (shipped : g.emissionParams = .bitcoinLike) (log : List U8)
    (blocks : List Block) (start : NodeState) (whole : Records blockCodec log blocks) (ordered : InOrder blocks)
    (started : cmdRun g log = .ok start) : LogChronicled start 0 blocks := by
  have synced := cmd_run_synced g log blocks start whole ordered (cmd_run_nonempty g log blocks start whole started) started
  exact ⟨synced.holds, ordered, synced.nonempty, audited_start g shipped log start started,
    replay_chronicled g shipped blocks _ ordered synced.replayed⟩

omit [HexFns] in
theorem log_chronicled_calls (config : NodeConfig) (shipped : config.emission = .bitcoinLike) (start : NodeState)
    (calls : List Submission) (burnt : ℕ) (blocks : List Block) (log : LogChronicled start burnt blocks)
    (appends : Along (tryApplyBlock config) (WholeAppend config) start calls) :
    ∃ burnt after, LogChronicled (runCalls (tryApplyBlock config) start calls) burnt after := by
  induction calls generalizing start burnt blocks with
  | nil => exact ⟨burnt, blocks, log⟩
  | cons call tail ih =>
      obtain ⟨after, next⟩ := log_chronicled_call config shipped start call burnt blocks log appends.1
      exact ih _ _ after next appends.2

theorem reflections_tell_log (g : Genesis) (shipped : g.emissionParams = .bitcoinLike) (log : List U8)
    (blocks : List Block) (start : NodeState) (calls : List Submission) (whole : Records blockCodec log blocks)
    (ordered : InOrder blocks) (started : cmdRun g log = .ok start)
    (appends : Along (tryApplyBlock g.nodeConfig) (WholeAppend g.nodeConfig) start calls) :
    let node := runCalls (tryApplyBlock g.nodeConfig) start calls
    ∃ logged rewards, node.store.loadAll = .ok logged ∧
      List.Forall₂ (fun block reward => loadReflectionAt node.state block.header.height = some (blockRecord block reward))
        logged rewards ∧
      (rewards.map BitVec.toNat).sum = node.mintedSoFar.toNat ∧
      loadLatestReflection node.state = (logged.getLast?.bind fun tip => loadReflectionAt node.state tip.header.height) ∧
      ∀ height : U64, logged.length ≤ height.toNat → loadReflectionAt node.state height = none := by
  intro node
  obtain ⟨_, logged, reached⟩ := log_chronicled_calls g.nodeConfig shipped start calls 0 blocks
    (log_chronicled_start g shipped log blocks start whole ordered started) appends
  obtain ⟨rewards, kept, total⟩ := reached.chronicled.records
  exact ⟨logged, rewards, ChainStore.holds_load _ _ reached.holds, kept, total, reached.chronicled.latest,
    reached.chronicled.beyond⟩

end

open Sample in
theorem pokes_append_whole :
    Along (tryApplyBlock Genesis.shipped.nodeConfig) (WholeAppend Genesis.shipped.nodeConfig) freshNode
      [pokeTwice, pokeOnce] :=
  ⟨fun _ _ => ⟨rfl, by decide +kernel, by decide⟩, fun _ _ => ⟨rfl, by decide +kernel, by decide +kernel⟩, trivial⟩

open Sample in
theorem poked_history :
    let node := runCalls (tryApplyBlock Genesis.shipped.nodeConfig) freshNode [pokeTwice, pokeOnce]
    ∃ logged rewards, node.store.loadAll = .ok logged ∧
      List.Forall₂ (fun block reward => loadReflectionAt node.state block.header.height = some (blockRecord block reward))
        logged rewards ∧
      (rewards.map BitVec.toNat).sum = node.mintedSoFar.toNat ∧
      loadLatestReflection node.state = (logged.getLast?.bind fun tip => loadReflectionAt node.state tip.header.height) ∧
      ∀ height : U64, logged.length ≤ height.toNat → loadReflectionAt node.state height = none :=
  reflections_tell_log .shipped shipped_emission_params freshNode.store.log [genesisBlock] freshNode [pokeTwice, pokeOnce]
    genesis_log genesis_in_order fresh_node_started pokes_append_whole

def senderFees (block : Block) : ℚ := bodyFees block / distinctSenders block

theorem record_values (block : Block) (reward : U128) (fees : bodyFees block ≤ supplyCap)
    (sized : block.body.txs.length < 2 ^ 64) :
    (blockRecord block reward).feeSum.toNat = bodyFees block ∧
      (blockRecord block reward).activeAddresses.toNat = distinctSenders block := by
  have cap : supplyCap < 2 ^ 128 := by decide
  have distinct := (List.dedup_sublist (block.body.txs.map TxBody.fromAccount)).length_le
  rw [List.length_map] at distinct
  constructor
  · exact (BitVec.toNat_ofNat ..).trans (Nat.mod_eq_of_lt (by omega))
  · exact (BitVec.toNat_ofNat ..).trans (Nat.mod_eq_of_lt (by omega))

theorem distinct_senders_pos (block : Block) (paid : block.body.txs ≠ []) : 0 < distinctSenders block := by
  obtain ⟨tx, tail, txs⟩ := List.exists_cons_of_ne_nil paid
  have sender : tx.fromAccount ∈ (block.body.txs.map TxBody.fromAccount).dedup := by
    rw [List.mem_dedup, txs]
    exact List.mem_cons_self
  exact List.length_pos_of_mem sender

theorem record_bias (prev curr : Block) (prevReward currReward : U128) (prevFees : bodyFees prev ≤ supplyCap)
    (currFees : bodyFees curr ≤ supplyCap) (prevSized : prev.body.txs.length < 2 ^ 64)
    (currSized : curr.body.txs.length < 2 ^ 64) :
    (computeStabilityBias (blockRecord prev prevReward) (blockRecord curr currReward)).toInt =
      if prev.body.txs = [] ∨ curr.body.txs = [] then 0 else (SignType.sign (senderFees curr - senderFees prev) : ℤ) := by
  obtain ⟨prevSum, prevActive⟩ := record_values prev prevReward prevFees prevSized
  obtain ⟨currSum, currActive⟩ := record_values curr currReward currFees currSized
  have idle : ∀ block : Block, block.body.txs = [] → distinctSenders block = 0 := by
    intro block empty
    rw [distinctSenders, empty]
    rfl
  have inactive : ∀ (block : Block) (reward : U128),
      (blockRecord block reward).activeAddresses.toNat = distinctSenders block →
      ((blockRecord block reward).activeAddresses = 0 ↔ block.body.txs = []) := by
    intro block reward active
    constructor
    · intro zero
      by_contra paid
      have positive := distinct_senders_pos block paid
      rw [← active, zero] at positive
      exact Nat.lt_irrefl 0 positive
    · intro empty
      apply BitVec.eq_of_toNat_eq
      rw [active, idle block empty]
      rfl
  by_cases nothing : prev.body.txs = [] ∨ curr.body.txs = []
  · rw [if_pos nothing, computeStabilityBias, if_pos]
    · rfl
    · rwa [inactive prev prevReward prevActive, inactive curr currReward currActive]
  · obtain ⟨prevPaid, currPaid⟩ := not_or.mp nothing
    rw [if_neg nothing, (stability_bias_exact_iff _ _ ((inactive prev prevReward prevActive).not.mpr prevPaid)
      ((inactive curr currReward currActive).not.mpr currPaid)).mpr, feeTrend, feePerActive, feePerActive, prevSum,
      prevActive, currSum, currActive]
    · rfl
    · have active := (blockRecord curr currReward).activeAddresses.isLt
      have product : crossed (blockRecord prev prevReward) (blockRecord curr currReward) ≤ supplyCap * 2 ^ 64 := by
        rw [crossed, prevSum]
        exact Nat.mul_le_mul prevFees (Nat.le_of_lt active)
      have room : supplyCap * 2 ^ 64 < 2 ^ 128 - 1 := by decide
      exact .inr (.inl (Nat.lt_of_le_of_lt product room))

section
variable [HashFns] [SigFns] [StateCbor] [HexFns]

theorem logged_bias_exact (g : Genesis) (shipped : g.emissionParams = .bitcoinLike) (log : List U8)
    (blocks : List Block) (start : NodeState) (calls : List Submission) (whole : Records blockCodec log blocks)
    (ordered : InOrder blocks) (started : cmdRun g log = .ok start)
    (appends : Along (tryApplyBlock g.nodeConfig) (WholeAppend g.nodeConfig) start calls) :
    let node := runCalls (tryApplyBlock g.nodeConfig) start calls
    ∃ logged, node.store.loadAll = .ok logged ∧
      ∀ prev ∈ logged, ∀ curr ∈ logged, prev.body.txs.length < 2 ^ 64 → curr.body.txs.length < 2 ^ 64 →
        ∃ before after, loadReflectionAt node.state prev.header.height = some before ∧
          loadReflectionAt node.state curr.header.height = some after ∧
          (computeStabilityBias before after).toInt =
            if prev.body.txs = [] ∨ curr.body.txs = [] then 0
            else (SignType.sign (senderFees curr - senderFees prev) : ℤ) := by
  intro node
  obtain ⟨_, logged, reached⟩ := log_chronicled_calls g.nodeConfig shipped start calls 0 blocks
    (log_chronicled_start g shipped log blocks start whole ordered started) appends
  obtain ⟨rewards, kept, _⟩ := reached.chronicled.records
  refine ⟨logged, ChainStore.holds_load _ _ reached.holds, ?_⟩
  intro prev prevLogged curr currLogged prevSized currSized
  have recorded : ∀ block ∈ logged, ∃ reward,
      loadReflectionAt node.state block.header.height = some (blockRecord block reward) := by
    intro block member
    obtain ⟨i, inside, rfl⟩ := List.mem_iff_getElem.mp member
    exact ⟨_, kept.get inside (kept.length_eq ▸ inside)⟩
  obtain ⟨prevReward, before⟩ := recorded prev prevLogged
  obtain ⟨currReward, after⟩ := recorded curr currLogged
  exact ⟨_, _, before, after, record_bias prev curr prevReward currReward (reached.chronicled.fees prev prevLogged)
    (reached.chronicled.fees curr currLogged) prevSized currSized⟩

end

end PyGrove.Node

namespace PyGrove.Sample

open Words Steps PyGrove.Core PyGrove.Consensus PyGrove.State PyGrove.Node

def nextOn (parent : Block) (nonce : U64) (signed : List (TxBody × Witness)) : Submission :=
  let timestampMs := parent.header.timestampMs + 600000
  let coinbase : Bytes 32 := ⟨(pokeSelf 0).1.fromAccount.id.toList ++ List.replicate 12 0, by simp⟩
  let base := header (parent.header.height + 1) (hashHeader parent.header) timestampMs 0x1F00FFFF
  { nowMs := timestampMs, block := block { base with nonce, coinbase } signed, write := .done }

def payFee (nonce feeSat : U64) : TxBody × Witness :=
  let key := List.replicate 32 7
  signedTx nonce (.transfer (.fromPubkey key) 0) feeSat 3 key (.inline key)

def rewarded : Submission := nextOn genesisBlock 33049 []
def feeThree : Submission := nextOn rewarded.block 48057 [payFee 0 3]
def feeFive : Submission := nextOn feeThree.block 26479 [payFee 1 5]

end PyGrove.Sample

namespace PyGrove.Node

open Words Steps Frames PyGrove.Core Crypto PyGrove.Consensus PyGrove.State

open Sample in
theorem rising_fees_bias :
    let node := runCalls (tryApplyBlock Genesis.shipped.nodeConfig) freshNode [rewarded, feeThree, feeFive]
    ∃ before after, loadReflectionAt node.state 2 = some before ∧ loadReflectionAt node.state 3 = some after ∧
      (computeStabilityBias before after).toInt = 1 := by
  intro node
  have appends : Along (tryApplyBlock Genesis.shipped.nodeConfig) (WholeAppend Genesis.shipped.nodeConfig) freshNode
      [rewarded, feeThree, feeFive] :=
    ⟨fun _ _ => ⟨rfl, by decide +kernel, by decide⟩, fun _ _ => ⟨rfl, by decide +kernel, by decide +kernel⟩,
      fun _ _ => ⟨rfl, by decide +kernel, by decide +kernel⟩, trivial⟩
  obtain ⟨logged, loaded, bias⟩ := logged_bias_exact .shipped shipped_emission_params freshNode.store.log [genesisBlock]
    freshNode [rewarded, feeThree, feeFive] genesis_log genesis_in_order fresh_node_started appends
  have whole : node.store.loadAll = .ok [genesisBlock, rewarded.block, feeThree.block, feeFive.block] := by decide +kernel
  obtain rfl := Except.ok.inj (loaded.symm.trans whole)
  obtain ⟨before, after, first, second, trend⟩ := bias feeThree.block (by simp) feeFive.block (by simp) (by decide) (by decide)
  refine ⟨before, after, first, second, trend.trans ?_⟩
  decide +kernel

end PyGrove.Node
