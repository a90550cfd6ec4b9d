import PyGrove.Node.Restart
import Std.Data.HashMap.Lemmas

set_option autoImplicit false

namespace PyGrove.Node

open Words Steps Frames PyGrove.Core Crypto PyGrove.Consensus PyGrove.State

structure Counters where
  minted : U128
  prevReward : Option U128
deriving DecidableEq

def Counters.credit (counters : Counters) (config : NodeConfig) (hdr : BlockHeader) (parentTs : U64) : Counters :=
  let reward := blockReward config hdr parentTs counters.minted counters.prevReward
  { minted := saturatingAdd counters.minted reward
    prevReward := some reward }

def replayParentTs (config : NodeConfig) (blocks : List Block) (hdr : BlockHeader) : U64 :=
  if hdr.height = 0 then config.genesisTimeMs
  else (blocks[(hdr.height - 1).toNat]?.map fun parent => parent.header.timestampMs).getD config.genesisTimeMs

def replayStep (config : NodeConfig) (blocks : List Block) (counters : Counters) (block : Block) : Counters :=
  counters.credit config block.header (replayParentTs config blocks block.header)

def replayCounters (config : NodeConfig) (blocks : List Block) (n : Nat) : Counters :=
  (blocks.take n).foldl (replayStep config blocks) ⟨0, none⟩

structure LiveView where
  tip : Option Block
  counters : Counters

def liveStep (config : NodeConfig) (view : LiveView) (block : Block) : LiveView where
  tip := some block
  counters := view.counters.credit config block.header (rewardParentTs config view.tip)

def liveCounters (config : NodeConfig) (blocks : List Block) (k n : Nat) : Counters :=
  (((blocks.take n).drop k).foldl (liveStep config)
    ⟨(blocks.take k).getLast?, replayCounters config (blocks.take k) k⟩).counters

structure SeriesState where
  counters : Counters
  cumulativeByHeight : Std.HashMap U64 U128

def seriesStep (config : NodeConfig) (all : List Block) (reached : SeriesState) (i : Nat) : SeriesState :=
  match all[i]?, all[i - 1]? with
  | some b, some parent =>
      let counters := reached.counters.credit config b.header parent.header.timestampMs
      { counters
        cumulativeByHeight := reached.cumulativeByHeight.insert b.header.height counters.minted }
  | _, _ => reached

-- The loop of emission_series up to i. It runs from 1: genesis is not credited.
def seriesAfter (config : NodeConfig) (all : List Block) (i : Nat) : SeriesState :=
  (List.range' 1 i).foldl (seriesStep config all)
    { counters := ⟨0, none⟩
      cumulativeByHeight := ({} : Std.HashMap U64 U128).insert 0 0 }

def cumulativeByHeight (config : NodeConfig) (all : List Block) : Std.HashMap U64 U128 :=
  (seriesAfter config all (all.length - 1)).cumulativeByHeight

structure EmissionPoint where
  height : U64
  timestampMs : U64
  mintedSat : U128
deriving DecidableEq

structure EmissionSeriesResp where
  samples : List EmissionPoint
  genesisTimeMs : U64
  blockRewardSat : U128
  targetBlockTimeMs : U64
  halvingIntervalBase : U64

def emissionPoint (minted : Std.HashMap U64 U128) (b : Block) : EmissionPoint where
  height := b.header.height
  timestampMs := b.header.timestampMs
  mintedSat := minted[b.header.height]?.getD 0

def seriesSamples (config : NodeConfig) (all : List Block) (windowSeconds : U64) (points : Nat) : List EmissionPoint :=
  let minted := cumulativeByHeight config all
  match all.getLast? with
  | none => []
  | some tip =>
      let cutoffMs := saturatingSub tip.header.timestampMs (saturatingMul windowSeconds 1000)
      let inWindow := all.filter fun b => cutoffMs ≤ b.header.timestampMs
      match inWindow.getLast? with
      | none => []
      | some last =>
          let stride := max (inWindow.length / min (max points 2) 500) 1
          let strided := (inWindow.zipIdx.filter fun item => item.2 % stride = 0).map fun item => emissionPoint minted item.1
          if strided.getLast?.map EmissionPoint.height ≠ some last.header.height then strided ++ [emissionPoint minted last]
          else strided

structure SeriesConfig extends NodeConfig where
  blockRewardSat : U128
  halvingIntervalBase : U64

def emissionSeries (config : SeriesConfig) (store : ChainStore) (windowSeconds : U64) (points : Nat) :
    Except ReadError EmissionSeriesResp :=
  match store.loadAll with
  | .error e => .error e
  | .ok all =>
      .ok
        { samples := seriesSamples config.toNodeConfig all windowSeconds points
          genesisTimeMs := config.genesisTimeMs
          blockRewardSat := config.blockRewardSat
          targetBlockTimeMs := config.targetBlockTimeMs
          halvingIntervalBase := config.halvingIntervalBase }

theorem position_of_height (blocks : List Block) (ordered : InOrder blocks) (n : Nat) (block : Block)
    (found : blocks[n]? = some block) : block.header.height = BitVec.ofNat 64 n := by
  rw [← ordered n block found, BitVec.ofNat_toNat, BitVec.setWidth_eq]

theorem replay_parent_ts (config : NodeConfig) (blocks : List Block) (ordered : InOrder blocks) (n : Nat) (block : Block)
    (found : blocks[n]? = some block) :
    replayParentTs config blocks block.header = rewardParentTs config (blocks.take n).getLast? := by
  have height := ordered n block found
  have inside := (List.getElem?_eq_some_iff.mp found).1
  rw [replayParentTs]
  cases n with
  | zero =>
      rw [if_pos (BitVec.eq_of_toNat_eq height), List.take_zero]
      rfl
  | succ n =>
      have nonzero : block.header.height ≠ 0 := by
        intro zero
        rw [zero] at height
        cases height
      have before : (block.header.height - 1).toNat = n := by
        rw [BitVec.toNat_sub_of_le (by rw [BitVec.le_def, height]; exact Nat.le_add_left 1 n), height]
        rfl
      have parent : blocks[n]? = some blocks[n] := List.getElem?_eq_getElem (Nat.lt_of_succ_lt inside)
      rw [if_neg nonzero, before, parent, List.take_add_one, parent, Option.toList_some, List.getLast?_concat]
      rfl

def credited (config : NodeConfig) (blocks : List Block) (n : Nat) : LiveView :=
  (blocks.take n).foldl (liveStep config) ⟨none, ⟨0, none⟩⟩

theorem credited_succ (config : NodeConfig) (blocks : List Block) (n : Nat) (block : Block)
    (found : blocks[n]? = some block) :
    credited config blocks (n + 1) = liveStep config (credited config blocks n) block := by
  rw [credited, List.take_add_one, found, Option.toList_some, List.foldl_append]
  rfl

theorem credited_replay (config : NodeConfig) (blocks : List Block) (ordered : InOrder blocks) (n : Nat)
    (inside : n ≤ blocks.length) :
    credited config blocks n = ⟨(blocks.take n).getLast?, replayCounters config blocks n⟩ := by
  induction n with
  | zero => rfl
  | succ n ih =>
      have found : blocks[n]? = some blocks[n] := List.getElem?_eq_getElem inside
      have parent := replay_parent_ts config blocks ordered n _ found
      rw [credited_succ config blocks n _ found, ih (Nat.le_of_succ_le inside), liveStep, replayCounters, replayCounters,
        List.take_add_one, found, Option.toList_some, List.getLast?_concat, List.foldl_append, ← parent]
      rfl

theorem live_counters_agree (config : NodeConfig) (blocks : List Block) (ordered : InOrder blocks) (k n : Nat)
    (started : k ≤ n) (inside : n ≤ blocks.length) : liveCounters config blocks k n = replayCounters config blocks n := by
  have orderedPart : InOrder (blocks.take k) := by
    intro i block found
    rw [List.getElem?_take] at found
    split at found
    · exact ordered i block found
    · cases found
  have part := credited_replay config (blocks.take k) orderedPart k (by rw [List.length_take]; omega)
  have whole := credited_replay config blocks ordered n inside
  have split : blocks.take n = blocks.take k ++ (blocks.take n).drop k := by
    conv => lhs; rw [← List.take_append_drop k (blocks.take n)]
    rw [List.take_take, Nat.min_eq_left started]
  rw [credited, split, List.foldl_append] at whole
  rw [credited, List.take_take, Nat.min_self] at part
  rw [part, ← split] at whole
  rw [liveCounters, whole]

theorem credit_after_genesis (config : NodeConfig) (minted : U128) (hdr : BlockHeader) (parentTs : U64) :
    Counters.credit ⟨minted, none⟩ config hdr parentTs = Counters.credit ⟨minted, some 0⟩ config hdr parentTs := rfl

theorem genesis_credit (config : NodeConfig) (hdr : BlockHeader) (parentTs : U64)
    (atLaunch : hdr.timestampMs = config.genesisTimeMs) :
    Counters.credit ⟨0, none⟩ config hdr parentTs = ⟨0, some 0⟩ := by
  rw [Counters.credit, blockReward, currentRewardWithHeight, if_pos (by rw [atLaunch]; exact BitVec.le_refl _)]
  rfl

section
variable (config : NodeConfig) (blocks : List Block) (ordered : InOrder blocks)
  (genesis : ∀ block, blocks[0]? = some block → block.header.timestampMs = config.genesisTimeMs)

include genesis in
theorem credited_genesis (nonempty : 0 < blocks.length) : (credited config blocks 1).counters = ⟨0, some 0⟩ := by
  have found : blocks[0]? = some blocks[0] := List.getElem?_eq_getElem nonempty
  rw [credited_succ config blocks 0 _ found]
  exact genesis_credit config _ _ (genesis _ found)

theorem series_after_succ (i : Nat) (b parent : Block) (found : blocks[i + 1]? = some b) (before : blocks[i]? = some parent) :
    seriesAfter config blocks (i + 1) =
      { counters := (seriesAfter config blocks i).counters.credit config b.header parent.header.timestampMs
        cumulativeByHeight := (seriesAfter config blocks i).cumulativeByHeight.insert b.header.height
          ((seriesAfter config blocks i).counters.credit config b.header parent.header.timestampMs).minted } := by
  have last : 1 + 1 * i = i + 1 := by omega
  rw [seriesAfter, List.range'_concat, List.foldl_append, ← seriesAfter, last, List.foldl_cons, List.foldl_nil, seriesStep,
    found, Nat.add_sub_cancel, before]

theorem credited_tip (n : Nat) (block : Block) (found : blocks[n]? = some block) :
    (credited config blocks (n + 1)).tip = some block := by
  rw [credited_succ config blocks n block found]
  rfl

theorem series_step_agrees (i : Nat) (inside : i + 1 < blocks.length)
    (alike : ∀ hdr parentTs, (seriesAfter config blocks i).counters.credit config hdr parentTs =
      (credited config blocks (i + 1)).counters.credit config hdr parentTs) :
    (seriesAfter config blocks (i + 1)).counters = (credited config blocks (i + 2)).counters := by
  have found : blocks[i + 1]? = some blocks[i + 1] := List.getElem?_eq_getElem inside
  have parent : blocks[i]? = some blocks[i] := List.getElem?_eq_getElem (Nat.lt_of_succ_lt inside)
  rw [series_after_succ config blocks i _ _ found parent, credited_succ config blocks (i + 1) _ found, liveStep,
    credited_tip config blocks i _ parent]
  exact alike _ _

include genesis in
theorem series_counters_agree (i : Nat) (inside : i + 1 < blocks.length) :
    (seriesAfter config blocks (i + 1)).counters = (credited config blocks (i + 2)).counters := by
  induction i with
  | zero =>
      refine series_step_agrees config blocks 0 inside fun hdr parentTs => ?_
      rw [credited_genesis config blocks genesis (Nat.lt_of_succ_lt inside)]
      exact credit_after_genesis config 0 hdr parentTs
  | succ i ih =>
      refine series_step_agrees config blocks (i + 1) inside fun hdr parentTs => ?_
      rw [ih (Nat.lt_of_succ_lt inside)]

include ordered genesis in
theorem cumulative_agrees (i h : Nat) (inside : i < blocks.length) (reached : h ≤ i) :
    (seriesAfter config blocks i).cumulativeByHeight[BitVec.ofNat 64 h]? =
      some (credited config blocks (h + 1)).counters.minted := by
  have fits : ∀ n, n < blocks.length → n < 2 ^ 64 := by
    intro n bound
    rw [← ordered n _ (List.getElem?_eq_getElem bound)]
    exact BitVec.isLt _
  induction i with
  | zero =>
      obtain rfl : h = 0 := by omega
      rw [credited_genesis config blocks genesis inside, seriesAfter]
      simp
  | succ i ih =>
      have found : blocks[i + 1]? = some blocks[i + 1] := List.getElem?_eq_getElem inside
      have parent : blocks[i]? = some blocks[i] := List.getElem?_eq_getElem (Nat.lt_of_succ_lt inside)
      have same := series_counters_agree config blocks genesis i inside
      rw [series_after_succ config blocks i _ _ found parent] at same ⊢
      dsimp only at same ⊢
      rw [Std.HashMap.getElem?_insert, position_of_height blocks ordered (i + 1) _ found, same]
      by_cases last : h = i + 1
      · rw [last, if_pos (beq_self_eq_true _)]
      · have apart : BitVec.ofNat 64 (i + 1) ≠ BitVec.ofNat 64 h := by
          intro equal
          have values := congrArg BitVec.toNat equal
          rw [BitVec.toNat_ofNat, BitVec.toNat_ofNat, Nat.mod_eq_of_lt (fits _ inside),
            Nat.mod_eq_of_lt (fits h (by omega))] at values
          exact last values.symm
        rw [if_neg (by simpa using apart)]
        exact ih (Nat.lt_of_succ_lt inside) (by omega)

include ordered genesis in
theorem emission_accountings_agree (h : Nat) (positive : 1 ≤ h) (inside : h < blocks.length) :
    (∀ k ≤ h + 1, liveCounters config blocks k (h + 1) = replayCounters config blocks (h + 1)) ∧
      (seriesAfter config blocks h).counters = replayCounters config blocks (h + 1) ∧
      (cumulativeByHeight config blocks)[BitVec.ofNat 64 h]? = some (replayCounters config blocks (h + 1)).minted := by
  have replayed := credited_replay config blocks ordered (h + 1) inside
  refine ⟨fun k started => live_counters_agree config blocks ordered k (h + 1) started inside, ?_, ?_⟩
  · obtain ⟨i, rfl⟩ := Nat.exists_eq_add_of_le' positive
    rw [series_counters_agree config blocks genesis i inside, replayed]
  · rw [cumulativeByHeight, cumulative_agrees config blocks ordered genesis (blocks.length - 1) h (by omega) (by omega),
      replayed]

include ordered genesis in
theorem point_agrees (h : Nat) (block : Block) (found : blocks[h]? = some block) :
    (emissionPoint (cumulativeByHeight config blocks) block).mintedSat = (replayCounters config blocks (h + 1)).minted := by
  have inside := (List.getElem?_eq_some_iff.mp found).1
  rw [emissionPoint, position_of_height blocks ordered h block found, cumulativeByHeight,
    cumulative_agrees config blocks ordered genesis (blocks.length - 1) h (by omega) (by omega),
    credited_replay config blocks ordered (h + 1) inside]
  rfl

theorem strided_point (minted : Std.HashMap U64 U128) (inWindow : List Block) (stride : Nat) (sample : EmissionPoint)
    (shown : sample ∈ (inWindow.zipIdx.filter fun item => item.2 % stride = 0).map fun item => emissionPoint minted item.1) :
    ∃ block ∈ inWindow, sample = emissionPoint minted block := by
  obtain ⟨item, inside, rfl⟩ := List.mem_map.mp shown
  exact ⟨item.1, List.fst_mem_of_mem_zipIdx (List.mem_of_mem_filter inside), rfl⟩

include ordered genesis in
theorem samples_agree (windowSeconds : U64) (points : Nat) (sample : EmissionPoint)
    (shown : sample ∈ seriesSamples config blocks windowSeconds points) :
    ∃ h block, blocks[h]? = some block ∧ sample.height = block.header.height ∧
      sample.timestampMs = block.header.timestampMs ∧ sample.mintedSat = (replayCounters config blocks (h + 1)).minted := by
  have fromBlock : ∃ block ∈ blocks, sample = emissionPoint (cumulativeByHeight config blocks) block := by
    rw [seriesSamples] at shown
    dsimp only at shown
    split at shown
    · cases shown
    · split at shown
      · cases shown
      · rename_i last lastInWindow
        split at shown
        · rcases List.mem_append.mp shown with early | final
          · obtain ⟨block, inWindow, same⟩ := strided_point _ _ _ sample early
            exact ⟨block, List.mem_of_mem_filter inWindow, same⟩
          · exact ⟨last, List.mem_of_mem_filter (List.mem_of_getLast? lastInWindow), List.mem_singleton.mp final⟩
        · obtain ⟨block, inWindow, same⟩ := strided_point _ _ _ sample shown
          exact ⟨block, List.mem_of_mem_filter inWindow, same⟩
  obtain ⟨block, member, rfl⟩ := fromBlock
  obtain ⟨h, found⟩ := List.mem_iff_getElem?.mp member
  exact ⟨h, block, found, rfl, rfl, point_agrees config blocks ordered genesis h block found⟩

end

theorem emission_series_agrees (config : SeriesConfig) (store : ChainStore) (blocks : List Block)
    (holds : store.Holds blocks) (ordered : InOrder blocks)
    (genesis : ∀ block, blocks[0]? = some block → block.header.timestampMs = config.genesisTimeMs) (windowSeconds : U64)
    (points : Nat) :
    ∃ resp, emissionSeries config store windowSeconds points = .ok resp ∧
      ∀ sample ∈ resp.samples, ∃ h block, blocks[h]? = some block ∧ sample.height = block.header.height ∧
        sample.timestampMs = block.header.timestampMs ∧
        sample.mintedSat = (replayCounters config.toNodeConfig blocks (h + 1)).minted := by
  rw [emissionSeries, ChainStore.holds_load store blocks holds]
  exact ⟨_, rfl, samples_agree config.toNodeConfig blocks ordered genesis windowSeconds points⟩

section
variable [HashFns] [SigFns] [StateCbor]

theorem replay_steps_counters (g : Genesis) (all items : List Block) (start final : Replayed)
    (finished : runSteps (replayBlock g all) start items = (final, .ok ())) :
    items.foldl (replayStep g.nodeConfig all) ⟨start.mintedSoFar, start.prevReward⟩ =
      ⟨final.mintedSoFar, final.prevReward⟩ := by
  induction items generalizing start with
  | nil =>
      cases finished
      rfl
  | cons block tail ih =>
      obtain ⟨next, taken, rest⟩ := run_steps_finished_cons _ start final block tail finished
      obtain ⟨reward, rewardEq, _, minted, prev⟩ := replay_block_ok g all start next block taken
      rw [← ih next rest, List.foldl_cons, minted, prev, rewardEq]
      rfl

def NodeState.liveView (node : NodeState) : LiveView := ⟨node.store.tip, ⟨node.mintedSoFar, node.prevRewardSat⟩⟩

theorem accepted_call_view (config : NodeConfig) (node : NodeState) (call : Submission)
    (accepted : (tryApplyBlock config node call).2 = .ok ()) :
    (tryApplyBlock config node call).1.liveView = liveStep config node.liveView call.block := by
  have outcome := try_apply_block_outcome config node call
  generalize tryApplyBlock config node call = result at outcome accepted ⊢
  cases outcome with
  | logged state out acceptable applied done => rfl
  | _ => cases accepted

theorem accepted_calls_view (config : NodeConfig) (node : NodeState) (calls : List Submission)
    (accepted : Along (tryApplyBlock config) (fun node call => (tryApplyBlock config node call).2 = .ok ()) node calls) :
    (runCalls (tryApplyBlock config) node calls).liveView =
      (calls.map Submission.block).foldl (liveStep config) node.liveView := by
  induction calls generalizing node with
  | nil => rfl
  | cons call tail ih =>
      have first := accepted_call_view config node call accepted.1
      rw [List.map_cons, List.foldl_cons, ← first]
      exact ih _ accepted.2

variable [HexFns]

theorem replayed_counters (g : Genesis) (blocks : List Block) (reached : Replayed) (replayed : replay g blocks = .ok reached) :
    replayCounters g.nodeConfig blocks blocks.length = ⟨reached.mintedSoFar, reached.prevReward⟩ := by
  obtain ⟨mem, _, ran⟩ := (replay_ok g blocks reached).mp replayed
  rw [replayCounters, List.take_length]
  exact replay_steps_counters g blocks blocks ⟨mem, 0, none⟩ reached ran

theorem started_node_counters (g : Genesis) (node : NodeState) (blocks : List Block) (k : Nat) (calls : List Submission)
    (synced : Synced g node (blocks.take k)) (fed : calls.map Submission.block = blocks.drop k)
    (accepted : Along (tryApplyBlock g.nodeConfig) (fun node call => (tryApplyBlock g.nodeConfig node call).2 = .ok ())
      node calls) :
    (runCalls (tryApplyBlock g.nodeConfig) node calls).liveView.counters =
      liveCounters g.nodeConfig blocks k blocks.length := by
  have counters := replayed_counters g (blocks.take k) _ synced.replayed
  have sameStart : replayCounters g.nodeConfig (blocks.take k) k =
      replayCounters g.nodeConfig (blocks.take k) (blocks.take k).length := by
    rw [replayCounters, replayCounters, List.take_length, List.take_take, Nat.min_self]
  rw [accepted_calls_view g.nodeConfig node calls accepted, fed, liveCounters, List.take_length, NodeState.liveView,
    synced.holds.tip, sameStart, counters]

end

end PyGrove.Node

namespace PyGrove.Node

open Words PyGrove.Core PyGrove.Consensus PyGrove.State Sample

theorem two_block_log_agrees :
    (∀ k ≤ 2, liveCounters Genesis.shipped.nodeConfig [genesisBlock, pokeOnce.block] k 2 =
        replayCounters Genesis.shipped.nodeConfig [genesisBlock, pokeOnce.block] 2) ∧
      (seriesAfter Genesis.shipped.nodeConfig [genesisBlock, pokeOnce.block] 1).counters =
        replayCounters Genesis.shipped.nodeConfig [genesisBlock, pokeOnce.block] 2 ∧
      (cumulativeByHeight Genesis.shipped.nodeConfig [genesisBlock, pokeOnce.block])[BitVec.ofNat 64 1]? =
        some (replayCounters Genesis.shipped.nodeConfig [genesisBlock, pokeOnce.block] 2).minted := by
  have ordered : InOrder [genesisBlock, pokeOnce.block] :=
    (in_order_snoc [genesisBlock] pokeOnce.block).mpr ⟨genesis_in_order, rfl⟩
  have genesis : ∀ block, [genesisBlock, pokeOnce.block][0]? = some block →
      block.header.timestampMs = Genesis.shipped.nodeConfig.genesisTimeMs := by
    intro block found
    obtain rfl := Option.some.inj found
    rfl
  exact emission_accountings_agree Genesis.shipped.nodeConfig _ ordered genesis 1 (Nat.le_refl 1) (by decide)

end PyGrove.Node
