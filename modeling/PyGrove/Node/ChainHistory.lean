import PyGrove.Lib.HashChain
import PyGrove.Node.LinearChain
import PyGrove.State.LedgerBinding

set_option autoImplicit false

namespace PyGrove.Node

open Words Steps Frames PyGrove.Core Crypto PyGrove.Consensus PyGrove.State

section
variable [HashFns]

def Rooted (block : Block) : Prop :=
  block.header.txRoot = block.body.txRoot ∧ block.header.witnessRoot = block.body.witnessRoot

-- The gates of try_apply_block that any reader of the log can check again: the
-- clock of the node that took the block is not among them.
structure Extends (config : NodeConfig) (parent child : Block) : Prop where
  follows : Follows parent child
  bits : expectedBits config (some parent) child.header.timestampMs = some child.header.bits
  monotonic : ¬ child.header.timestampMs < parent.header.timestampMs
  work : meetsTarget (hashHeader child.header).toList (targetFromBits child.header.bits).toList

structure ValidChain (config : NodeConfig) (blocks : List Block) : Prop where
  links : blocks.IsChain (Extends config)
  rooted : ∀ block ∈ blocks, Rooted block

theorem valid_chain_snoc (config : NodeConfig) (blocks : List Block) (block : Block) (valid : ValidChain config blocks)
    (onTip : ∀ tip ∈ blocks.getLast?, Extends config tip block) (rooted : Rooted block) :
    ValidChain config (blocks ++ [block]) := by
  refine ⟨?_, ?_⟩
  · rw [List.isChain_append]
    exact ⟨valid.links, by simp, by simpa using onTip⟩
  · intro member inside
    rcases List.mem_append.mp inside with earlier | last
    · exact valid.rooted member earlier
    · rw [List.mem_singleton.mp last]
      exact rooted

theorem acceptable_extends (config : NodeConfig) (nowMs : U64) (tip block : Block)
    (acceptable : Acceptable config nowMs (some tip) block) (room : tip.header.height ≠ BitVec.allOnes 64) :
    Extends config tip block where
  follows := follows_of_view config tip block acceptable.parent acceptable.height room
  bits := acceptable.bits
  monotonic := acceptable.monotonic
  work := acceptable.work

variable [SigFns] [StateCbor]

def acceptedBlocks (config : NodeConfig) : NodeState → List Submission → List Block
  | _, [] => []
  | node, call :: tail =>
      let (next, reply) := tryApplyBlock config node call
      if reply.isOk then call.block :: acceptedBlocks config next tail else acceptedBlocks config next tail

variable [HexFns]

theorem clean_call_grows (g : Genesis) (node : NodeState) (blocks : List Block) (call : Submission)
    (synced : Synced g node blocks) (valid : ValidChain g.nodeConfig blocks) (clean : CleanCall g.nodeConfig node call) :
    let next := tryApplyBlock g.nodeConfig node call
    let grown := if next.2.isOk then blocks ++ [call.block] else blocks
    Synced g next.1 grown ∧ ValidChain g.nodeConfig grown := by
  obtain ⟨after, syncedNext⟩ := synced_call g node blocks call synced clean
  have outcome := try_apply_block_outcome g.nodeConfig node call
  generalize tryApplyBlock g.nodeConfig node call = result at outcome syncedNext
  cases outcome with
  | refused e =>
      obtain rfl := ChainStore.holds_unique _ _ _ synced.holds syncedNext.holds
      exact ⟨syncedNext, valid⟩
  | notApplied state e acceptable applied =>
      obtain rfl := ChainStore.holds_unique _ _ _ synced.holds syncedNext.holds
      exact ⟨syncedNext, valid⟩
  | notLogged state out written acceptable applied failed =>
      have done := (clean.appends acceptable ⟨out, by rw [applied]⟩).1
      rw [failed] at done
      cases done
  | logged state out acceptable applied done =>
      obtain ⟨_, sized, room⟩ := clean.appends acceptable ⟨out, by rw [applied]⟩
      have appended := ChainStore.holds_append node.store blocks call.block synced.holds sized
      obtain rfl := ChainStore.holds_unique _ _ _ appended syncedNext.holds
      refine ⟨syncedNext, valid_chain_snoc g.nodeConfig blocks call.block valid ?_ ⟨acceptable.txRoot, acceptable.witnessRoot⟩⟩
      intro tip last
      rw [← synced.holds.tip] at last
      have held := Option.mem_def.mp last
      rw [held] at acceptable
      exact acceptable_extends g.nodeConfig call.nowMs tip call.block acceptable (room tip last)

theorem clean_calls_grow (g : Genesis) (node : NodeState) (blocks : List Block) (calls : List Submission)
    (synced : Synced g node blocks) (valid : ValidChain g.nodeConfig blocks)
    (clean : Along (tryApplyBlock g.nodeConfig) (CleanCall g.nodeConfig) node calls) :
    Synced g (runCalls (tryApplyBlock g.nodeConfig) node calls) (blocks ++ acceptedBlocks g.nodeConfig node calls) ∧
      ValidChain g.nodeConfig (blocks ++ acceptedBlocks g.nodeConfig node calls) := by
  induction calls generalizing node blocks with
  | nil =>
      rw [acceptedBlocks, List.append_nil]
      exact ⟨synced, valid⟩
  | cons call tail ih =>
      have step := clean_call_grows g node blocks call synced valid clean.1
      have rest := ih _ _ step.1 step.2 clean.2
      rw [acceptedBlocks]
      dsimp only
      by_cases taken : (tryApplyBlock g.nodeConfig node call).2.isOk = true
      · rw [if_pos taken] at rest ⊢
        rw [List.append_assoc, List.singleton_append] at rest
        exact rest
      · rw [if_neg taken] at rest ⊢
        exact rest

structure SameReplay (a b : Replayed) : Prop where
  ledger : SameLedger a.mem b.mem
  minted : a.mintedSoFar = b.mintedSoFar
  prev : a.prevReward = b.prevReward

omit [HashFns] [SigFns] [StateCbor] [HexFns] in
theorem parent_timestamp_headers (g : Genesis) (xs ys : List Block) (headers : xs.map Block.header = ys.map Block.header)
    (header : BlockHeader) : parentTimestamp g xs header = parentTimestamp g ys header := by
  have reads : ∀ blocks : List Block, (blocks[(header.height - 1).toNat]?.map fun parent => parent.header.timestampMs) =
      (blocks.map Block.header)[(header.height - 1).toNat]?.map BlockHeader.timestampMs := by
    intro blocks
    rw [List.getElem?_map, Option.map_map]
    rfl
  rw [parentTimestamp, parentTimestamp, reads, reads, headers]

omit [HexFns] in
theorem replayed_same (g : Genesis) (xs ys : List Block) (headers : xs.map Block.header = ys.map Block.header)
    (x y : Block) (a b a' b' : Replayed) (same : SameReplay a b) (blocks : SameBlocks x y)
    (stepA : replayBlock g xs a x = .ok a') (stepB : replayBlock g ys b y = .ok b') : SameReplay a' b' := by
  obtain ⟨reward, rewardEq, ⟨outA, appliedA⟩, mintedA, prevA⟩ := replay_block_ok g xs a a' x stepA
  obtain ⟨rewardB, rewardEqB, ⟨outB, appliedB⟩, mintedB, prevB⟩ := replay_block_ok g ys b b' y stepB
  rw [← blocks.header, ← parent_timestamp_headers g xs ys headers, ← same.minted, ← same.prev, ← rewardEq] at rewardEqB
  subst rewardEqB
  exact ⟨accepted_same_ledger a.mem b.mem a'.mem b'.mem x y _ outA outB same.ledger blocks appliedA appliedB,
    by rw [mintedA, mintedB, same.minted], by rw [prevA, prevB]⟩

omit [HexFns] in
theorem replays_same (g : Genesis) (xs ys : List Block) (headers : xs.map Block.header = ys.map Block.header)
    (as bs : List Block) (a b a' b' : Replayed) (same : SameReplay a b) (blocks : List.Forall₂ SameBlocks as bs)
    (ranA : runSteps (replayBlock g xs) a as = (a', .ok ())) (ranB : runSteps (replayBlock g ys) b bs = (b', .ok ())) :
    SameReplay a' b' := by
  induction blocks generalizing a b with
  | nil =>
      cases ranA
      cases ranB
      exact same
  | cons head _ ih =>
      obtain ⟨nextA, stepA, restA⟩ := run_steps_finished_cons _ a a' _ _ ranA
      obtain ⟨nextB, stepB, restB⟩ := run_steps_finished_cons _ b b' _ _ ranB
      exact ih nextA nextB (replayed_same g xs ys headers _ _ a b nextA nextB same head stepA stepB) restA restB

-- Collisions are excluded between the two histories only: of headers, and of
-- what two bodies under one header feed to BLAKE3.
structure NoCollisions (xs ys : List Block) : Prop where
  headers : ∀ x ∈ xs, ∀ y ∈ ys, hashHeader x.header = hashHeader y.header → x.header = y.header
  bodies : ∀ x ∈ xs, ∀ y ∈ ys, x.header = y.header → CollisionFree (x.body.preimages ++ y.body.preimages)
  sigs : ∀ block ∈ xs ++ ys, block.body.ShortSigs

omit [SigFns] [StateCbor] [HexFns] in
theorem tips_pin_headers (config : NodeConfig) (xs ys : List Block) (validX : ValidChain config xs) (validY : ValidChain config ys)
    (orderedX : InOrder xs) (orderedY : InOrder ys) (distinct : NoCollisions xs ys)
    (tips : (xs.getLast?.map fun tip => hashHeader tip.header) = ys.getLast?.map fun tip => hashHeader tip.header) :
    xs.map Block.header = ys.map Block.header := by
  have linked : ∀ blocks, ValidChain config blocks →
      HashChain.Linked BlockHeader.parent hashHeader (blocks.map Block.header) := by
    intro blocks valid
    rw [HashChain.Linked, List.isChain_map]
    exact valid.links.imp fun _ _ step => step.follows.2
  have lasts : ∀ blocks : List Block, (blocks.map Block.header).getLast?.map hashHeader =
      blocks.getLast?.map fun tip => hashHeader tip.header := by
    intro blocks
    rw [List.getLast?_map, Option.map_map]
    rfl
  have lengths : xs.length = ys.length := by
    cases lastX : xs.getLast? with
    | none =>
        rw [lastX] at tips
        rw [List.getLast?_eq_none_iff.mp lastX, List.getLast?_eq_none_iff.mp (Option.map_eq_none_iff.mp tips.symm)]
    | some x =>
        rw [lastX] at tips
        obtain ⟨y, lastY, hash⟩ := Option.map_eq_some_iff.mp tips.symm
        have header := distinct.headers x (List.mem_of_getLast? lastX) y (List.mem_of_getLast? lastY) hash.symm
        have placeX := orderedX (xs.length - 1) x (by rw [← List.getLast?_eq_getElem?, lastX])
        have placeY := orderedY (ys.length - 1) y (by rw [← List.getLast?_eq_getElem?, lastY])
        have someX := List.length_pos_of_mem (List.mem_of_getLast? lastX)
        have someY := List.length_pos_of_mem (List.mem_of_getLast? lastY)
        rw [header, placeY] at placeX
        omega
  apply HashChain.linked_unique BlockHeader.parent hashHeader _ _ (linked xs validX) (linked ys validY)
  · rw [List.length_map, List.length_map, lengths]
  · rw [lasts, lasts, tips]
  · intro _ inX _ inY same
    obtain ⟨x, memberX, rfl⟩ := List.mem_map.mp inX
    obtain ⟨y, memberY, rfl⟩ := List.mem_map.mp inY
    exact distinct.headers x memberX y memberY same

omit [SigFns] [StateCbor] [HexFns] in
theorem headers_pin_blocks (xs ys : List Block) (rootedX : ∀ block ∈ xs, Rooted block) (rootedY : ∀ block ∈ ys, Rooted block)
    (distinct : NoCollisions xs ys) (headers : xs.map Block.header = ys.map Block.header) : List.Forall₂ SameBlocks xs ys := by
  have lengths : xs.length = ys.length := by
    have mapped := congrArg List.length headers
    rwa [List.length_map, List.length_map] at mapped
  refine List.forall₂_iff_get.mpr ⟨lengths, fun i insideX insideY => ?_⟩
  have header : xs[i].header = ys[i].header := by
    have found := congrArg (fun all => all[i]?) headers
    simpa [List.getElem?_eq_getElem insideX, List.getElem?_eq_getElem insideY] using found
  have memberX := List.getElem_mem insideX
  have memberY := List.getElem_mem insideY
  obtain ⟨txRootX, witnessRootX⟩ := rootedX _ memberX
  obtain ⟨txRootY, witnessRootY⟩ := rootedY _ memberY
  exact same_blocks_of_roots xs[i] ys[i] header txRootX txRootY witnessRootX witnessRootY
    (distinct.bodies _ memberX _ memberY header) (distinct.sigs _ (List.mem_append_left _ memberX))
    (distinct.sigs _ (List.mem_append_right _ memberY))

structure StartsFrom (g : Genesis) (log : List U8) (blocks : List Block) (start : NodeState) : Prop where
  whole : Records blockCodec log blocks
  ordered : InOrder blocks
  valid : ValidChain g.nodeConfig blocks
  started : cmdRun g log = .ok start

theorem grown_from (g : Genesis) (log : List U8) (blocks : List Block) (start : NodeState)
    (starts : StartsFrom g log blocks start) (calls : List Submission)
    (clean : Along (tryApplyBlock g.nodeConfig) (CleanCall g.nodeConfig) start calls) :
    Synced g (runCalls (tryApplyBlock g.nodeConfig) start calls) (blocks ++ acceptedBlocks g.nodeConfig start calls) ∧
      ValidChain g.nodeConfig (blocks ++ acceptedBlocks g.nodeConfig start calls) := by
  have synced := cmd_run_synced g log blocks start starts.whole starts.ordered
    (cmd_run_nonempty g log blocks start starts.whole starts.started) starts.started
  exact clean_calls_grow g start blocks calls synced starts.valid clean

section
variable (g : Genesis) (logA logB : List U8) (blocksA blocksB : List Block) (startA startB : NodeState)
  (startsA : StartsFrom g logA blocksA startA) (startsB : StartsFrom g logB blocksB startB)
  (callsA callsB : List Submission)
  (cleanA : Along (tryApplyBlock g.nodeConfig) (CleanCall g.nodeConfig) startA callsA)
  (cleanB : Along (tryApplyBlock g.nodeConfig) (CleanCall g.nodeConfig) startB callsB)

include startsA startsB cleanA cleanB

theorem tips_pin_replay :
    let a := runCalls (tryApplyBlock g.nodeConfig) startA callsA
    let b := runCalls (tryApplyBlock g.nodeConfig) startB callsB
    let chainA := blocksA ++ acceptedBlocks g.nodeConfig startA callsA
    let chainB := blocksB ++ acceptedBlocks g.nodeConfig startB callsB
    NoCollisions chainA chainB →
      (a.store.tip.map fun tip => hashHeader tip.header) = (b.store.tip.map fun tip => hashHeader tip.header) →
      chainA.map Block.header = chainB.map Block.header ∧ a.store.tip = chainA.getLast? ∧ b.store.tip = chainB.getLast? ∧
        SameReplay ⟨a.state, a.mintedSoFar, a.prevRewardSat⟩ ⟨b.state, b.mintedSoFar, b.prevRewardSat⟩ := by
  intro a b chainA chainB distinct tips
  obtain ⟨syncedA, validA⟩ := grown_from g logA blocksA startA startsA callsA cleanA
  obtain ⟨syncedB, validB⟩ := grown_from g logB blocksB startB startsB callsB cleanB
  change (a.store.tip.map _) = _ at tips
  rw [syncedA.holds.tip, syncedB.holds.tip] at tips
  have headers := tips_pin_headers g.nodeConfig chainA chainB validA validB syncedA.ordered syncedB.ordered distinct tips
  have blocks := headers_pin_blocks chainA chainB validA.rooted validB.rooted distinct headers
  obtain ⟨memA, initialA, ranA⟩ := (replay_ok g chainA _).mp syncedA.replayed
  obtain ⟨memB, initialB, ranB⟩ := (replay_ok g chainB _).mp syncedB.replayed
  obtain rfl : memA = memB := Except.ok.inj (initialA.symm.trans initialB)
  exact ⟨headers, syncedA.holds.tip, syncedB.holds.tip, replays_same g chainA chainB headers chainA chainB _ _ _ _
    ⟨same_ledger_refl memA, rfl, rfl⟩ blocks ranA ranB⟩

end

theorem tip_hash_pins_ledger (g : Genesis) (logA logB : List U8) (blocksA blocksB : List Block) (startA startB : NodeState)
    (startsA : StartsFrom g logA blocksA startA) (startsB : StartsFrom g logB blocksB startB)
    (callsA callsB : List Submission)
    (cleanA : Along (tryApplyBlock g.nodeConfig) (CleanCall g.nodeConfig) startA callsA)
    (cleanB : Along (tryApplyBlock g.nodeConfig) (CleanCall g.nodeConfig) startB callsB) :
    let a := runCalls (tryApplyBlock g.nodeConfig) startA callsA
    let b := runCalls (tryApplyBlock g.nodeConfig) startB callsB
    let chainA := blocksA ++ acceptedBlocks g.nodeConfig startA callsA
    let chainB := blocksB ++ acceptedBlocks g.nodeConfig startB callsB
    NoCollisions chainA chainB →
      (a.store.tip.map fun tip => hashHeader tip.header) = (b.store.tip.map fun tip => hashHeader tip.header) →
      chainA.map Block.header = chainB.map Block.header ∧ a.mintedSoFar = b.mintedSoFar ∧ SameAccounts a.state b.state := by
  intro a b chainA chainB distinct tips
  obtain ⟨headers, _, _, same⟩ := tips_pin_replay g logA logB blocksA blocksB startA startB startsA startsB callsA callsB
    cleanA cleanB distinct tips
  exact ⟨headers, same.minted, same_ledger_accounts _ _ same.ledger⟩

end

end PyGrove.Node

namespace PyGrove.Sample

open Words Steps PyGrove.Core PyGrove.Consensus PyGrove.State PyGrove.Node

theorem fresh_starts : StartsFrom .shipped freshNode.store.log [genesisBlock] freshNode where
  whole := genesis_log
  ordered := genesis_in_order
  valid := ⟨List.isChain_singleton _, fun block member => by rw [List.mem_singleton.mp member]; exact ⟨rfl, rfl⟩⟩
  started := fresh_node_started

theorem poke_and_stale_clean :
    Along (tryApplyBlock Genesis.shipped.nodeConfig) (CleanCall Genesis.shipped.nodeConfig) freshNode [pokeOnce, pokeNext] := by
  refine ⟨⟨fun _ late => ?_, fun _ _ => ⟨rfl, by decide +kernel, by decide⟩⟩, ⟨?_, ?_⟩, trivial⟩
  · obtain ⟨e, failed⟩ := late_failure_error _ _ _ late.2
    have applied : (applyBlock freshNode.state pokeOnce.block
        (callReward Genesis.shipped.nodeConfig freshNode pokeOnce)).2.toOption.isSome := by decide +kernel
    rw [failed] at applied
    exact Bool.noConfusion applied
  · intro acceptable
    exact absurd acceptable.parent (by decide +kernel)
  · intro acceptable
    exact absurd acceptable.parent (by decide +kernel)

theorem poked_chains_distinct :
    NoCollisions ([genesisBlock] ++ acceptedBlocks Genesis.shipped.nodeConfig freshNode [pokeOnce])
      ([genesisBlock] ++ acceptedBlocks Genesis.shipped.nodeConfig freshNode [pokeOnce, pokeNext]) := by
  have acceptedA : acceptedBlocks Genesis.shipped.nodeConfig freshNode [pokeOnce] = [pokeOnce.block] := by decide +kernel
  have acceptedB : acceptedBlocks Genesis.shipped.nodeConfig freshNode [pokeOnce, pokeNext] = [pokeOnce.block] := by
    decide +kernel
  rw [acceptedA, acceptedB]
  exact ⟨by decide +kernel, by decide +kernel, by unfold BlockBody.ShortSigs; decide +kernel⟩

theorem poked_tips :
    ((runCalls (tryApplyBlock Genesis.shipped.nodeConfig) freshNode [pokeOnce]).store.tip.map fun tip =>
        hashHeader tip.header) =
      (runCalls (tryApplyBlock Genesis.shipped.nodeConfig) freshNode [pokeOnce, pokeNext]).store.tip.map fun tip =>
        hashHeader tip.header := by
  decide +kernel

end PyGrove.Sample

namespace PyGrove.Node

open Words Steps Frames PyGrove.Core Crypto PyGrove.Consensus PyGrove.State

open Sample in
theorem poked_nodes_agree :
    let a := runCalls (tryApplyBlock Genesis.shipped.nodeConfig) freshNode [pokeOnce]
    let b := runCalls (tryApplyBlock Genesis.shipped.nodeConfig) freshNode [pokeOnce, pokeNext]
    ([genesisBlock] ++ acceptedBlocks Genesis.shipped.nodeConfig freshNode [pokeOnce]).map Block.header =
        ([genesisBlock] ++ acceptedBlocks Genesis.shipped.nodeConfig freshNode [pokeOnce, pokeNext]).map Block.header ∧
      a.mintedSoFar = b.mintedSoFar ∧ SameAccounts a.state b.state := by
  exact tip_hash_pins_ledger .shipped freshNode.store.log freshNode.store.log [genesisBlock] [genesisBlock] freshNode
    freshNode fresh_starts fresh_starts [pokeOnce] [pokeOnce, pokeNext] ⟨poke_and_stale_clean.1, trivial⟩
    poke_and_stale_clean poked_chains_distinct poked_tips

end PyGrove.Node
