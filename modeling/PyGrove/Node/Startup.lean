import PyGrove.Consensus.EmissionRuns
import PyGrove.Node.ChainStore
import PyGrove.Node.Genesis
import PyGrove.Node.Mempool
import PyGrove.State.Apply

set_option autoImplicit false

namespace PyGrove.Node

open Words Steps Frames PyGrove.Core Crypto PyGrove.Consensus PyGrove.State

structure NodeConfig where
  genesisTimeMs : U64
  bits : U32
  targetBlockTimeMs : U64
  emission : EmissionParams
  asertTauMs : U64
  bootstrapAsertTauMs : U64

def Genesis.nodeConfig (g : Genesis) : NodeConfig where
  genesisTimeMs := g.genesisTimeMs
  bits := g.initialBits
  targetBlockTimeMs := g.targetBlockTimeMs
  emission := g.emissionParams
  asertTauMs := g.asertTauMs
  bootstrapAsertTauMs := g.bootstrapAsertTauMs

structure NodeState where
  store : ChainStore
  state : MemState
  mempool : Mempool
  mintedSoFar : U128
  prevRewardSat : Option U128

inductive StartupError where
  | chainLog (e : ReadError)
  | dataDirEmpty
  | genesisCommittee (cause : String)
  | replay (height : U64) (e : ApplyError)
deriving DecidableEq

structure Replayed where
  mem : MemState
  mintedSoFar : U128
  prevReward : Option U128

-- blocks.get(height - 1) of the whole log, whichever block stands there.
def parentTimestamp (g : Genesis) (blocks : List Block) (header : BlockHeader) : U64 :=
  if header.height = 0 then g.genesisTimeMs
  else (blocks[(header.height - 1).toNat]?.map fun parent => parent.header.timestampMs).getD g.genesisTimeMs

section
variable [HashFns] [SigFns] [StateCbor]

def replayBlock (g : Genesis) (blocks : List Block) (reached : Replayed) (block : Block) :
    Except StartupError Replayed :=
  let reward := currentRewardWithHeight g.emissionParams g.genesisTimeMs block.header.timestampMs
    (parentTimestamp g blocks block.header) reached.mintedSoFar block.header.height reached.prevReward
  match applyBlock reached.mem block reward with
  | (_, .error e) => .error (.replay block.header.height e)
  | (mem, .ok _) =>
      .ok
        { mem
          mintedSoFar := saturatingAdd reached.mintedSoFar reward
          prevReward := some reward }

variable [HexFns]

def replay (g : Genesis) (blocks : List Block) : Except StartupError Replayed :=
  match g.initialState with
  | .error cause => .error (.genesisCommittee cause)
  | .ok mem =>
      match runSteps (replayBlock g blocks) ⟨mem, 0, none⟩ blocks with
      | (_, .error e) => .error e
      | (reached, .ok ()) => .ok reached

def cmdRun (g : Genesis) (log : List U8) : Except StartupError NodeState :=
  match ChainStore.openLog log with
  | .error e => .error (.chainLog e)
  | .ok store =>
      if store.tip.isNone then .error .dataDirEmpty
      else
        match store.loadAll with
        | .error e => .error (.chainLog e)
        | .ok blocks =>
            (replay g blocks).map fun reached =>
              { store
                state := reached.mem
                mempool := .new 10000
                mintedSoFar := reached.mintedSoFar
                prevRewardSat := reached.prevReward }

end

def InOrder (blocks : List Block) : Prop :=
  ∀ (i : Nat) (block : Block), blocks[i]? = some block → block.header.height.toNat = i

theorem in_order_snoc (blocks : List Block) (block : Block) :
    InOrder (blocks ++ [block]) ↔ InOrder blocks ∧ block.header.height.toNat = blocks.length := by
  constructor
  · intro ordered
    refine ⟨fun i earlier found => ordered i earlier ?_, ordered blocks.length block ?_⟩
    · rw [List.getElem?_append_left (List.getElem?_eq_some_iff.mp found).1]
      exact found
    · exact List.getElem?_concat_length
  · intro ⟨ordered, height⟩ i other found
    by_cases earlier : i < blocks.length
    · rw [List.getElem?_append_left earlier] at found
      exact ordered i other found
    · have last : i = blocks.length := by
        have bound := (List.getElem?_eq_some_iff.mp found).1
        rw [List.length_append, List.length_singleton] at bound
        omega
      rw [last, List.getElem?_concat_length] at found
      cases found
      rw [last, height]

theorem parent_timestamp_append (g : Genesis) (blocks : List Block) (block earlier : Block) (ordered : InOrder blocks)
    (member : earlier ∈ blocks) :
    parentTimestamp g (blocks ++ [block]) earlier.header = parentTimestamp g blocks earlier.header := by
  obtain ⟨i, found⟩ := List.mem_iff_getElem?.mp member
  have height := ordered i earlier found
  have bound := (List.getElem?_eq_some_iff.mp found).1
  simp only [parentTimestamp]
  by_cases genesis : earlier.header.height = 0
  · rw [if_pos genesis, if_pos genesis]
  · have positive := to_nat_pos earlier.header.height genesis
    have before : (earlier.header.height - 1).toNat < blocks.length := by
      rw [BitVec.toNat_sub_of_le (by rw [BitVec.le_def]; exact positive)]
      omega
    rw [if_neg genesis, if_neg genesis, List.getElem?_append_left before]

theorem parent_timestamp_last (g : Genesis) (blocks : List Block) (block : Block)
    (height : block.header.height.toNat = blocks.length) :
    parentTimestamp g (blocks ++ [block]) block.header =
      (blocks.getLast?.map fun parent => parent.header.timestampMs).getD g.genesisTimeMs := by
  simp only [parentTimestamp]
  by_cases genesis : block.header.height = 0
  · rw [genesis] at height
    have empty : blocks = [] := List.length_eq_zero_iff.mp height.symm
    rw [if_pos genesis, empty]
    rfl
  · have positive := to_nat_pos block.header.height genesis
    have before : (block.header.height - 1).toNat = blocks.length - 1 := by
      rw [BitVec.toNat_sub_of_le (by rw [BitVec.le_def]; exact positive), height]
      rfl
    rw [if_neg genesis, before, List.getElem?_append_left (by omega), List.getLast?_eq_getElem?]

section
variable [HashFns] [SigFns] [StateCbor]

theorem replay_block_ok (g : Genesis) (blocks : List Block) (reached next : Replayed) (block : Block)
    (replayed : replayBlock g blocks reached block = .ok next) :
    ∃ reward, reward = currentRewardWithHeight g.emissionParams g.genesisTimeMs block.header.timestampMs
        (parentTimestamp g blocks block.header) reached.mintedSoFar block.header.height reached.prevReward ∧
      (∃ out, applyBlock reached.mem block reward = (next.mem, .ok out)) ∧
        next.mintedSoFar = saturatingAdd reached.mintedSoFar reward ∧ next.prevReward = some reward := by
  dsimp only [replayBlock] at replayed
  split at replayed
  · cases replayed
  · rename_i final out applied
    cases replayed
    exact ⟨_, rfl, ⟨out, applied⟩, rfl, rfl⟩

theorem replay_block_error (g : Genesis) (blocks : List Block) (reached : Replayed) (block : Block) (e : ApplyError)
    (failed : (applyBlock reached.mem block (currentRewardWithHeight g.emissionParams g.genesisTimeMs
      block.header.timestampMs (parentTimestamp g blocks block.header) reached.mintedSoFar block.header.height
      reached.prevReward)).2 = .error e) :
    replayBlock g blocks reached block = .error (.replay block.header.height e) := by
  unfold replayBlock
  dsimp only
  generalize applyBlock reached.mem block _ = result at failed ⊢
  obtain ⟨state, out⟩ := result
  cases failed
  rfl

variable [HexFns]

theorem replay_ok (g : Genesis) (blocks : List Block) (reached : Replayed) :
    replay g blocks = .ok reached ↔
      ∃ mem, g.initialState = .ok mem ∧ runSteps (replayBlock g blocks) ⟨mem, 0, none⟩ blocks = (reached, .ok ()) := by
  simp only [replay]
  cases g.initialState with
  | error cause => simp
  | ok mem =>
      simp only [Except.ok.injEq, exists_eq_left']
      rcases runSteps (replayBlock g blocks) ⟨mem, 0, none⟩ blocks with ⟨stopped, e | done⟩
      · simp only [reduceCtorEq, Prod.mk.injEq, and_false]
      · simp only [Except.ok.injEq, Prod.mk.injEq, and_true]

theorem cmd_run_replayed (g : Genesis) (log : List U8) (start : NodeState) (started : cmdRun g log = .ok start) :
    ∃ blocks, replay g blocks = .ok ⟨start.state, start.mintedSoFar, start.prevRewardSat⟩ := by
  unfold cmdRun at started
  split at started
  · cases started
  · split at started
    · cases started
    · split at started
      · cases started
      · rename_i blocks _
        cases replayed : replay g blocks with
        | error e =>
            rw [replayed] at started
            cases started
        | ok reached =>
            rw [replayed] at started
            cases started
            exact ⟨blocks, replayed⟩

theorem replay_snoc (g : Genesis) (blocks : List Block) (block : Block) (reached : Replayed) (ordered : InOrder blocks)
    (replayed : replay g blocks = .ok reached) :
    replay g (blocks ++ [block]) = replayBlock g (blocks ++ [block]) reached block := by
  obtain ⟨mem, initial, ran⟩ := (replay_ok g blocks reached).mp replayed
  have before : runSteps (replayBlock g (blocks ++ [block])) ⟨mem, 0, none⟩ blocks = (reached, .ok ()) := by
    rw [← ran]
    apply run_steps_congr
    intro earlier member state
    simp only [replayBlock]
    rw [parent_timestamp_append g blocks block earlier ordered member]
  rw [replay, initial]
  dsimp only
  rw [run_steps_append _ _ _ _ _ before, runSteps]
  cases replayBlock g (blocks ++ [block]) reached block with
  | error e => rfl
  | ok next => rfl

theorem replay_snoc_ok (g : Genesis) (blocks : List Block) (block : Block) (final : Replayed)
    (ordered : InOrder blocks) (replayed : replay g (blocks ++ [block]) = .ok final) :
    ∃ reached, replay g blocks = .ok reached ∧ replayBlock g (blocks ++ [block]) reached block = .ok final := by
  obtain ⟨mem, initial, ran⟩ := (replay_ok g (blocks ++ [block]) final).mp replayed
  obtain ⟨reached, before, _⟩ := run_steps_finished_append _ _ _ _ _ ran
  have earlier : replay g blocks = .ok reached := by
    rw [replay_ok]
    refine ⟨mem, initial, ?_⟩
    rw [← before]
    apply run_steps_congr
    intro other member state
    simp only [replayBlock]
    rw [parent_timestamp_append g blocks block other ordered member]
  exact ⟨reached, earlier, by rw [← replay_snoc g blocks block reached ordered earlier, replayed]⟩

theorem replay_mints (g : Genesis) (blocks : List Block) (reached : Replayed) (ordered : InOrder blocks)
    (replayed : replay g blocks = .ok reached) :
    runCalls (mintBlock g.emissionParams g.genesisTimeMs) (.start g.genesisTimeMs)
        (blocks.map fun block => block.header.timestampMs) =
      { height := BitVec.ofNat 64 blocks.length
        parentTimestampMs := (blocks.getLast?.map fun block => block.header.timestampMs).getD g.genesisTimeMs
        mintedSoFarSat := reached.mintedSoFar
        prevRewardSat := reached.prevReward } := by
  induction blocks using List.reverseRecOn generalizing reached with
  | nil =>
      obtain ⟨mem, _, ran⟩ := (replay_ok g [] reached).mp replayed
      cases ran
      rfl
  | append_singleton blocks block ih =>
      obtain ⟨before, height⟩ := (in_order_snoc blocks block).mp ordered
      obtain ⟨middle, earlier, last⟩ := replay_snoc_ok g blocks block reached before replayed
      obtain ⟨reward, rewardEq, _, minted, prev⟩ := replay_block_ok g _ middle reached block last
      have position : block.header.height = BitVec.ofNat 64 blocks.length := by rw [← height, BitVec.ofNat_toNat, BitVec.setWidth_eq]
      rw [parent_timestamp_last g blocks block height, position] at rewardEq
      have run := ih middle before earlier
      rw [runCalls] at run ⊢
      rw [List.map_append, List.foldl_append, run, List.getLast?_concat, minted, prev, rewardEq, List.length_append,
        BitVec.ofNat_add]
      rfl

end

end PyGrove.Node
