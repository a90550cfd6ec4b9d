import PyGrove.Node.ChainHistory
import PyGrove.Node.SupplyAudit
import PyGrove.Node.Template
import PyGrove.State.Acceptance

set_option autoImplicit false

namespace PyGrove.Node

open Words Steps Frames PyGrove.Core Crypto PyGrove.Consensus PyGrove.State

structure InitConfig extends Genesis where
  genesisHeadlineHex : String := ""
  sigAlgo : U8
  hashAlgo : U8

inductive InitError where
  | chainLog (e : ReadError)
  | alreadyInitialized
  | append (e : StoreError)
deriving DecidableEq

section
variable [HexFns]

def InitConfig.headlineBytes (g : InitConfig) : Bytes 32 :=
  if g.genesisHeadlineHex.isEmpty then .replicate 32 0
  else
    match HexFns.decode g.genesisHeadlineHex with
    | .error _ => .replicate 32 0
    | .ok bytes => if sized : bytes.length = 32 then ⟨bytes, sized⟩ else .replicate 32 0

end

theorem genesis_records (genesis : Block) (empty : genesis.body = ⟨[], []⟩) :
    Records blockCodec (record blockCodec genesis) [genesis] := by
  apply record_whole blockCodec genesis
  obtain ⟨header, body⟩ := genesis
  cases empty
  exact Nat.lt_of_le_of_lt (empty_block_at_most header) (by decide)

def ChainStore.height (store : ChainStore) : U64 := (store.tip.map fun b => b.header.height).getD 0

section
variable [HashFns]

def templateFromParent (parentHash : Bytes 32) (parentHeight : U64) (bits : U32) (coinbase : Bytes 32)
    (sigAlgo hashAlgo : U8) (timestampMs : U64) : BlockHeader :=
  templateFromParentWithBody parentHash parentHeight bits coinbase sigAlgo hashAlgo timestampMs ⟨[], []⟩

-- The loop has no bound of its own: without a value the tries have run out.
def mineInline (tries : Nat) (header : BlockHeader) : Option Block :=
  (mineNonces (targetFromBits header.bits) tries header).map fun mined => ⟨mined, ⟨[], []⟩⟩

variable [HexFns]

def InitConfig.genesisHeader (g : InitConfig) : BlockHeader :=
  { templateFromParent (.replicate 32 0) (0 - 1) g.initialBits g.headlineBytes g.sigAlgo g.hashAlgo g.genesisTimeMs with
    height := 0 }

def cmdInit (g : InitConfig) (log : List U8) (tries : Nat) (write : WriteOutcome) :
    Option (List U8 × Except InitError Block) :=
  match ChainStore.openLog log with
  | .error e => some (log, .error (.chainLog e))
  | .ok store =>
      if 0 < store.height ∨ store.tip.isSome then some (log, .error .alreadyInitialized)
      else
        (mineInline tries g.genesisHeader).map fun block =>
          match store.append block write with
          | (store, .error e) => (store.log, .error (.append e))
          | (store, .ok ()) => (store.log, .ok block)

theorem init_fresh (g : InitConfig) (tries : Nat) :
    cmdInit g [] tries .done =
      (mineInline tries g.genesisHeader).map fun genesis => (record blockCodec genesis, .ok genesis) := by
  have opened : ChainStore.openLog [] = .ok { log := [], tip := none, count := 0 } := by
    rw [ChainStore.openLog, readAllFromDisk, records_read blockCodec [] [] .nil]
    rfl
  have fresh : ¬ (0 < ({ log := [], tip := none, count := 0 } : ChainStore).height ∨
      ({ log := [], tip := none, count := 0 } : ChainStore).tip.isSome = true) := by decide
  rw [cmdInit, opened]
  dsimp only
  rw [if_neg fresh]
  rfl

theorem init_mines (g : InitConfig) (tries : Nat) (log : List U8) (genesis : Block)
    (inited : cmdInit g [] tries .done = some (log, .ok genesis)) :
    log = record blockCodec genesis ∧ ∃ nonce, genesis = ⟨{ g.genesisHeader with nonce }, ⟨[], []⟩⟩ := by
  rw [init_fresh, mineInline, Option.map_map] at inited
  obtain ⟨found, mined, reached⟩ := Option.map_eq_some_iff.mp inited
  cases reached
  obtain ⟨⟨nonce, same⟩, _⟩ := mine_nonces_found _ tries g.genesisHeader found mined
  exact ⟨rfl, nonce, by rw [same]⟩

theorem init_refused (g : InitConfig) (genesis : Block) (empty : genesis.body = ⟨[], []⟩) (tries : Nat) (write : WriteOutcome) :
    cmdInit g (record blockCodec genesis) tries write =
      some (record blockCodec genesis, .error .alreadyInitialized) := by
  rw [cmdInit, ChainStore.openLog, readAllFromDisk, records_read blockCodec _ _ (genesis_records genesis empty)]
  dsimp only
  rw [if_pos (.inr rfl)]

variable [SigFns] [StateCbor]

omit [HexFns] in
theorem genesis_applies (state : MemState) (genesis : Block) (empty : genesis.body = ⟨[], []⟩) :
    (applyBlock state genesis 0).2.isOk = true := by
  have bound := (Accounts.loadOrDefault state (.fromCoinbase genesis.header.coinbase)).balance.isLt
  apply applicable_accepted
  · rw [empty]
    exact List.nodup_nil
  · refine ⟨?_, ?_, ?_⟩
    · rw [empty]
      exact fun item member => by cases member
    · rw [empty]
      exact fun i tx found => by cases found
    · rw [empty]
      exact bound

omit [HexFns] in
theorem genesis_issues_nothing (state : MemState) (genesis : Block) (empty : genesis.body = ⟨[], []⟩)
    (nothing : Ledger.total (balances state) = 0) : Ledger.total (balances (applyBlock state genesis 0).1) = 0 := by
  have applies := genesis_applies state genesis empty
  have total := accepted_total state (applyBlock state genesis 0).1 genesis 0
  generalize applyBlock state genesis 0 = result at applies total ⊢
  obtain ⟨final, e | out⟩ := result
  · cases applies
  · rw [(total out (by rw [nothing]; decide) rfl).1, nothing]
    rfl

theorem genesis_replays (g : InitConfig) (nonce : U64) (mem : MemState) (initial : g.initialState = .ok mem) :
    let genesis : Block := ⟨{ g.genesisHeader with nonce }, ⟨[], []⟩⟩
    replay g.toGenesis [genesis] = .ok ⟨(applyBlock mem genesis 0).1, 0, some 0⟩ := by
  intro genesis
  have nothing : currentRewardWithHeight g.emissionParams g.genesisTimeMs genesis.header.timestampMs
      (parentTimestamp g.toGenesis [genesis] genesis.header) 0 genesis.header.height none = 0 := by
    exact if_pos (BitVec.le_refl g.genesisTimeMs)
  have applied := genesis_applies mem genesis rfl
  rw [replay_ok]
  refine ⟨mem, initial, ?_⟩
  rw [runSteps, replayBlock]
  dsimp only
  rw [nothing]
  generalize applyBlock mem genesis 0 = result at applied ⊢
  obtain ⟨state, e | out⟩ := result
  · cases applied
  · rfl

theorem initialized_chain_valid (g : InitConfig) (tries : Nat) (log : List U8) (genesis : Block)
    (inited : cmdInit g [] tries .done = some (log, .ok genesis)) :
    (∀ tries write, cmdInit g log tries write = some (log, .error .alreadyInitialized)) ∧
      match g.initialState with
      | .error cause => cmdRun g.toGenesis log = .error (.genesisCommittee cause)
      | .ok _ =>
          ∃ start, cmdRun g.toGenesis log = .ok start ∧ start.mintedSoFar = 0 ∧ Ledger.total (balances start.state) = 0 ∧
            ∀ calls, Along (tryApplyBlock g.nodeConfig) (CleanCall g.nodeConfig) start calls →
              let node := runCalls (tryApplyBlock g.nodeConfig) start calls
              let chain := genesis :: acceptedBlocks g.nodeConfig start calls
              node.store.loadAll = .ok chain ∧ InOrder chain ∧ ValidChain g.nodeConfig chain ∧
                SurvivesRestart g.toGenesis node := by
  obtain ⟨rfl, nonce, rfl⟩ := init_mines g tries log genesis inited
  generalize made : (⟨{ g.genesisHeader with nonce }, ⟨[], []⟩⟩ : Block) = genesis
  have empty : genesis.body = ⟨[], []⟩ := by rw [← made]
  have whole := genesis_records genesis empty
  refine ⟨fun tries write => init_refused g genesis empty tries write, ?_⟩
  have runs := cmd_run_records g.toGenesis (record blockCodec genesis) [genesis] whole (by simp)
  cases initial : g.initialState with
  | error cause =>
      dsimp only
      rw [runs, replay, initial]
      rfl
  | ok mem =>
      dsimp only
      have replayed := genesis_replays g nonce mem initial
      rw [made] at replayed
      rw [replayed] at runs
      have ordered : InOrder [genesis] :=
        (in_order_snoc [] genesis).mpr ⟨fun _ _ found => by simp at found, by rw [← made]; rfl⟩
      have valid : ValidChain g.nodeConfig [genesis] := by
        refine ⟨List.isChain_singleton _, fun block member => ?_⟩
        rw [List.mem_singleton.mp member, ← made]
        exact ⟨rfl, rfl⟩
      have issued := genesis_issues_nothing mem genesis empty (initial_total g.toGenesis mem initial)
      refine ⟨_, runs, rfl, issued, fun calls clean => ?_⟩
      have starts : StartsFrom g.toGenesis (record blockCodec genesis) [genesis] _ := ⟨whole, ordered, valid, runs⟩
      obtain ⟨synced, grown⟩ := grown_from g.toGenesis _ [genesis] _ starts calls clean
      exact ⟨ChainStore.holds_load _ _ synced.holds, synced.ordered, grown, synced_survives g.toGenesis _ _ synced⟩

end

end PyGrove.Node

namespace PyGrove.Sample

open Words Steps PyGrove.Core PyGrove.Consensus PyGrove.State PyGrove.Node

def easyInit : InitConfig where
  toGenesis := { Genesis.shipped with initialBits := 0x207FFFFF }
  sigAlgo := 1
  hashAlgo := 1

end PyGrove.Sample

namespace PyGrove.Node

open Words Steps Frames PyGrove.Core Crypto PyGrove.Consensus PyGrove.State

open Sample in
theorem easy_chain_valid :
    let genesis : Block := ⟨easyInit.genesisHeader, ⟨[], []⟩⟩
    let log := record blockCodec genesis
    (∀ tries write, cmdInit easyInit log tries write = some (log, .error .alreadyInitialized)) ∧
      match easyInit.initialState with
      | .error cause => cmdRun easyInit.toGenesis log = .error (.genesisCommittee cause)
      | .ok _ =>
          ∃ start, cmdRun easyInit.toGenesis log = .ok start ∧ start.mintedSoFar = 0 ∧ Ledger.total (balances start.state) = 0 ∧
            ∀ calls, Along (tryApplyBlock easyInit.nodeConfig) (CleanCall easyInit.nodeConfig) start calls →
              let node := runCalls (tryApplyBlock easyInit.nodeConfig) start calls
              let chain := genesis :: acceptedBlocks easyInit.nodeConfig start calls
              node.store.loadAll = .ok chain ∧ InOrder chain ∧ ValidChain easyInit.nodeConfig chain ∧
                SurvivesRestart easyInit.toGenesis node := by
  intro genesis log
  have mined : mineInline 1 easyInit.genesisHeader = some genesis := by decide +kernel
  have inited : cmdInit easyInit [] 1 .done = some (log, .ok genesis) := by
    rw [init_fresh, mined]
    rfl
  exact initialized_chain_valid easyInit 1 log genesis inited

end PyGrove.Node
