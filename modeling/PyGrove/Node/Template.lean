import PyGrove.Consensus.Retarget
import PyGrove.Node.Restart

set_option autoImplicit false

namespace PyGrove.Node

open Words PyGrove.Core Crypto PyGrove.Consensus PyGrove.State

structure MinerConfig extends NodeConfig where
  coinbase : Bytes 32
  sigAlgo : U8
  hashAlgo : U8

structure TemplateResp where
  header : BlockHeader
  target : Bytes 32
  txsCbor : List (List U8)
  witnessesCbor : List (List U8)

inductive MinerTurn where
  | preGenesis
  | noTip
  | retargetPanicked
  | mining (hdr : BlockHeader) (target : Bytes 32) (body : BlockBody)

section
variable [HashFns]

def templateFromParentWithBody (parentHash : Bytes 32) (parentHeight : U64) (bits : U32) (coinbase : Bytes 32)
    (sigAlgo hashAlgo : U8) (timestampMs : U64) (body : BlockBody) : BlockHeader where
  version := 1
  height := parentHeight + 1
  parent := parentHash
  timestampMs := timestampMs
  bits := bits
  nonce := 0
  txRoot := body.txRoot
  witnessRoot := body.witnessRoot
  stateRoot := .replicate 32 0
  reflectRoot := .replicate 32 0
  coinbase := coinbase
  sigAlgo := sigAlgo
  hashAlgo := hashAlgo

def pendingBody (pool : Mempool) : BlockBody :=
  let pending := pool.pullForBlock 256
  { txs := pending.map PendingTx.body, witnesses := pending.map PendingTx.witness }

def template (config : MinerConfig) (node : NodeState) (nowMs : U64) : TemplateResp :=
  let (parentHash, parentHeight) :=
    match node.store.tip with
    | some b => (hashHeader b.header, b.header.height)
    | none => (List.Vector.replicate 32 0, 0)
  let body := pendingBody node.mempool
  { header := templateFromParentWithBody parentHash parentHeight config.bits config.coinbase config.sigAlgo config.hashAlgo
      nowMs body
    target := targetFromBits config.bits
    txsCbor := body.txs.map txBodyWire.codec.encode
    witnessesCbor := body.witnesses.map witnessWire.codec.encode }

-- The clock is read twice: at the launch gate and for the block.
def selfMinerTurn (config : MinerConfig) (node : NodeState) (nowMs blockTs : U64) : MinerTurn :=
  if nowMs < config.genesisTimeMs then .preGenesis
  else
    match node.store.tip with
    | none => .noTip
    | some tip =>
        match nextBitsFromParent tip.header.bits tip.header.height tip.header.timestampMs blockTs config.targetBlockTimeMs
            config.emission.bootstrapHeight config.bootstrapAsertTauMs config.asertTauMs with
        | none => .retargetPanicked
        | some newBits =>
            let body := pendingBody node.mempool
            .mining
              (templateFromParentWithBody (hashHeader tip.header) tip.header.height newBits config.coinbase config.sigAlgo
                config.hashAlgo blockTs body)
              (targetFromBits newBits) body

def mineNonces (target : Bytes 32) : Nat → BlockHeader → Option BlockHeader
  | 0, _ => none
  | tries + 1, hdr =>
      if meetsTarget (hashHeader hdr).toList target.toList then some hdr
      else mineNonces target tries { hdr with nonce := hdr.nonce + 1 }

structure AgreesWithValidator (config : NodeConfig) (tip : Option Block) (hdr : BlockHeader) (target : Bytes 32) : Prop where
  bits : expectedBits config tip hdr.timestampMs = some hdr.bits
  target : target = targetFromBits hdr.bits

structure DifficultyAgrees (config : MinerConfig) (node : NodeState) (nowMs : U64) : Prop where
  template : AgreesWithValidator config.toNodeConfig node.store.tip (template config node nowMs).header
    (template config node nowMs).target
  selfMiner : ∀ (gateMs : U64) (hdr : BlockHeader) (target : Bytes 32) (body : BlockBody),
    selfMinerTurn config node gateMs nowMs = .mining hdr target body →
      AgreesWithValidator config.toNodeConfig node.store.tip hdr target
  selfMined : ∀ (gateMs : U64) (hdr found : BlockHeader) (target : Bytes 32) (body : BlockBody) (tries : Nat),
    selfMinerTurn config node gateMs nowMs = .mining hdr target body → mineNonces target tries hdr = some found →
      AgreesWithValidator config.toNodeConfig node.store.tip found target

theorem mine_nonces_found (target : Bytes 32) (tries : Nat) (hdr found : BlockHeader)
    (mined : mineNonces target tries hdr = some found) :
    (∃ nonce, found = { hdr with nonce }) ∧ meetsTarget (hashHeader found).toList target.toList := by
  induction tries generalizing hdr with
  | zero => cases mined
  | succ tries ih =>
      rw [mineNonces] at mined
      by_cases works : meetsTarget (hashHeader hdr).toList target.toList
      · rw [if_pos works] at mined
        cases mined
        exact ⟨⟨_, rfl⟩, works⟩
      · rw [if_neg works] at mined
        obtain ⟨⟨nonce, same⟩, meets⟩ := ih _ mined
        exact ⟨⟨nonce, same⟩, meets⟩

theorem self_miner_agrees (config : MinerConfig) (node : NodeState) (gateMs nowMs : U64) (hdr : BlockHeader)
    (target : Bytes 32) (body : BlockBody) (turn : selfMinerTurn config node gateMs nowMs = .mining hdr target body) :
    AgreesWithValidator config.toNodeConfig node.store.tip hdr target := by
  simp only [selfMinerTurn] at turn
  by_cases early : gateMs < config.genesisTimeMs
  · rw [if_pos early] at turn
    cases turn
  · rw [if_neg early] at turn
    cases tip : node.store.tip with
    | none =>
        rw [tip] at turn
        cases turn
    | some b =>
        rw [tip] at turn
        dsimp only at turn
        cases retargeted : nextBitsFromParent b.header.bits b.header.height b.header.timestampMs nowMs
            config.targetBlockTimeMs config.emission.bootstrapHeight config.bootstrapAsertTauMs config.asertTauMs with
        | none =>
            rw [retargeted] at turn
            cases turn
        | some newBits =>
            rw [retargeted] at turn
            cases turn
            exact ⟨retargeted, rfl⟩

theorem difficulty_agrees_iff (config : MinerConfig) (node : NodeState) (b : Block) (nowMs : U64)
    (tip : node.store.tip = some b) :
    DifficultyAgrees config node nowMs ↔
      RetargetsTo b.header.bits b.header.height b.header.timestampMs nowMs config.targetBlockTimeMs
        (nextTauMs b.header.height config.emission.bootstrapHeight config.bootstrapAsertTauMs config.asertTauMs)
        config.bits := by
  rw [← next_bits_iff]
  constructor
  · intro agrees
    have bits := agrees.template.bits
    rw [tip] at bits
    exact bits
  · intro retargeted
    refine ⟨⟨?_, rfl⟩, fun gateMs => self_miner_agrees config node gateMs nowMs, ?_⟩
    · rw [tip]
      exact retargeted
    · intro gateMs hdr found target body tries turn mined
      have agrees := self_miner_agrees config node gateMs nowMs hdr target body turn
      obtain ⟨⟨nonce, rfl⟩, _⟩ := mine_nonces_found target tries hdr found mined
      exact ⟨agrees.bits, agrees.target⟩

theorem template_refused (config : MinerConfig) (node : NodeState) (b : Block) (nowMs submitMs : U64) (nonce : U64)
    (body : BlockBody) (tip : node.store.tip = some b)
    (moved : ¬ RetargetsTo b.header.bits b.header.height b.header.timestampMs nowMs config.targetBlockTimeMs
      (nextTauMs b.header.height config.emission.bootstrapHeight config.bootstrapAsertTauMs config.asertTauMs) config.bits) :
    ¬ Acceptable config.toNodeConfig submitMs node.store.tip ⟨{ (template config node nowMs).header with nonce }, body⟩ := by
  intro acceptable
  have bits := acceptable.bits
  rw [tip] at bits
  exact moved ((next_bits_iff ..).mp bits)

end

end PyGrove.Node

/- The shipped chain, mining to the address of its headline. -/
namespace PyGrove.Sample

open Words PyGrove.Core PyGrove.Consensus PyGrove.State PyGrove.Node

def shippedMiner : MinerConfig where
  toNodeConfig := Genesis.shipped.nodeConfig
  coinbase := ⟨List.replicate 10 0 ++ [0x54, 0xF8, 0x16, 0xD4, 0xE9, 0x50, 0x07, 0xFB, 0x5D, 0xDD] ++ List.replicate 12 0, rfl⟩
  sigAlgo := 1
  hashAlgo := 1

end PyGrove.Sample

namespace PyGrove.Node

open Words PyGrove.Core PyGrove.Consensus PyGrove.State

open Sample in
theorem template_on_schedule_agrees : DifficultyAgrees shippedMiner freshNode 1778717420000 :=
  (difficulty_agrees_iff shippedMiner freshNode genesisBlock 1778717420000 rfl).mpr (by decide +kernel)

open Sample in
theorem early_template_disagrees :
    cmdRun .shipped freshNode.store.log = .ok freshNode ∧ freshNode.store.tip = some genesisBlock ∧
      (template shippedMiner freshNode 1778716880000).header.bits = 0x1F00FFFF ∧
      expectedBits shippedMiner.toNodeConfig freshNode.store.tip 1778716880000 = some 0x1F00ED08 ∧
      ¬ DifficultyAgrees shippedMiner freshNode 1778716880000 := by
  refine ⟨fresh_node_started, rfl, by decide +kernel, by decide +kernel, ?_⟩
  intro agrees
  have bits := agrees.template.bits
  revert bits
  decide +kernel

end PyGrove.Node
