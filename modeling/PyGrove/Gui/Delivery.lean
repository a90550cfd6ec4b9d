import PyGrove.Gui.Miner

set_option autoImplicit false

namespace PyGrove.Node

open Words Steps PyGrove.Core Crypto PyGrove.Consensus PyGrove.State

theorem decode_each_encoded {α : Type} (codec : Codec α) (values : List α) (first : Nat) :
    decodeEach codec ((values.map codec.encode).zipIdx first) = .ok values := by
  induction values generalizing first with
  | nil => rfl
  | cons value tail ih =>
      rw [List.map_cons, List.zipIdx_cons, decodeEach, Codec.decode_encode]
      dsimp only
      rw [ih (first + 1)]

section
variable [HashFns]

theorem template_acceptable_iff (config : MinerConfig) (node : NodeState) (tip : Block) (held : node.store.tip = some tip)
    (templateMs submitMs : U64) (coinbase : Bytes 32) (nonce : U64) :
    let header := { (template config node templateMs).header with coinbase, nonce }
    Gui.Works (template config node templateMs).target header →
      (Acceptable config.toNodeConfig submitMs node.store.tip ⟨header, pendingBody node.mempool⟩ ↔
        RetargetsTo tip.header.bits tip.header.height tip.header.timestampMs templateMs config.targetBlockTimeMs
            (nextTauMs tip.header.height config.emission.bootstrapHeight config.bootstrapAsertTauMs config.asertTauMs)
            config.bits ∧
          ¬ submitMs < config.genesisTimeMs ∧ TimestampPasses config.toNodeConfig node.store.tip submitMs templateMs) := by
  intro header works
  have parent : header.parent = (tipView config.toNodeConfig node.store.tip).expectedParent := by
    show (template config node templateMs).header.parent = _
    rw [template, held]
    rfl
  have height : header.height = (tipView config.toNodeConfig node.store.tip).expectedHeight := by
    show (template config node templateMs).header.height = _
    rw [template, held]
    rfl
  have bits : expectedBits config.toNodeConfig node.store.tip templateMs = some config.bits ↔
      RetargetsTo tip.header.bits tip.header.height tip.header.timestampMs templateMs config.targetBlockTimeMs
        (nextTauMs tip.header.height config.emission.bootstrapHeight config.bootstrapAsertTauMs config.asertTauMs)
        config.bits := by
    rw [held]
    exact next_bits_iff ..
  rw [← bits]
  constructor
  · intro acceptable
    exact ⟨acceptable.bits, acceptable.launched, acceptable.monotonic, acceptable.skew⟩
  · rintro ⟨retargeted, launched, monotonic, skew⟩
    exact ⟨launched, parent, height, retargeted, monotonic, skew, works, rfl, rfl⟩

end

end PyGrove.Node

namespace PyGrove.Gui

open Words Steps PyGrove.Core Crypto PyGrove.Consensus PyGrove.State PyGrove.Node

section
variable [HashFns] [SigFns] [StateCbor]

theorem deliver_template (config : MinerConfig) (node after : NodeState) (templateMs submitMs : U64) (coinbase : Bytes 32)
    (nonce : U64) (write : WriteOutcome) :
    let header := { (template config node templateMs).header with coinbase, nonce }
    (deliver config.toNodeConfig (template config node templateMs) after header submitMs write).2 = true ↔
      PullFits config node templateMs nonce ∧
        (tryApplyBlock config.toNodeConfig after ⟨submitMs, ⟨header, pendingBody node.mempool⟩, write⟩).2 = .ok () := by
  intro header
  have fits := submittable_iff config node templateMs coinbase nonce
  rw [Submittable, minedRequest] at fits
  rw [← fits, deliver]
  cases readBoundedBody (post (rpcSubmitBlock header (template config node templateMs).txsCbor
      (template config node templateMs).witnessesCbor)) maxRpcBodyBytes with
  | error e =>
      refine iff_of_false (fun taken => by cases taken) ?_
      rintro ⟨⟨body, accepted⟩, _⟩
      cases accepted
  | ok bytes =>
      have counts : (template config node templateMs).txsCbor.length = (template config node templateMs).witnessesCbor.length := by
        show (((pendingBody node.mempool).txs.map _).length) = ((pendingBody node.mempool).witnesses.map _).length
        rw [pendingBody, List.length_map, List.length_map, List.length_map, List.length_map]
      have txs : decodeEach txBodyWire.codec (template config node templateMs).txsCbor.zipIdx = .ok (pendingBody node.mempool).txs :=
        decode_each_encoded txBodyWire.codec _ 0
      have witnesses : decodeEach witnessWire.codec (template config node templateMs).witnessesCbor.zipIdx = .ok (pendingBody node.mempool).witnesses :=
        decode_each_encoded witnessWire.codec _ 0
      dsimp only
      rw [submit, if_neg (not_not.mpr counts), txs]
      dsimp only
      rw [witnesses]
      dsimp only
      cases (tryApplyBlock config.toNodeConfig after ⟨submitMs, ⟨header, pendingBody node.mempool⟩, write⟩).2 with
      | error e => exact iff_of_false (fun taken => by cases taken) (fun accepted => by cases accepted.2)
      | ok done => exact iff_of_true rfl ⟨⟨bytes, rfl⟩, rfl⟩

theorem session_block_taken_iff (config : MinerConfig) (node : NodeState) (tip : Block) (held : node.store.tip = some tip)
    (templateMs : U64) (coinbase : Bytes 32) (threadId stride hashes accepted rejected : U64) (header : BlockHeader)
    (events : List NodeEvent) (few : events.length < 2 ^ 64) (submitMs : U64) (write : WriteOutcome) :
    let resp := template config node templateMs
    let worker := startSession resp coinbase threadId hashes accepted rejected
    let after := runCalls (serve config.toNodeConfig) node events
    let call : Submission := ⟨submitMs, ⟨header, pendingBody node.mempool⟩, write⟩
    FirstWorking worker.tmpl stride resp.target header →
      ((deliver config.toNodeConfig resp after header submitMs write).2 = true ↔
        PullFits config node templateMs header.nonce ∧ after.store.tip = node.store.tip ∧
          RetargetsTo tip.header.bits tip.header.height tip.header.timestampMs templateMs config.targetBlockTimeMs
            (nextTauMs tip.header.height config.emission.bootstrapHeight config.bootstrapAsertTauMs config.asertTauMs)
            config.bits ∧
          ¬ submitMs < config.genesisTimeMs ∧ TimestampPasses config.toNodeConfig node.store.tip submitMs templateMs ∧
          (applyBlock after.state call.block (callReward config.toNodeConfig after call)).2.isOk = true ∧ write = .done) := by
  intro resp worker after call sendable
  obtain ⟨k, reached, works⟩ := sendable
  have own : header = { resp.header with coinbase, nonce := header.nonce } := by
    rw [reached.place]
    rfl
  have place : header.height = tip.header.height + 1 := by
    rw [own]
    show (template config node templateMs).header.height = _
    rw [template, held]
    rfl
  have acceptable := template_acceptable_iff config node tip held templateMs submitMs coinbase header.nonce
  dsimp only at acceptable
  rw [← own] at acceptable
  have delivered := deliver_template config node after templateMs submitMs coinbase header.nonce write
  dsimp only at delivered
  rw [← own] at delivered
  rw [delivered, accepted_on_tip_iff config.toNodeConfig node tip held events few call place, acceptable works, and_assoc,
    and_assoc]

end

end PyGrove.Gui

namespace PyGrove.Sample

open Words Steps PyGrove.Core PyGrove.Consensus PyGrove.State PyGrove.Node PyGrove.Gui

def pokePool : NodeState := runCalls (serve Genesis.shipped.nodeConfig) freshNode [pokeServed]

theorem poke_template : template shippedMiner pokePool 1778717420769 = pokeTemplate := by
  obtain ⟨_, _, body⟩ := first_served Genesis.shipped.nodeConfig freshNode (pokeSelf 0).1 (pokeSelf 0).2 1778717000000 rfl rfl
  have held : pokePool.store.tip = some genesisBlock := by
    rw [pokePool, pokeServed, tx_served]
    rfl
  rw [template, held]
  dsimp only
  rw [pokePool, pokeServed, body]
  rfl

theorem poke_first_working :
    FirstWorking (startSession pokeTemplate shippedMiner.coinbase 0 0 0 0).tmpl 4 pokeTemplate.target minedHeader :=
  ⟨0, ⟨by decide +kernel, fun j none => absurd none (Nat.not_lt_zero j)⟩, by unfold Works; decide +kernel⟩

end PyGrove.Sample

namespace PyGrove.Gui

open Words Steps PyGrove.Core PyGrove.Consensus PyGrove.State PyGrove.Node

open Sample in
theorem poke_session_block :
    let after := runCalls (serve shippedMiner.toNodeConfig) pokePool [.submitBlock pokeOnce]
    let call : Submission := ⟨1778717421000, ⟨minedHeader, pendingBody pokePool.mempool⟩, .done⟩
    (deliver shippedMiner.toNodeConfig (template shippedMiner pokePool 1778717420769) after minedHeader 1778717421000 .done).2 =
        true ↔
      PullFits shippedMiner pokePool 1778717420769 minedHeader.nonce ∧ after.store.tip = pokePool.store.tip ∧
        RetargetsTo genesisBlock.header.bits genesisBlock.header.height genesisBlock.header.timestampMs 1778717420769
          shippedMiner.targetBlockTimeMs
          (nextTauMs genesisBlock.header.height shippedMiner.emission.bootstrapHeight shippedMiner.bootstrapAsertTauMs
            shippedMiner.asertTauMs) shippedMiner.bits ∧
        ¬ (1778717421000 : U64) < shippedMiner.genesisTimeMs ∧
        TimestampPasses shippedMiner.toNodeConfig pokePool.store.tip 1778717421000 1778717420769 ∧
        (applyBlock after.state call.block (callReward shippedMiner.toNodeConfig after call)).2.isOk = true ∧
        WriteOutcome.done = .done :=
  session_block_taken_iff shippedMiner pokePool genesisBlock (by rw [pokePool, pokeServed, tx_served]; rfl) 1778717420769
    shippedMiner.coinbase 0 4 0 0 0 minedHeader [.submitBlock pokeOnce] (by decide) 1778717421000 .done
    (by rw [poke_template]; exact poke_first_working)

end PyGrove.Gui
