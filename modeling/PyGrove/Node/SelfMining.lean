import PyGrove.Node.BlockProduction
import PyGrove.Node.HonestClock
import PyGrove.Node.SupplyAudit

set_option autoImplicit false

namespace PyGrove.Node

open Words Steps PyGrove.Core Crypto PyGrove.Consensus PyGrove.State

section
variable [HashFns]

theorem mining_turn (config : MinerConfig) (node : NodeState) (gateMs blockTs : U64) (hdr : BlockHeader)
    (target : Bytes 32) (body : BlockBody) (turn : selfMinerTurn config node gateMs blockTs = .mining hdr target body) :
    ∃ tip newBits, node.store.tip = some tip ∧ body = pendingBody node.mempool ∧
      hdr = templateFromParentWithBody (hashHeader tip.header) tip.header.height newBits config.coinbase config.sigAlgo
        config.hashAlgo blockTs body := by
  simp only [selfMinerTurn] at turn
  split at turn
  · cases turn
  · split at turn
    · cases turn
    · rename_i tip held
      split at turn
      · cases turn
      · rename_i newBits _
        cases turn
        exact ⟨tip, newBits, held, rfl, rfl⟩

theorem turn_mines (config : MinerConfig) (node : NodeState) (gateMs blockTs : U64) (tip : Block) (newBits : U32)
    (launched : ¬ gateMs < config.genesisTimeMs) (held : node.store.tip = some tip)
    (retargeted : nextBitsFromParent tip.header.bits tip.header.height tip.header.timestampMs blockTs
      config.targetBlockTimeMs config.emission.bootstrapHeight config.bootstrapAsertTauMs config.asertTauMs = some newBits) :
    selfMinerTurn config node gateMs blockTs =
      .mining (templateFromParentWithBody (hashHeader tip.header) tip.header.height newBits config.coinbase config.sigAlgo
        config.hashAlgo blockTs (pendingBody node.mempool)) (targetFromBits newBits) (pendingBody node.mempool) := by
  rw [selfMinerTurn, if_neg launched, held]
  dsimp only
  rw [retargeted]

theorem found_acceptable_iff (config : MinerConfig) (node : NodeState) (gateMs blockTs submitMs : U64)
    (hdr found : BlockHeader) (target : Bytes 32) (body : BlockBody) (tries : Nat)
    (turn : selfMinerTurn config node gateMs blockTs = .mining hdr target body)
    (mined : mineNonces target tries hdr = some found) :
    Acceptable config.toNodeConfig submitMs node.store.tip ⟨found, body⟩ ↔
      ¬ submitMs < config.genesisTimeMs ∧ TimestampPasses config.toNodeConfig node.store.tip submitMs blockTs := by
  have agrees := self_miner_agrees config node gateMs blockTs hdr target body turn
  have stamped := self_miner_stamps_now config node gateMs blockTs hdr target body turn
  obtain ⟨tip, newBits, held, _, built⟩ := mining_turn config node gateMs blockTs hdr target body turn
  obtain ⟨⟨nonce, same⟩, works⟩ := mine_nonces_found target tries hdr found mined
  have bits := agrees.bits
  rw [agrees.target] at works
  rw [held] at bits ⊢
  subst same
  constructor
  · intro acceptable
    have monotonic := acceptable.monotonic
    have skew := acceptable.skew
    dsimp only at monotonic skew
    rw [stamped] at monotonic skew
    exact ⟨acceptable.launched, monotonic, skew⟩
  · rintro ⟨launched, monotonic, skew⟩
    refine ⟨launched, ?_, ?_, bits, ?_, ?_, works, ?_, ?_⟩
    · rw [built]
      rfl
    · rw [built]
      rfl
    · simpa only [stamped] using monotonic
    · simpa only [stamped] using skew
    · rw [built]
      rfl
    · rw [built]
      rfl

theorem found_height (config : MinerConfig) (node : NodeState) (gateMs blockTs : U64) (hdr found : BlockHeader)
    (target : Bytes 32) (body : BlockBody) (tries : Nat)
    (turn : selfMinerTurn config node gateMs blockTs = .mining hdr target body)
    (mined : mineNonces target tries hdr = some found) :
    ∃ tip, node.store.tip = some tip ∧ found.height = tip.header.height + 1 := by
  obtain ⟨tip, newBits, held, _, built⟩ := mining_turn config node gateMs blockTs hdr target body turn
  obtain ⟨⟨nonce, same⟩, _⟩ := mine_nonces_found target tries hdr found mined
  refine ⟨tip, held, ?_⟩
  rw [same, built]
  rfl

variable [SigFns] [StateCbor]

theorem accepted_iff_applies (config : NodeConfig) (node : NodeState) (call : Submission) :
    (tryApplyBlock config node call).2 = .ok () ↔
      Acceptable config call.nowMs node.store.tip call.block ∧
        (applyBlock node.state call.block (callReward config node call)).2.isOk = true ∧ call.write = .done := by
  rw [tryApplyBlock, ← check_block_iff]
  cases checkBlock config call.nowMs node.store.tip call.block with
  | error e => simp
  | ok done =>
      dsimp only
      rcases applyBlock node.state call.block (callReward config node call) with ⟨state, e | out⟩
      · simp [Except.isOk, Except.toBool]
      · cases call.write with
        | done => simp [ChainStore.append, Except.isOk, Except.toBool]
        | fails written => simp [ChainStore.append]

theorem served_tip (config : NodeConfig) (node : NodeState) (event : NodeEvent) (tip : Block)
    (held : node.store.tip = some tip) :
    ∃ after, (serve config node event).1.store.tip = some after ∧
      (after = tip ∨ after.header.height = tip.header.height + 1) := by
  cases event with
  | submitTx body witness nowMs => exact ⟨tip, held, .inl rfl⟩
  | submitBlock call =>
      have outcome := try_apply_block_outcome config node call
      rw [serve]
      generalize tryApplyBlock config node call = result at outcome ⊢
      cases outcome with
      | refused e => exact ⟨tip, held, .inl rfl⟩
      | notApplied state e acceptable applied => exact ⟨tip, held, .inl rfl⟩
      | notLogged state out written acceptable applied failed => exact ⟨tip, held, .inl rfl⟩
      | logged state out acceptable applied done =>
          have height := acceptable.height
          rw [held] at height
          exact ⟨call.block, rfl, .inr height⟩

theorem tx_served (config : NodeConfig) (node : NodeState) (body : TxBody) (witness : Witness) (nowMs : U64) :
    runCalls (serve config) node [.submitTx body witness nowMs] =
      { node with mempool := (node.mempool.submit body witness nowMs).1 } := rfl

theorem tip_climbs (config : NodeConfig) (node : NodeState) (events : List NodeEvent) (tip : Block)
    (held : node.store.tip = some tip) :
    ∃ after climbed, (runCalls (serve config) node events).store.tip = some after ∧ climbed ≤ events.length ∧
      after.header.height = tip.header.height + BitVec.ofNat 64 climbed ∧ (climbed = 0 → after = tip) := by
  induction events generalizing node tip with
  | nil => exact ⟨tip, 0, held, Nat.le_refl _, by simp, fun _ => rfl⟩
  | cons event tail ih =>
      obtain ⟨middle, heldNext, moved⟩ := served_tip config node event tip held
      obtain ⟨after, climbed, reached, few, height, stayed⟩ := ih _ middle heldNext
      rcases moved with rfl | up
      · exact ⟨after, climbed, reached, by rw [List.length_cons]; omega, height, stayed⟩
      · refine ⟨after, climbed + 1, reached, by rw [List.length_cons]; omega, ?_, fun none => by omega⟩
        rw [height, up, BitVec.ofNat_add, BitVec.add_assoc, BitVec.add_comm (BitVec.ofNat 64 climbed)]
        rfl

theorem accepted_on_tip_iff (config : NodeConfig) (node : NodeState) (tip : Block) (held : node.store.tip = some tip)
    (events : List NodeEvent) (few : events.length < 2 ^ 64) (call : Submission)
    (place : call.block.header.height = tip.header.height + 1) :
    (tryApplyBlock config (runCalls (serve config) node events) call).2 = .ok () ↔
      (runCalls (serve config) node events).store.tip = node.store.tip ∧
        Acceptable config call.nowMs node.store.tip call.block ∧
        (applyBlock (runCalls (serve config) node events).state call.block
          (callReward config (runCalls (serve config) node events) call)).2.isOk = true ∧ call.write = .done := by
  obtain ⟨current, climbed, reached, climbs, height, stayed⟩ := tip_climbs config node events tip held
  rw [accepted_iff_applies]
  constructor
  · rintro ⟨passed, applies, done⟩
    have same : climbed = 0 := by
      have expected : call.block.header.height = current.header.height + 1 := by
        have height := passed.height
        rw [reached] at height
        exact height
      rw [place, height, BitVec.add_assoc, BitVec.add_comm (BitVec.ofNat 64 climbed), ← BitVec.add_assoc] at expected
      have none : BitVec.ofNat 64 climbed = 0 := BitVec.self_eq_add_right.mp expected
      have value := congrArg BitVec.toNat none
      rw [BitVec.toNat_ofNat, Nat.mod_eq_of_lt (by omega)] at value
      exact value
    have kept : (runCalls (serve config) node events).store.tip = node.store.tip := by rw [reached, held, stayed same]
    rw [kept] at passed
    exact ⟨kept, passed, applies, done⟩
  · rintro ⟨kept, passed, applies, done⟩
    rw [← kept] at passed
    exact ⟨passed, applies, done⟩

theorem self_mined_accepted_iff (config : MinerConfig) (node : NodeState) (gateMs blockTs : U64)
    (hdr found : BlockHeader) (target : Bytes 32) (body : BlockBody) (tries : Nat)
    (turn : selfMinerTurn config node gateMs blockTs = .mining hdr target body)
    (mined : mineNonces target tries hdr = some found) (events : List NodeEvent) (few : events.length < 2 ^ 64)
    (submitMs : U64) (write : WriteOutcome) :
    let after := runCalls (serve config.toNodeConfig) node events
    let call : Submission := ⟨submitMs, ⟨found, body⟩, write⟩
    (tryApplyBlock config.toNodeConfig after call).2 = .ok () ↔
      after.store.tip = node.store.tip ∧ ¬ submitMs < config.genesisTimeMs ∧
        TimestampPasses config.toNodeConfig node.store.tip submitMs blockTs ∧
        (applyBlock after.state call.block (callReward config.toNodeConfig after call)).2.isOk = true ∧ write = .done := by
  intro after call
  obtain ⟨tip, held, place⟩ := found_height config node gateMs blockTs hdr found target body tries turn mined
  rw [accepted_on_tip_iff config.toNodeConfig node tip held events few call place,
    found_acceptable_iff config node gateMs blockTs submitMs hdr found target body tries turn mined, and_assoc]

end

end PyGrove.Node

namespace PyGrove.Sample

open Words Steps PyGrove.Core PyGrove.Consensus PyGrove.State PyGrove.Node

def pokeServed : NodeEvent := .submitTx (pokeSelf 0).1 (pokeSelf 0).2 1778717000000

def pokeBody : BlockBody := ⟨[(pokeSelf 0).1], [(pokeSelf 0).2]⟩

def minedHeader : BlockHeader :=
  templateFromParentWithBody (hashHeader genesisBlock.header) genesisBlock.header.height 0x1F00FFFF shippedMiner.coinbase
    shippedMiner.sigAlgo shippedMiner.hashAlgo 1778717420769 pokeBody

theorem poke_turn :
    selfMinerTurn shippedMiner (runCalls (serve Genesis.shipped.nodeConfig) freshNode [pokeServed]) 1778717420000
      1778717420769 = .mining minedHeader (targetFromBits 0x1F00FFFF) pokeBody := by
  obtain ⟨_, _, body⟩ := first_served Genesis.shipped.nodeConfig freshNode (pokeSelf 0).1 (pokeSelf 0).2 1778717000000 rfl rfl
  have launched : ¬ (1778717420000 : U64) < shippedMiner.genesisTimeMs := by decide +kernel
  have retargeted : nextBitsFromParent genesisBlock.header.bits genesisBlock.header.height genesisBlock.header.timestampMs
      1778717420769 shippedMiner.targetBlockTimeMs shippedMiner.emission.bootstrapHeight shippedMiner.bootstrapAsertTauMs
      shippedMiner.asertTauMs = some 0x1F00FFFF := by decide +kernel
  have held : (runCalls (serve Genesis.shipped.nodeConfig) freshNode [pokeServed]).store.tip = some genesisBlock := by
    rw [pokeServed, tx_served]
    rfl
  have turn := turn_mines shippedMiner (runCalls (serve Genesis.shipped.nodeConfig) freshNode [pokeServed]) 1778717420000
    1778717420769 genesisBlock 0x1F00FFFF launched held retargeted
  rw [pokeServed, body] at turn
  exact turn

theorem poke_mined : mineNonces (targetFromBits 0x1F00FFFF) 1 minedHeader = some minedHeader := by
  rw [mineNonces, if_pos (by decide +kernel)]

end PyGrove.Sample

namespace PyGrove.Node

open Words Steps PyGrove.Core Crypto PyGrove.Consensus PyGrove.State

open Sample in
theorem poke_mined_races :
    let node := runCalls (serve shippedMiner.toNodeConfig) freshNode [pokeServed]
    let after := runCalls (serve shippedMiner.toNodeConfig) node [.submitBlock pokeOnce]
    let call : Submission := ⟨1778717421000, ⟨minedHeader, pokeBody⟩, .done⟩
    (tryApplyBlock shippedMiner.toNodeConfig after call).2 = .ok () ↔
      after.store.tip = node.store.tip ∧ ¬ (1778717421000 : U64) < shippedMiner.genesisTimeMs ∧
        TimestampPasses shippedMiner.toNodeConfig node.store.tip 1778717421000 1778717420769 ∧
        (applyBlock after.state call.block (callReward shippedMiner.toNodeConfig after call)).2.isOk = true ∧
        WriteOutcome.done = .done :=
  self_mined_accepted_iff shippedMiner (runCalls (serve shippedMiner.toNodeConfig) freshNode [pokeServed]) 1778717420000
    1778717420769 minedHeader minedHeader (targetFromBits 0x1F00FFFF) pokeBody 1 poke_turn poke_mined
    [.submitBlock pokeOnce] (by decide) 1778717421000 .done

section
variable [HashFns] [SigFns] [StateCbor]

theorem supplied_block_accepted (state : MemState) (block : Block) (reward : U128)
    (bounded : Ledger.total (balances state) + reward.toNat < 2 ^ 128) (few : block.body.txs.length < 2 ^ 64)
    (distinct : (block.body.txs.map TxBody.fromAccount).Nodup)
    (checked : ∀ item ∈ block.body.txs.zipIdx, Checked state block.body.witnesses item)
    (effects : EffectsAllowed block.header state 0 block.body.txs) : (applyBlock state block reward).2.isOk = true := by
  have feesFit : (block.body.txs.map fun tx => tx.feeSat.toNat).sum < 2 ^ 128 := by
    have each : ∀ fee ∈ block.body.txs.map fun tx => tx.feeSat.toNat, fee ≤ 2 ^ 64 := by
      rintro _ member
      obtain ⟨tx, _, rfl⟩ := List.mem_map.mp member
      exact Nat.le_of_lt tx.feeSat.isLt
    have sum := List.sum_le_card_nsmul _ _ each
    rw [List.length_map, nsmul_eq_mul, Nat.cast_id] at sum
    omega
  obtain ⟨⟨fees, staged⟩, valid⟩ := (validate_all_iff state block.body.witnesses 0 block.body.txs.zipIdx).mpr
    ⟨checked, by rw [indexed_fees, show (0 : U128).toNat = 0 from rfl, Nat.zero_add]; exact feesFit⟩
  obtain ⟨all, feesValue⟩ := validate_block_ok state block fees staged valid
  obtain ⟨spent, spend⟩ := distinct_senders_spend state staged
    (by rw [block_senders state block staged all]; exact distinct) (staged_ready state _ _ staged all)
  obtain ⟨affected, ran⟩ :=
    (effects_iff block.header state spent 0 _ (spends_metadata state spent staged spend)).mpr effects
  have spentTotal := spend_total state spent staged spend (by omega)
  rw [staged_fees _ _ _ _ all, indexed_fees, ← feesValue] at spentTotal
  have held := Ledger.balance_le_total (balances affected) (.fromCoinbase block.header.coinbase)
  rw [affected_balances block.header spent affected _ _ ran] at held
  have balance : (Accounts.loadOrDefault affected (.fromCoinbase block.header.coinbase)).balance.toNat =
      balances spent (.fromCoinbase block.header.coinbase) := by
    rw [← affected_balances block.header spent affected _ _ ran]
    rfl
  obtain ⟨⟨paid, minted⟩, coinbase⟩ := (pay_coinbase_iff block.header affected reward fees).mpr (by omega)
  rw [effects_through state spent block reward fees staged valid spend affected paid minted ran coinbase]
  rfl

theorem audited_served (config : NodeConfig) (shipped : config.emission = .bitcoinLike) (node : NodeState)
    (event : NodeEvent) (audited : ∃ burnt, Audited node.state node.mintedSoFar node.prevRewardSat burnt) :
    let next := (serve config node event).1
    ∃ burnt, Audited next.state next.mintedSoFar next.prevRewardSat burnt := by
  obtain ⟨burnt, audited⟩ := audited
  cases event with
  | submitTx body witness nowMs => exact ⟨burnt, audited⟩
  | submitBlock call => exact ⟨_, audited_call config shipped node call burnt audited⟩

variable [HexFns]

theorem served_reward_fits (g : Genesis) (shipped : g.emissionParams = .bitcoinLike) (log : List U8) (start : NodeState)
    (started : cmdRun g log = .ok start) (events : List NodeEvent) (call : Submission) :
    let node := runCalls (serve g.nodeConfig) start events
    Ledger.total (balances node.state) + (callReward g.nodeConfig node call).toNat < 2 ^ 128 := by
  intro node
  obtain ⟨burnt, audited⟩ := run_calls_invariant (serve g.nodeConfig)
    (fun node => ∃ burnt, Audited node.state node.mintedSoFar node.prevRewardSat burnt) events start
    ⟨0, audited_start g shipped log start started⟩ fun node event => audited_served g.nodeConfig shipped node event
  have reward : node.mintedSoFar.toNat + 4 * (callReward g.nodeConfig node call).toNat ≤ supplyCap := by
    rw [callReward, blockReward, show g.nodeConfig.emission = .bitcoinLike from shipped]
    exact audited_reward _ _ _ _ audited _ _ _ _
  have total : Ledger.total (balances node.state) ≤ node.mintedSoFar.toNat := Nat.le.intro audited.held
  have cap : supplyCap < 2 ^ 128 := by decide
  exact Nat.lt_of_le_of_lt (by omega) cap

theorem mined_block_accepted (g : Genesis) (shipped : g.emissionParams = .bitcoinLike) (config : MinerConfig)
    (configured : config.toNodeConfig = g.nodeConfig) (log : List U8) (start : NodeState)
    (started : cmdRun g log = .ok start) (events : List NodeEvent) (gateMs blockTs submitMs : U64)
    (hdr found : BlockHeader) (target : Bytes 32) (body : BlockBody) (tries : Nat) :
    let node := runCalls (serve g.nodeConfig) start events
    let pulled := node.mempool.pullForBlock 256
    selfMinerTurn config node gateMs blockTs = .mining hdr target body → mineNonces target tries hdr = some found →
      ¬ submitMs < g.genesisTimeMs → TimestampPasses g.nodeConfig node.store.tip submitMs blockTs →
      (∀ (i : Nat) (pending : PendingTx), pulled[i]? = some pending →
        ∃ staged, validateTx i node.state pending.body pending.witness = .ok staged) →
      EffectsAllowed found node.state 0 (pulled.map PendingTx.body) →
      (pulled.map fun pending => pending.body.fromAccount).Nodup →
      (tryApplyBlock g.nodeConfig node ⟨submitMs, ⟨found, body⟩, .done⟩).2 = .ok () := by
  intro node pulled turn mined launched passes checked effects distinct
  have sound := pull_sound node.mempool (served_pool_sound g log start events started)
  obtain ⟨tip, _, _, rfl, _⟩ := mining_turn config node gateMs blockTs hdr target body turn
  have acceptable : Acceptable g.nodeConfig submitMs node.store.tip ⟨found, pendingBody node.mempool⟩ := by
    rw [← configured, found_acceptable_iff config node gateMs blockTs submitMs hdr found target _ tries turn mined,
      configured]
    exact ⟨launched, passes⟩
  refine (accepted_iff_applies ..).mpr ⟨acceptable, supplied_block_accepted _ _ _ ?_ ?_ ?_ ?_ effects, rfl⟩
  · exact served_reward_fits g shipped log start started events _
  · rw [pendingBody, List.length_map]
    exact Nat.lt_of_le_of_lt sound.short (by decide)
  · rw [pendingBody, List.map_map]
    exact distinct
  · exact (pulled_checked_iff node.state pulled sound.witnessed).mpr checked

theorem self_miner_extends (g : Genesis) (shipped : g.emissionParams = .bitcoinLike) (config : MinerConfig)
    (configured : config.toNodeConfig = g.nodeConfig) (log : List U8) (start : NodeState)
    (started : cmdRun g log = .ok start) (events : List NodeEvent) (gateMs blockTs submitMs : U64)
    (hdr found : BlockHeader) (target : Bytes 32) (body : BlockBody) (tries : Nat) :
    let node := runCalls (serve g.nodeConfig) start events
    let pulled := node.mempool.pullForBlock 256
    let next := tryApplyBlock g.nodeConfig node ⟨submitMs, ⟨found, body⟩, .done⟩
    selfMinerTurn config node gateMs blockTs = .mining hdr target body → mineNonces target tries hdr = some found →
      ¬ submitMs < g.genesisTimeMs → TimestampPasses g.nodeConfig node.store.tip submitMs blockTs →
      (∀ (i : Nat) (pending : PendingTx), pulled[i]? = some pending →
        ∃ staged, validateTx i node.state pending.body pending.witness = .ok staged) →
      EffectsAllowed found node.state 0 (pulled.map PendingTx.body) →
      (pulled.map fun pending => pending.body.fromAccount).Nodup →
      next.2 = .ok () ∧ next.1.store.tip = some ⟨found, body⟩ ∧
        ∀ max, ∀ pending ∈ next.1.mempool.pullForBlock max, pending.body.bodyHash ∉ confirmedHashes ⟨found, body⟩ := by
  intro node pulled next turn mined launched passes checked effects distinct
  have accepted : next.2 = .ok () := mined_block_accepted g shipped config configured log start started events gateMs blockTs
    submitMs hdr found target body tries turn mined launched passes checked effects distinct
  refine ⟨accepted, (accepted_tip g.nodeConfig node _ accepted).2, fun max pending member => ?_⟩
  have outcome := try_apply_block_outcome g.nodeConfig node ⟨submitMs, ⟨found, body⟩, .done⟩
  change CallOutcome _ _ _ next at outcome
  clear_value next
  cases outcome with
  | refused e => cases accepted
  | notApplied state e acceptable applied => cases accepted
  | notLogged state out written acceptable applied failed => cases accepted
  | logged state out acceptable applied done =>
      exact node.mempool.confirmed_not_pulled _ max (served_pool_sound g log start events started) pending member

end

open Sample in
theorem poke_mined_extends :
    let node := runCalls (serve Genesis.shipped.nodeConfig) freshNode [pokeServed]
    let next := tryApplyBlock Genesis.shipped.nodeConfig node ⟨1778717421000, ⟨minedHeader, pokeBody⟩, .done⟩
    next.2 = .ok () ∧ next.1.store.tip = some ⟨minedHeader, pokeBody⟩ ∧
      ∀ max, ∀ pending ∈ next.1.mempool.pullForBlock max,
        pending.body.bodyHash ∉ confirmedHashes ⟨minedHeader, pokeBody⟩ := by
  have tip : (runCalls (serve Genesis.shipped.nodeConfig) freshNode [pokeServed]).store.tip = some genesisBlock := by
    rw [pokeServed, tx_served]
    rfl
  have pulled : (runCalls (serve Genesis.shipped.nodeConfig) freshNode [pokeServed]).mempool.pullForBlock 256 =
      [⟨(pokeSelf 0).1, (pokeSelf 0).2, 1778717000000⟩] := by
    rw [pokeServed, tx_served]
    dsimp only
    exact Mempool.pull_first 10000 256 (pokeSelf 0).1 (pokeSelf 0).2 1778717000000 rfl (by decide)
  have state : (runCalls (serve Genesis.shipped.nodeConfig) freshNode [pokeServed]).state = freshNode.state := by
    rw [pokeServed, tx_served]
  have passes : TimestampPasses Genesis.shipped.nodeConfig (some genesisBlock) 1778717421000 1778717420769 :=
    ⟨by decide +kernel, by decide +kernel⟩
  have valid : (validateTx 0 freshNode.state (pokeSelf 0).1 (pokeSelf 0).2).isOk = true := by decide +kernel
  refine self_miner_extends .shipped shipped_emission_params shippedMiner rfl freshNode.store.log freshNode fresh_node_started
    [pokeServed] 1778717420000 1778717420769 1778717421000 minedHeader minedHeader (targetFromBits 0x1F00FFFF) pokeBody 1
    poke_turn poke_mined (by decide +kernel) (tip ▸ passes) ?_ ?_ ?_
  · rw [pulled, state]
    intro i pending found
    cases i with
    | zero =>
        cases found
        cases result : validateTx 0 freshNode.state (pokeSelf 0).1 (pokeSelf 0).2 with
        | error e =>
            rw [result] at valid
            cases valid
        | ok staged => exact ⟨staged, rfl⟩
    | succ i => cases found
  · rw [pulled, state, List.map_cons, List.map_nil, effects_allowed_cons]
    exact ⟨trivial, fun i tx found => by cases found⟩
  · rw [pulled]
    exact List.nodup_singleton _

end PyGrove.Node
