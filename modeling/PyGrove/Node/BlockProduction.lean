import PyGrove.Node.Template
import PyGrove.State.Acceptance

set_option autoImplicit false

namespace PyGrove.Node

open Words Steps PyGrove.Core Crypto PyGrove.Consensus PyGrove.State

inductive NodeEvent where
  | submitTx (body : TxBody) (witness : Witness) (nowMs : U64)
  | submitBlock (call : Submission)

inductive NodeReply where
  | tx (reply : Except MempoolError (Bytes 32))
  | block (reply : Except SubmitError Unit)

section
variable [HashFns] [SigFns] [StateCbor]

def serve (config : NodeConfig) (node : NodeState) : NodeEvent → NodeState × NodeReply
  | .submitTx body witness nowMs =>
      let (mempool, reply) := node.mempool.submit body witness nowMs
      ({ node with mempool }, .tx reply)
  | .submitBlock call =>
      let (next, reply) := tryApplyBlock config node call
      (next, .block reply)

theorem sound_served (config : NodeConfig) (node : NodeState) (event : NodeEvent) (sound : node.mempool.Sound) :
    (serve config node event).1.mempool.Sound := by
  cases event with
  | submitTx body witness nowMs => exact node.mempool.sound_submit body witness nowMs sound
  | submitBlock call =>
      have outcome := try_apply_block_outcome config node call
      rw [serve]
      generalize tryApplyBlock config node call = result at outcome ⊢
      cases outcome with
      | refused e => exact sound
      | notApplied state e acceptable applied => exact sound
      | notLogged state out written acceptable applied failed => exact node.mempool.sound_confirm _ sound
      | logged state out acceptable applied done => exact node.mempool.sound_confirm _ sound

variable [HexFns]

theorem started_pool (g : Genesis) (log : List U8) (start : NodeState) (started : cmdRun g log = .ok start) :
    start.mempool = .new 10000 := by
  simp only [cmdRun] at started
  cases opened : ChainStore.openLog log with
  | error e =>
      rw [opened] at started
      cases started
  | ok store =>
      rw [opened] at started
      dsimp only at started
      by_cases empty : store.tip.isNone
      · rw [if_pos empty] at started
        cases started
      · rw [if_neg empty] at started
        cases loaded : store.loadAll with
        | error e =>
            rw [loaded] at started
            cases started
        | ok blocks =>
            rw [loaded] at started
            dsimp only at started
            cases replayed : replay g blocks with
            | error e =>
                rw [replayed] at started
                cases started
            | ok reached =>
                rw [replayed] at started
                cases started
                rfl

theorem served_pool_sound (g : Genesis) (log : List U8) (start : NodeState) (events : List NodeEvent)
    (started : cmdRun g log = .ok start) : (runCalls (serve g.nodeConfig) start events).mempool.Sound := by
  apply run_calls_invariant (serve g.nodeConfig) (fun node => node.mempool.Sound)
  · rw [started_pool g log start started]
    exact Mempool.sound_new 10000
  · exact fun node event sound => sound_served g.nodeConfig node event sound

end

section
variable [HashFns]

structure PullSound (pulled : List PendingTx) : Prop where
  short : pulled.length ≤ 256
  distinct : (pulled.map fun pending => pending.body.bodyHash).Nodup
  ordered : pulled.Pairwise fun a b => Mempool.pullsBefore a b = true
  witnessed : ∀ pending ∈ pulled, pending.witness.hash = pending.body.witnessHash

theorem pull_sound (pool : Mempool) (sound : pool.Sound) : PullSound (pool.pullForBlock 256) := by
  refine ⟨pool.length_pull 256, pool.pull_distinct 256 sound, pool.pull_sorted 256, ?_⟩
  intro pending member
  obtain ⟨hash, found⟩ := pool.pulled_pending 256 pending member
  exact sound.witness hash pending found

variable [SigFns] [StateCbor]

structure JointlyApplicable (state : MemState) (header : BlockHeader) (reward : U128) (pulled : List PendingTx) : Prop where
  checked : ∀ (i : Nat) (pending : PendingTx), pulled[i]? = some pending →
    ∃ staged, validateTx i state pending.body pending.witness = .ok staged
  effects : EffectsAllowed header state 0 (pulled.map PendingTx.body)
  coinbase : balanceAfter state (.fromCoinbase header.coinbase) (pulled.map PendingTx.body) + reward.toNat +
    (pulled.map fun pending => pending.body.feeSat.toNat).sum < 2 ^ 128

theorem pulled_checked_iff (state : MemState) (pulled : List PendingTx)
    (witnessed : ∀ pending ∈ pulled, pending.witness.hash = pending.body.witnessHash) :
    (∀ item ∈ (pulled.map PendingTx.body).zipIdx, Checked state (pulled.map PendingTx.witness) item) ↔
      ∀ (i : Nat) (pending : PendingTx), pulled[i]? = some pending →
        ∃ staged, validateTx i state pending.body pending.witness = .ok staged := by
  constructor
  · intro checked i pending found
    have item : (pending.body, i) ∈ (pulled.map PendingTx.body).zipIdx := by
      rw [List.mem_zipIdx_iff_getElem?, List.getElem?_map, found]
      rfl
    obtain ⟨witness, staged, present, _, valid⟩ := checked _ item
    rw [List.getElem?_map, found] at present
    cases present
    exact ⟨staged, valid⟩
  · rintro checked ⟨body, i⟩ item
    rw [List.mem_zipIdx_iff_getElem?, List.getElem?_map, Option.map_eq_some_iff] at item
    obtain ⟨pending, found, rfl⟩ := item
    obtain ⟨staged, valid⟩ := checked i pending found
    refine ⟨pending.witness, staged, ?_, witnessed pending (List.mem_of_getElem? found), valid⟩
    rw [List.getElem?_map, found]
    rfl

theorem pending_body_applicable_iff (pool : Mempool) (sound : PullSound (pool.pullForBlock 256)) (state : MemState)
    (header : BlockHeader) (reward : U128) :
    Applicable state ⟨header, pendingBody pool⟩ reward ↔
      JointlyApplicable state header reward (pool.pullForBlock 256) := by
  have checked := pulled_checked_iff state (pool.pullForBlock 256) sound.witnessed
  have fees : ((pool.pullForBlock 256).map PendingTx.body).map (fun tx => tx.feeSat.toNat) =
      (pool.pullForBlock 256).map fun pending => pending.body.feeSat.toNat := List.map_map
  constructor
  · intro applicable
    have coinbase := applicable.coinbase
    dsimp only [pendingBody] at coinbase
    rw [fees] at coinbase
    exact ⟨checked.mp applicable.checked, applicable.effects, coinbase⟩
  · intro joint
    refine ⟨checked.mpr joint.checked, joint.effects, ?_⟩
    dsimp only [pendingBody]
    rw [fees]
    exact joint.coinbase

variable [HexFns]

theorem pulled_body_accepted (g : Genesis) (log : List U8) (start : NodeState) (started : cmdRun g log = .ok start)
    (events : List NodeEvent) (header : BlockHeader) (reward : U128) :
    let node := runCalls (serve g.nodeConfig) start events
    let pulled := node.mempool.pullForBlock 256
    let accepted := (applyBlock node.state ⟨header, pendingBody node.mempool⟩ reward).2.isOk = true
    PullSound pulled ∧
      (JointlyApplicable node.state header reward pulled →
        (pulled.map fun pending => pending.body.fromAccount).Nodup → accepted) ∧
      (accepted → JointlyApplicable node.state header reward pulled ∧
        pulled.Pairwise fun a b => a.body.fromAccount = b.body.fromAccount →
          (Accounts.loadOrDefault node.state a.body.fromAccount).nonce = BitVec.allOnes 64) := by
  intro node pulled accepted
  have sound := pull_sound node.mempool (served_pool_sound g log start events started)
  have applicable := pending_body_applicable_iff node.mempool sound node.state header reward
  refine ⟨sound, ?_, ?_⟩
  · intro joint distinct
    apply applicable_accepted node.state ⟨header, pendingBody node.mempool⟩ reward _ (applicable.mpr joint)
    dsimp only [pendingBody]
    rw [List.map_map]
    exact distinct
  · intro taken
    have repeats := accepted_repeat_saturated node.state _ reward taken
    dsimp only [pendingBody] at repeats
    rw [List.pairwise_map] at repeats
    exact ⟨applicable.mp (accepted_applicable node.state _ reward taken), repeats⟩

omit [HexFns] in
theorem rejected_block_keeps_pool (config : NodeConfig) (node : NodeState) (call : Submission) (e : ApplyError)
    (rejected : (tryApplyBlock config node call).2 = .error (.applyBlock e)) :
    pendingBody (tryApplyBlock config node call).1.mempool = pendingBody node.mempool := by
  have outcome := try_apply_block_outcome config node call
  generalize tryApplyBlock config node call = result at outcome rejected ⊢
  cases outcome with
  | refused e => rfl
  | notApplied state e acceptable applied => rfl
  | notLogged state out written acceptable applied failed => cases rejected
  | logged state out acceptable applied done => cases rejected

end

end PyGrove.Node

namespace PyGrove.Sample

open Words PyGrove.Core PyGrove.State PyGrove.Node

def unsignedPoke : TxBody × Witness :=
  let witness : Witness := { (pokeSelf 0).2 with sig := [] }
  ({ (pokeSelf 0).1 with witnessHash := witness.hash }, witness)

end PyGrove.Sample

namespace PyGrove.Node

open Words Steps PyGrove.Core Crypto PyGrove.Consensus PyGrove.State

theorem first_served [HashFns] [SigFns] [StateCbor] (config : NodeConfig) (node : NodeState) (body : TxBody)
    (witness : Witness) (nowMs : U64) (empty : node.mempool = .new 10000) (hashed : body.witnessHash = witness.hash) :
    (serve config node (.submitTx body witness nowMs)).2 = .tx (.ok body.bodyHash) ∧
      (runCalls (serve config) node [.submitTx body witness nowMs]).state = node.state ∧
      pendingBody (runCalls (serve config) node [.submitTx body witness nowMs]).mempool = ⟨[body], [witness]⟩ := by
  have served : serve config node (.submitTx body witness nowMs) =
      ({ node with mempool := (node.mempool.submit body witness nowMs).1 }, .tx (node.mempool.submit body witness nowMs).2) :=
    rfl
  rw [runCalls, List.foldl_cons, List.foldl_nil, served, empty]
  refine ⟨?_, rfl, ?_⟩
  · rw [Mempool.submit_first 10000 body witness nowMs hashed]
  · rw [pendingBody, Mempool.pull_first 10000 256 body witness nowMs hashed (by decide)]
    rfl

open Sample in
theorem unsigned_tx_blocks_production :
    let event : NodeEvent := .submitTx unsignedPoke.1 unsignedPoke.2 1778717000000
    let node := runCalls (serve Genesis.shipped.nodeConfig) freshNode [event]
    cmdRun .shipped freshNode.store.log = .ok freshNode ∧
      (serve Genesis.shipped.nodeConfig freshNode event).2 = .tx (.ok unsignedPoke.1.bodyHash) ∧
      ∀ (header : BlockHeader) (reward : U128),
        (applyBlock node.state ⟨header, pendingBody node.mempool⟩ reward).2 = .error (.badSignature 0 .badSignature) := by
  intro event node
  obtain ⟨reply, state, body⟩ := first_served Genesis.shipped.nodeConfig freshNode unsignedPoke.1 unsignedPoke.2
    1778717000000 rfl rfl
  have invalid : validateAll freshNode.state [unsignedPoke.2] 0 [(unsignedPoke.1, 0)] =
      .error (.badSignature 0 .badSignature) := by decide +kernel
  refine ⟨fresh_node_started, reply, fun header reward => ?_⟩
  rw [body, state, applyBlock]
  dsimp only [List.zipIdx_cons, List.zipIdx_nil]
  rw [invalid]

open Sample in
theorem signed_tx_makes_block :
    let node := runCalls (serve Genesis.shipped.nodeConfig) freshNode
      [.submitTx (pokeSelf 0).1 (pokeSelf 0).2 1778717000000]
    JointlyApplicable node.state pokeOnce.block.header 0 (node.mempool.pullForBlock 256) := by
  intro node
  obtain ⟨_, state, body⟩ := first_served Genesis.shipped.nodeConfig freshNode (pokeSelf 0).1 (pokeSelf 0).2
    1778717000000 rfl rfl
  have applied : (applyBlock freshNode.state ⟨pokeOnce.block.header, ⟨[(pokeSelf 0).1], [(pokeSelf 0).2]⟩⟩ 0).2.isOk = true := by
    decide +kernel
  rw [← state, ← body] at applied
  have accepted := pulled_body_accepted .shipped freshNode.store.log freshNode fresh_node_started
    [.submitTx (pokeSelf 0).1 (pokeSelf 0).2 1778717000000] pokeOnce.block.header 0
  exact (accepted.2.2 applied).1

end PyGrove.Node
