import PyGrove.Node.StalePool

set_option autoImplicit false

namespace PyGrove.Node

open Words Steps PyGrove.Core Crypto PyGrove.Consensus PyGrove.State

structure MiningNode where
  node : NodeState
  handedOut : List BlockBody

-- Miners do not make up bodies: a block is one of those, under any header, and
-- as old as one likes.
inductive MiningEvent where
  | submitTx (body : TxBody) (witness : Witness) (nowMs : U64)
  | template
  | submitBlock (i : Nat) (header : BlockHeader) (nowMs : U64) (write : WriteOutcome)

def Carries (pending : PendingTx) (body : BlockBody) : Prop :=
  ∃ i : Nat, body.txs[i]? = some pending.body ∧ body.witnesses[i]? = some pending.witness

section
variable [HashFns] [SigFns] [StateCbor]

def miningStep (config : NodeConfig) (mining : MiningNode) : MiningEvent → MiningNode × Option (Except SubmitError Unit)
  | .submitTx body witness nowMs =>
      ({ mining with node := (serve config mining.node (.submitTx body witness nowMs)).1 }, none)
  | .template => ({ mining with handedOut := mining.handedOut ++ [pendingBody mining.node.mempool] }, none)
  | .submitBlock i header nowMs write =>
      match mining.handedOut[i]? with
      | none => (mining, none)
      | some body =>
          let (node, reply) := tryApplyBlock config mining.node ⟨nowMs, ⟨header, body⟩, write⟩
          ({ mining with node }, some reply)

def Invalid (state : MemState) (pending : PendingTx) : Prop :=
  ∀ idx, ¬ ∃ staged, validateTx idx state pending.body pending.witness = .ok staged

def Roomy (mining : MiningNode) : MiningEvent → Prop
  | .submitTx .. => mining.node.mempool.len < 256 ∧ mining.node.mempool.len < mining.node.mempool.cap
  | _ => True

omit [SigFns] [StateCbor] in
theorem submit_len (pool : Mempool) (body : TxBody) (witness : Witness) (nowMs : U64) (room : pool.len < pool.cap) :
    (pool.submit body witness nowMs).1.len ≤ pool.len + 1 := by
  rw [Mempool.submit, pool.evict_room room]
  split
  · exact Nat.le_succ _
  · split
    · exact Nat.le_succ _
    · exact Std.ExtTreeMap.size_insert_le

omit [SigFns] [StateCbor] in
theorem pending_carried (pool : Mempool) (hash : Bytes 32) (pending : PendingTx) (small : pool.len ≤ 256)
    (found : pool.inner[hash]? = some pending) : Carries pending (pendingBody pool) := by
  obtain ⟨i, position⟩ := List.mem_iff_getElem?.mp (pool.small_pulled 256 hash pending small found)
  refine ⟨i, ?_, ?_⟩
  · rw [pendingBody, List.getElem?_map, position]
    rfl
  · rw [pendingBody, List.getElem?_map, position]
    rfl

theorem carried_refused (state : MemState) (block : Block) (reward : U128) (pending : PendingTx)
    (invalid : Invalid state pending) (carries : Carries pending block.body) :
    ∃ e, applyBlock state block reward = (state, .error e) := by
  have refused : ¬ ∃ valid, validateAll state block.body.witnesses 0 block.body.txs.zipIdx = .ok valid := by
    rw [validate_all_iff]
    rintro ⟨checked, _⟩
    obtain ⟨i, body, witness⟩ := carries
    obtain ⟨other, staged, present, _, valid⟩ := checked (pending.body, i) (List.mem_zipIdx_iff_getElem?.mpr body)
    rw [witness] at present
    cases present
    exact invalid i ⟨staged, valid⟩
  have outcome := apply_block_outcome state block reward
  generalize applyBlock state block reward = result at outcome
  cases outcome with
  | rejected e => exact ⟨e, rfl⟩
  | spendFailed _ _ _ _ valid => exact absurd ⟨_, valid⟩ refused
  | effectFailed _ _ _ _ _ valid => exact absurd ⟨_, valid⟩ refused
  | coinbaseFailed _ _ _ _ _ valid => exact absurd ⟨_, valid⟩ refused
  | accepted _ _ _ _ _ _ valid => exact absurd ⟨_, valid⟩ refused

theorem carried_block_refused (config : NodeConfig) (node : NodeState) (call : Submission) (pending : PendingTx)
    (invalid : Invalid node.state pending) (carries : Carries pending call.block.body) :
    ∃ e, tryApplyBlock config node call = (node, .error e) := by
  obtain ⟨e, refused⟩ := carried_refused node.state call.block (callReward config node call) pending invalid carries
  have outcome := try_apply_block_outcome config node call
  generalize tryApplyBlock config node call = result at outcome ⊢
  cases outcome with
  | refused e => exact ⟨e, rfl⟩
  | notApplied state e acceptable applied =>
      cases refused.symm.trans applied
      exact ⟨_, rfl⟩
  | notLogged state out written acceptable applied failed => cases refused.symm.trans applied
  | logged state out acceptable applied done => cases refused.symm.trans applied

structure Frozen (node : NodeState) (pending : PendingTx) (mining : MiningNode) : Prop where
  same : ∃ mempool, mining.node = { node with mempool }
  held : mining.node.mempool.inner[pending.body.bodyHash]? = some pending
  small : mining.node.mempool.len ≤ 256
  carried : ∀ body ∈ mining.handedOut, Carries pending body

theorem frozen_step (config : NodeConfig) (node : NodeState) (pending : PendingTx) (invalid : Invalid node.state pending)
    (mining : MiningNode) (event : MiningEvent) (frozen : Frozen node pending mining) (roomy : Roomy mining event) :
    Frozen node pending (miningStep config mining event).1 ∧ (miningStep config mining event).2 ≠ some (.ok ()) := by
  obtain ⟨⟨mempool, same⟩, held, small, carried⟩ := frozen
  cases event with
  | submitTx body witness nowMs =>
      obtain ⟨few, room⟩ := roomy
      refine ⟨⟨⟨(mining.node.mempool.submit body witness nowMs).1, ?_⟩, ?_, ?_, carried⟩, fun none => by cases none⟩
      · have step : (miningStep config mining (.submitTx body witness nowMs)).1.node =
            { mining.node with mempool := (mining.node.mempool.submit body witness nowMs).1 } := rfl
        rw [step, same]
      · exact mining.node.mempool.submit_keeps body witness nowMs _ pending room held
      · exact (submit_len mining.node.mempool body witness nowMs room).trans few
  | template =>
      refine ⟨⟨⟨mempool, same⟩, held, small, fun body member => ?_⟩, fun none => by cases none⟩
      rcases List.mem_append.mp member with earlier | now
      · exact carried body earlier
      · rw [List.mem_singleton.mp now]
        exact pending_carried mining.node.mempool _ pending small held
  | submitBlock i header nowMs write =>
      rw [miningStep]
      cases chosen : mining.handedOut[i]? with
      | none => exact ⟨⟨⟨mempool, same⟩, held, small, carried⟩, fun none => by cases none⟩
      | some body =>
          have carries := carried body (List.mem_of_getElem? chosen)
          have current : Invalid mining.node.state pending := by
            rw [same]
            exact invalid
          obtain ⟨e, refused⟩ :=
            carried_block_refused config mining.node ⟨nowMs, ⟨header, body⟩, write⟩ pending current carries
          dsimp only
          rw [refused]
          exact ⟨⟨⟨mempool, same⟩, held, small, carried⟩, fun none => by cases none⟩

theorem frozen_run (config : NodeConfig) (node : NodeState) (pending : PendingTx) (invalid : Invalid node.state pending)
    (mining : MiningNode) (events : List MiningEvent) (frozen : Frozen node pending mining)
    (room : Along (miningStep config) Roomy mining events) :
    Frozen node pending (runCalls (miningStep config) mining events) ∧
      ∀ reply ∈ replies (miningStep config) mining events, reply ≠ some (.ok ()) := by
  induction events generalizing mining with
  | nil => exact ⟨frozen, fun reply member => by cases member⟩
  | cons event tail ih =>
      obtain ⟨next, refused⟩ := frozen_step config node pending invalid mining event frozen room.1
      obtain ⟨final, rest⟩ := ih _ next room.2
      refine ⟨final, fun reply member => ?_⟩
      rcases List.mem_cons.mp member with rfl | later
      · exact refused
      · exact rest reply later

theorem invalid_pending_freezes_chain (config : NodeConfig) (node : NodeState) (pending : PendingTx)
    (held : node.mempool.inner[pending.body.bodyHash]? = some pending) (small : node.mempool.len ≤ 256)
    (invalid : Invalid node.state pending) (events : List MiningEvent)
    (room : Along (miningStep config) Roomy ⟨node, []⟩ events) :
    let final := (runCalls (miningStep config) ⟨node, []⟩ events).node
    final.store = node.store ∧ final.state = node.state ∧ final.mintedSoFar = node.mintedSoFar ∧
      final.mempool.inner[pending.body.bodyHash]? = some pending ∧
      ∀ reply ∈ replies (miningStep config) ⟨node, []⟩ events, reply ≠ some (.ok ()) := by
  intro final
  obtain ⟨frozen, refused⟩ := frozen_run config node pending invalid ⟨node, []⟩ events
    ⟨⟨node.mempool, rfl⟩, held, small, fun body member => by cases member⟩ room
  obtain ⟨mempool, same⟩ := frozen.same
  have kept : final = { node with mempool } := same
  rw [kept]
  exact ⟨rfl, rfl, rfl, kept ▸ frozen.held, refused⟩

end

end PyGrove.Node

namespace PyGrove.Sample

open Words Steps PyGrove.Core PyGrove.State PyGrove.Node

def nextPending : PendingTx := { body := (pokeSelf 1).1, witness := (pokeSelf 1).2, receivedMs := 1778717001000 }

def pokeQueue : NodeState :=
  runCalls (serve Genesis.shipped.nodeConfig) (runCalls (serve Genesis.shipped.nodeConfig) freshNode [pokeServed])
    [.submitTx (pokeSelf 1).1 (pokeSelf 1).2 1778717001000]

def pokeMining : List MiningEvent := [.template, .submitBlock 0 minedHeader 1778717421000 .done]

end PyGrove.Sample

namespace PyGrove.Node

open Words Steps PyGrove.Core PyGrove.Consensus PyGrove.State

open Sample in
theorem queued_pokes_freeze :
    let final := (runCalls (miningStep Genesis.shipped.nodeConfig) ⟨pokeQueue, []⟩ pokeMining).node
    final.store = pokeQueue.store ∧ final.state = pokeQueue.state ∧ final.mintedSoFar = pokeQueue.mintedSoFar ∧
      final.mempool.inner[nextPending.body.bodyHash]? = some nextPending ∧
      ∀ reply ∈ replies (miningStep Genesis.shipped.nodeConfig) ⟨pokeQueue, []⟩ pokeMining, reply ≠ some (.ok ()) := by
  have held : pokeQueue.mempool.inner[nextPending.body.bodyHash]? = some nextPending := by
    have admitted : ((runCalls (serve Genesis.shipped.nodeConfig) freshNode [pokeServed]).mempool.submit (pokeSelf 1).1
        (pokeSelf 1).2 1778717001000).2 = .ok (pokeSelf 1).1.bodyHash := by decide +kernel
    rw [pokeQueue, tx_served, nextPending]
    dsimp only
    exact Mempool.submit_enters _ _ _ _ _ admitted
  have invalid : Invalid pokeQueue.state nextPending := by
    intro idx valid
    obtain ⟨_, nonce, _⟩ := (validate_transfer_iff idx _ _ _ (.fromPubkey (List.replicate 32 7)) 0 rfl).mp valid
    revert nonce
    decide +kernel
  exact invalid_pending_freezes_chain Genesis.shipped.nodeConfig pokeQueue nextPending held (by decide +kernel) invalid
    pokeMining ⟨trivial, trivial, trivial⟩

end PyGrove.Node
