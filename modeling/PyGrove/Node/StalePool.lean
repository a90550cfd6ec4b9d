import PyGrove.Node.MempoolQueue
import PyGrove.Node.SelfMining
import PyGrove.Node.Transfers

set_option autoImplicit false

namespace PyGrove.Node

open Words Steps PyGrove.Core Crypto PyGrove.Consensus PyGrove.State

namespace Mempool

theorem submit_keeps [HashFns] (pool : Mempool) (body : TxBody) (witness : Witness) (nowMs : U64) (hash : Bytes 32)
    (pending : PendingTx) (room : pool.len < pool.cap) (found : pool.inner[hash]? = some pending) :
    (pool.submit body witness nowMs).1.inner[hash]? = some pending := by
  rw [submit]
  split
  · exact found
  · split
    · exact found
    · rename_i fresh
      have apart : ¬ hashCompare body.bodyHash hash = .eq := by
        intro same
        have equal := Std.LawfulEqCmp.eq_of_compare same
        apply fresh
        rw [equal, Std.ExtTreeMap.contains_eq_isSome_getElem?, found]
        rfl
      dsimp only
      rw [Std.ExtTreeMap.getElem?_insert, if_neg apart, pool.evict_room room]
      exact found

theorem small_pulled [HashFns] (pool : Mempool) (max : Nat) (hash : Bytes 32) (pending : PendingTx) (small : pool.len ≤ max)
    (found : pool.inner[hash]? = some pending) : pending ∈ pool.pullForBlock max := by
  have entry : (hash, pending) ∈ pool.inner.toList := Std.ExtTreeMap.mem_toList_iff_getElem?_eq_some.mpr found
  have sorted : pending ∈ (pool.inner.toList.map Prod.snd).mergeSort pullsBefore :=
    List.mem_mergeSort.mpr (List.mem_map.mpr ⟨_, entry, rfl⟩)
  have whole : ((pool.inner.toList.map Prod.snd).mergeSort pullsBefore).length ≤ max := by
    rw [List.length_mergeSort, List.length_map, Std.ExtTreeMap.length_toList]
    exact small
  rw [pullForBlock, List.take_of_length_le whole]
  exact sorted

end Mempool

section
variable [HashFns] [SigFns] [StateCbor]

def nonceOf (state : MemState) (id : AccountId) : ℕ := (Accounts.loadOrDefault state id).nonce.toNat

theorem nonces_rise (state : MemState) (block : Block) (reward : U128) (id : AccountId) :
    nonceOf state id ≤ nonceOf (applyBlock state block reward).1 id := by
  refine apply_block_accounts state block reward (fun _ before after => before.nonce.toNat ≤ after.nonce.toNat)
    (fun _ _ => Nat.le_refl _) (fun _ _ _ _ => Nat.le_trans) ?_ (fun _ _ _ _ => Nat.le_refl _) id
  intro item _ tx _ acct required _
  have bound := acct.nonce.isLt
  rw [debitSender, to_nat_saturating_succ]
  omega

theorem served_nonces_rise (config : NodeConfig) (node : NodeState) (events : List NodeEvent) (id : AccountId) :
    nonceOf node.state id ≤ nonceOf (runCalls (serve config) node events).state id := by
  obtain ⟨run, reached⟩ := served_state config node events
  rw [reached]
  apply run_calls_invariant applyCall (fun state => nonceOf node.state id ≤ nonceOf state id) run node.state (Nat.le_refl _)
  intro state call before
  exact before.trans (nonces_rise state call.1 call.2 id)

def Stale (state : MemState) (body : TxBody) : Prop := body.nonce.toNat < nonceOf state body.fromAccount

theorem stale_later (config : NodeConfig) (node : NodeState) (events : List NodeEvent) (body : TxBody)
    (stale : Stale node.state body) : Stale (runCalls (serve config) node events).state body :=
  Nat.lt_of_lt_of_le stale (served_nonces_rise config node events body.fromAccount)

theorem stale_not_applied (state : MemState) (block : Block) (reward : U128) (body : TxBody) (stale : Stale state body)
    (applied : (applyBlock state block reward).2.isOk = true) : body ∉ block.body.txs := by
  intro member
  obtain ⟨i, position⟩ := List.mem_iff_getElem?.mp member
  obtain ⟨staged, _, witness, _, _, validated⟩ := accepted_staged state block reward applied i body position
  have current := validated.nonce.trans validated.current
  rw [Stale, current] at stale
  exact Nat.lt_irrefl _ stale

theorem stale_refused (config : NodeConfig) (node : NodeState) (call : Submission) (body : TxBody)
    (stale : Stale node.state body) (member : body ∈ call.block.body.txs) : (tryApplyBlock config node call).2 ≠ .ok () := by
  intro accepted
  have applied := ((accepted_iff_applies config node call).mp accepted).2.1
  exact stale_not_applied node.state call.block _ body stale applied member

def Undisplaced (pending : PendingTx) (node : NodeState) : NodeEvent → Prop
  | .submitTx .. => node.mempool.len < node.mempool.cap
  | .submitBlock call => ∀ tx ∈ call.block.body.txs, tx.bodyHash = pending.body.bodyHash → tx = pending.body

theorem stale_stays (config : NodeConfig) (node : NodeState) (event : NodeEvent) (pending : PendingTx)
    (held : node.mempool.inner[pending.body.bodyHash]? = some pending) (stale : Stale node.state pending.body)
    (undisplaced : Undisplaced pending node event) :
    (serve config node event).1.mempool.inner[pending.body.bodyHash]? = some pending := by
  cases event with
  | submitTx body witness nowMs => exact node.mempool.submit_keeps body witness nowMs _ pending undisplaced held
  | submitBlock call =>
      have confirmed (applied : (applyBlock node.state call.block (callReward config node call)).2.isOk = true) :
          (node.mempool.confirm (confirmedHashes call.block)).inner[pending.body.bodyHash]? = some pending := by
        have absent : pending.body.bodyHash ∉ confirmedHashes call.block := by
          intro landed
          obtain ⟨tx, member, same⟩ := List.mem_map.mp landed
          rw [undisplaced tx member same] at member
          exact stale_not_applied node.state call.block _ pending.body stale applied member
        rw [Mempool.get_confirm, if_neg absent]
        exact held
      have outcome := try_apply_block_outcome config node call
      rw [serve]
      generalize tryApplyBlock config node call = result at outcome ⊢
      cases outcome with
      | refused e => exact held
      | notApplied state e acceptable applied => exact held
      | notLogged state out written acceptable applied failed => exact confirmed (by rw [applied]; rfl)
      | logged state out acceptable applied done => exact confirmed (by rw [applied]; rfl)

theorem stale_stays_on (config : NodeConfig) (node : NodeState) (events : List NodeEvent) (pending : PendingTx)
    (held : node.mempool.inner[pending.body.bodyHash]? = some pending) (stale : Stale node.state pending.body)
    (undisplaced : Along (serve config) (Undisplaced pending) node events) :
    (runCalls (serve config) node events).mempool.inner[pending.body.bodyHash]? = some pending := by
  induction events generalizing node with
  | nil => exact held
  | cons event tail ih =>
      exact ih _ (stale_stays config node event pending held stale undisplaced.1)
        (stale_later config node [event] pending.body stale) undisplaced.2

theorem stale_tx_stalls_templates (config : NodeConfig) (node : NodeState) (pending : PendingTx)
    (held : node.mempool.inner[pending.body.bodyHash]? = some pending) (stale : Stale node.state pending.body)
    (events : List NodeEvent) (undisplaced : Along (serve config) (Undisplaced pending) node events)
    (small : (runCalls (serve config) node events).mempool.len ≤ 256) :
    let templated := runCalls (serve config) node events
    pending.body ∈ (pendingBody templated.mempool).txs ∧
      ∀ (since : List NodeEvent) (header : BlockHeader) (nowMs : U64) (write : WriteOutcome),
        (tryApplyBlock config (runCalls (serve config) templated since)
          ⟨nowMs, ⟨header, pendingBody templated.mempool⟩, write⟩).2 ≠ .ok () := by
  intro templated
  have stays := stale_stays_on config node events pending held stale undisplaced
  have listed : pending.body ∈ (pendingBody templated.mempool).txs :=
    List.mem_map.mpr ⟨pending, templated.mempool.small_pulled 256 _ pending small stays, rfl⟩
  refine ⟨listed, fun since header nowMs write => ?_⟩
  exact stale_refused config _ _ pending.body
    (stale_later config templated since pending.body (stale_later config node events pending.body stale)) listed

end

end PyGrove.Node

namespace PyGrove.Sample

open Words Steps PyGrove.Core PyGrove.State PyGrove.Node

def latePoke : TxBody × Witness :=
  let key := List.replicate 32 7
  signedTx 0 (.transfer (.fromPubkey (List.replicate 32 8)) 0) 0 3 key (.inline key)

def latePending : PendingTx := { body := latePoke.1, witness := latePoke.2, receivedMs := 1778717430000 }

def latePool : NodeState :=
  runCalls (serve Genesis.shipped.nodeConfig) (runCalls (serve Genesis.shipped.nodeConfig) freshNode [.submitBlock pokeOnce])
    [.submitTx latePoke.1 latePoke.2 1778717430000]

end PyGrove.Sample

namespace PyGrove.Node

open Words Steps PyGrove.Core PyGrove.Consensus PyGrove.State

open Sample in
theorem late_poke_stalls :
    let templated :=
      runCalls (serve Genesis.shipped.nodeConfig) latePool [.submitTx (pokeSelf 1).1 (pokeSelf 1).2 1778717431000]
    latePending.body ∈ (pendingBody templated.mempool).txs ∧
      ∀ (since : List NodeEvent) (header : BlockHeader) (nowMs : U64) (write : WriteOutcome),
        (tryApplyBlock Genesis.shipped.nodeConfig (runCalls (serve Genesis.shipped.nodeConfig) templated since)
          ⟨nowMs, ⟨header, pendingBody templated.mempool⟩, write⟩).2 ≠ .ok () := by
  have held : latePool.mempool.inner[latePending.body.bodyHash]? = some latePending := by
    have admitted : ((runCalls (serve Genesis.shipped.nodeConfig) freshNode [.submitBlock pokeOnce]).mempool.submit
        latePoke.1 latePoke.2 1778717430000).2 = .ok latePoke.1.bodyHash := by decide +kernel
    rw [latePool, tx_served, latePending]
    dsimp only
    exact Mempool.submit_enters _ _ _ _ _ admitted
  refine stale_tx_stalls_templates Genesis.shipped.nodeConfig latePool latePending held ?_
    [.submitTx (pokeSelf 1).1 (pokeSelf 1).2 1778717431000] ⟨?_, trivial⟩ ?_
  · unfold Stale
    decide +kernel
  · unfold Undisplaced
    decide +kernel
  · decide +kernel

end PyGrove.Node
