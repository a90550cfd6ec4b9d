import PyGrove.Node.MempoolQueue
import PyGrove.Node.SelfMining
import PyGrove.Node.Transfers
import PyGrove.State.AccountStatement
import PyGrove.State.TransferOrder

set_option autoImplicit false

namespace PyGrove.Node

open Words Steps AgeQueue PyGrove.Core Crypto PyGrove.Consensus PyGrove.State

-- What the sender has to see to before its wallet sends. The last is about two
-- public keys with one 20-byte hash.
structure Payable [StateCbor] [HashFns] (state : MemState) (req : SubmitTransferReq) : Prop where
  nonce : req.nonce = (Accounts.loadOrDefault state req.fromAccount).nonce
  funded : req.amountSat.toNat + req.feeSat.toNat ≤ (Accounts.loadOrDefault state req.fromAccount).balance.toNat
  algorithm : (Accounts.loadOrDefault state req.fromAccount).pubkey = [] ∨
    (Accounts.loadOrDefault state req.fromAccount).sigAlgo = 3
  sole : (Accounts.loadOrDefault state req.fromAccount).pubkey ≠ [] →
    AccountId.fromPubkey (Accounts.loadOrDefault state req.fromAccount).pubkey = AccountId.fromPubkey req.pubkey →
      (Accounts.loadOrDefault state req.fromAccount).pubkey = req.pubkey

section
variable [HashFns]

theorem queued_nothing (pool : Mempool) (sound : pool.Sound) (empty : pool.len = 0) : Queued pool [] := by
  have none : pool.inner.toList = [] := by
    rw [← List.length_eq_zero_iff, Std.ExtTreeMap.length_toList]
    exact empty
  refine ⟨sound, fun hash pending => ?_, .nil, .nil⟩
  rw [← Std.ExtTreeMap.mem_toList_iff_getElem?_eq_some, none]

theorem confirmed_whole (pool : Mempool) (queue : List PoolEntry) (queued : Queued pool queue) (blockHashes : List (Bytes 32))
    (landed : ∀ pending ∈ queue.map Prod.snd, pending.body.bodyHash ∈ blockHashes) : (pool.confirm blockHashes).len = 0 := by
  rw [queued_len _ _ (queued_confirm pool queue queued blockHashes), leave, List.length_eq_zero_iff, List.filter_eq_nil_iff]
  rintro ⟨hash, pending⟩ member
  have key := queued.sound.key hash pending ((queued.entries hash pending).mp member)
  rw [decide_eq_true_iff, not_not]
  exact key ▸ landed pending (List.mem_map_of_mem (f := Prod.snd) member)

theorem queued_accepted (pool : Mempool) (queue : List PoolEntry) (queued : Queued pool queue) (body : TxBody)
    (witness : Witness) (nowMs : U64) (hash : Bytes 32) (room : queue.length < pool.cap)
    (accepted : (pool.submit body witness nowMs).2 = .ok hash) :
    ∃ joined : List PoolEntry, Queued (pool.submit body witness nowMs).1 joined ∧
      joined.Perm ((body.bodyHash, { body, witness, receivedMs := nowMs }) :: queue) := by
  obtain ⟨reply, next⟩ := queued_submit pool queue queued body witness nowMs
  have taken : (queueCall (arrive Older pool.cap) queue (.submit body witness nowMs)).2 = .submitted (.ok hash) := by
    rw [← reply, ← accepted]
    rfl
  rw [(queue_submit_admitted _ _ _ _ _ _ taken).2.2] at next
  refine ⟨_, next, ?_⟩
  rw [arrive, makeRoom, if_neg (Nat.not_le.mpr room)]
  exact List.perm_orderedInsert Older _ queue

end

section
variable [HashFns] [SigFns] [StateCbor]

def serveTransfer (node : NodeState) (sent : SubmitTransferReq × U64) : NodeState × Except SubmitTxError (Bytes 32) :=
  let (mempool, reply) := submitTransfer node.state node.mempool sent.1 sent.2
  ({ node with mempool }, reply)

def transferEvent (state : MemState) (sent : SubmitTransferReq × U64) : NodeEvent :=
  .submitTx (sent.1.pending state sent.2).body (sent.1.pending state sent.2).witness sent.2

structure TransfersQueued (config : NodeConfig) (node : NodeState) (queue : List PoolEntry)
    (sent : List (SubmitTransferReq × U64)) (loaded : NodeState) : Prop where
  served : loaded = runCalls (serve config) node (sent.map (transferEvent node.state))
  signed : ∀ item ∈ sent, AccountId.fromPubkey item.1.pubkey = item.1.fromAccount ∧
    SigFns.verify 3 item.1.pubkey item.1.sig item.1.tx.signingHash.toList = .ok ()
  pool : ∃ joined : List PoolEntry, Queued loaded.mempool joined ∧
    (joined.map Prod.snd).Perm ((sent.map fun item => item.1.pending node.state item.2) ++ queue.map Prod.snd)

theorem transfer_queued (config : NodeConfig) (node : NodeState) (queue : List PoolEntry)
    (queued : Queued node.mempool queue) (item : SubmitTransferReq × U64) (room : queue.length < node.mempool.cap)
    (accepted : (serveTransfer node item).2.isOk = true) :
    (serveTransfer node item).1 = (serve config node (transferEvent node.state item)).1 ∧
      (AccountId.fromPubkey item.1.pubkey = item.1.fromAccount ∧
        SigFns.verify 3 item.1.pubkey item.1.sig item.1.tx.signingHash.toList = .ok ()) ∧
      ∃ joined : List PoolEntry, Queued (serveTransfer node item).1.mempool joined ∧
        (joined.map Prod.snd).Perm (item.1.pending node.state item.2 :: queue.map Prod.snd) := by
  change (submitTransfer node.state node.mempool item.1 item.2).2.isOk = true at accepted
  obtain ⟨hash, ok⟩ : ∃ hash, (submitTransfer node.state node.mempool item.1 item.2).2 = .ok hash := by
    cases result : (submitTransfer node.state node.mempool item.1 item.2).2 with
    | error e =>
        rw [result] at accepted
        cases accepted
    | ok hash => exact ⟨hash, rfl⟩
  obtain ⟨derives, signed, offer⟩ := submit_transfer_offers item.1 node.state node.mempool item.2 hash ok
  have step : (serveTransfer node item).1 = (serve config node (transferEvent node.state item)).1 := by
    show { node with mempool := (submitTransfer node.state node.mempool item.1 item.2).1 } = _
    rw [offer, offer_pool]
    rfl
  rw [offer, offer_ok] at ok
  obtain ⟨joined, next, joins⟩ := queued_accepted node.mempool queue queued _ _ item.2 hash room ok
  rw [step]
  exact ⟨rfl, ⟨derives, signed⟩, joined, next, joins.map Prod.snd⟩

theorem transfers_queued (config : NodeConfig) (node : NodeState) (queue : List PoolEntry)
    (queued : Queued node.mempool queue) (sent : List (SubmitTransferReq × U64))
    (room : queue.length + sent.length ≤ node.mempool.cap)
    (accepted : ∀ reply ∈ replies serveTransfer node sent, reply.isOk = true) :
    TransfersQueued config node queue sent (runCalls serveTransfer node sent) := by
  induction sent generalizing node queue with
  | nil => exact ⟨rfl, (fun item member => by cases member), queue, queued, List.Perm.refl _⟩
  | cons item tail ih =>
      rw [List.length_cons] at room
      obtain ⟨step, passed, joined, next, joins⟩ :=
        transfer_queued config node queue queued item (by omega) (accepted _ List.mem_cons_self)
      have count := joins.length_eq
      rw [List.length_cons, List.length_map, List.length_map] at count
      have cap : (serveTransfer node item).1.mempool.cap = node.mempool.cap := by
        rw [step]
        exact node.mempool.submit_cap _ _ _
      obtain ⟨served, signed, later, laterQueued, perm⟩ :=
        ih (serveTransfer node item).1 joined next (by omega) fun reply member => accepted reply (List.mem_cons_of_mem _ member)
      rw [show (serveTransfer node item).1.state = node.state from rfl] at served perm
      refine ⟨?_, ?_, later, laterQueued, ?_⟩
      · rw [List.map_cons]
        show runCalls serveTransfer (serveTransfer node item).1 tail = runCalls (serve config) (serve config node _).1 _
        rw [served, step]
      · intro other member
        rcases List.mem_cons.mp member with rfl | later
        · exact passed
        · exact signed other later
      · refine perm.trans ((joins.append_left _).trans ?_)
        rw [List.map_cons, List.cons_append]
        exact List.perm_middle

theorem transfers_keep (node : NodeState) (sent : List (SubmitTransferReq × U64)) :
    (runCalls serveTransfer node sent).state = node.state ∧ (runCalls serveTransfer node sent).store = node.store :=
  run_calls_invariant serveTransfer (fun reached => reached.state = node.state ∧ reached.store = node.store) sent node
    ⟨rfl, rfl⟩ fun _ _ kept => kept

theorem served_cap (config : NodeConfig) (node : NodeState) (events : List NodeEvent) :
    (runCalls (serve config) node events).mempool.cap = node.mempool.cap := by
  apply run_calls_invariant (serve config) (fun reached => reached.mempool.cap = node.mempool.cap) events node rfl
  intro reached event kept
  cases event with
  | submitTx body witness nowMs => exact (reached.mempool.submit_cap body witness nowMs).trans kept
  | submitBlock call =>
      have outcome := try_apply_block_outcome config reached call
      rw [serve]
      generalize tryApplyBlock config reached call = result at outcome ⊢
      cases outcome with
      | _ => exact kept

theorem pulled_transfers (config : NodeConfig) (node loaded : NodeState) (sent : List (SubmitTransferReq × U64))
    (few : sent.length ≤ 256) (queued : TransfersQueued config node [] sent loaded) :
    (loaded.mempool.pullForBlock 256).Perm (sent.map fun item => item.1.pending node.state item.2) := by
  obtain ⟨joined, held, perm⟩ := queued.pool
  rw [List.map_nil, List.append_nil] at perm
  have count := perm.length_eq
  rw [List.length_map, List.length_map] at count
  rw [queued_pull loaded.mempool joined held, List.take_of_length_le (by rw [List.length_mergeSort, List.length_map]; omega)]
  exact (List.mergeSort_perm _ _).trans perm

theorem template_transfers (config : NodeConfig) (node loaded : NodeState) (sent : List (SubmitTransferReq × U64))
    (few : sent.length ≤ 256) (queued : TransfersQueued config node [] sent loaded) :
    (pendingBody loaded.mempool).txs.Perm (sent.map fun item => (item.1.pending node.state item.2).body) := by
  have bodies := (pulled_transfers config node loaded sent few queued).map PendingTx.body
  rwa [List.map_map] at bodies

theorem transfers_allowed (header : BlockHeader) (state : MemState) (txs : List TxBody)
    (transfers : ∀ tx ∈ txs, ∃ toAccount amount, tx.call = .transfer toAccount amount) :
    EffectsAllowed header state 0 txs :=
  (effects_iff header state state 0 txs fun _ => rfl).mp ⟨state, transfers_write_nothing header state txs 0 transfers⟩

theorem transfers_confirmed (config : NodeConfig) (node loaded : NodeState) (sent : List (SubmitTransferReq × U64))
    (queued : TransfersQueued config node [] sent loaded) (block : Block)
    (txs : block.body.txs.Perm (sent.map fun item => (item.1.pending node.state item.2).body)) :
    (loaded.mempool.confirm (confirmedHashes block)).len = 0 := by
  obtain ⟨joined, held, perm⟩ := queued.pool
  rw [List.map_nil, List.append_nil] at perm
  apply confirmed_whole loaded.mempool joined held
  intro pending member
  obtain ⟨item, present, rfl⟩ := List.mem_map.mp (perm.subset member)
  exact List.mem_map_of_mem (txs.symm.subset (List.mem_map.mpr ⟨item, present, rfl⟩))

omit [HashFns] [SigFns] [StateCbor] in
theorem sent_once (txs : List TxBody) (distinct : (txs.map TxBody.fromAccount).Nodup) (tx : TxBody) (member : tx ∈ txs) :
    (sentBy tx.fromAccount txs).length = 1 := by
  have count := List.count_eq_one_of_mem distinct (List.mem_map_of_mem member)
  rw [List.count, List.countP_map, List.countP_eq_length_filter] at count
  rw [sentBy, ← count]
  congr 1

omit [SigFns] in
theorem transfers_change (state : MemState) (sent : List (SubmitTransferReq × U64)) (block : Block) (reward : U128)
    (txs : block.body.txs.Perm (sent.map fun item => (item.1.pending state item.2).body)) (id : AccountId) :
    blockChange id block reward = (sent.map fun item => balanceChange id item.1.tx).sum +
      if AccountId.fromCoinbase block.header.coinbase = id then
        reward.toNat + (sent.map fun item => item.1.feeSat.toNat).sum
      else 0 := by
  have changes := (txs.map (balanceChange id)).sum_eq
  have fees := (txs.map fun tx => tx.feeSat.toNat).sum_eq
  rw [List.map_map] at changes fees
  rw [blockChange, minerShare, bodyFees, changes, fees, Nat.cast_ite, Nat.cast_add, Nat.cast_zero]
  rfl

variable [HexFns]

theorem transfers_accepted (g : Genesis) (shipped : g.emissionParams = .bitcoinLike) (config : MinerConfig)
    (configured : config.toNodeConfig = g.nodeConfig) (log : List U8) (start : NodeState)
    (started : cmdRun g log = .ok start) (events : List NodeEvent) (sent : List (SubmitTransferReq × U64))
    (gateMs blockTs submitMs : U64) (hdr found : BlockHeader) (target : Bytes 32) (body : BlockBody) (tries : Nat) :
    let node := runCalls (serve g.nodeConfig) start events
    let loaded := runCalls serveTransfer node sent
    TransfersQueued g.nodeConfig node [] sent loaded → sent.length ≤ 256 →
      (sent.map fun item => item.1.fromAccount).Nodup → (∀ item ∈ sent, Payable node.state item.1) →
      selfMinerTurn config loaded gateMs blockTs = .mining hdr target body → mineNonces target tries hdr = some found →
      ¬ submitMs < g.genesisTimeMs → TimestampPasses g.nodeConfig node.store.tip submitMs blockTs →
      (tryApplyBlock g.nodeConfig loaded ⟨submitMs, ⟨found, body⟩, .done⟩).2 = .ok () := by
  intro node loaded queued few distinct payable turn mined launched passes
  obtain ⟨sameState, sameTip⟩ : loaded.state = node.state ∧ loaded.store = node.store := transfers_keep node sent
  have pulled := pulled_transfers g.nodeConfig node loaded sent few queued
  have taken := mined_block_accepted g shipped config configured log start started
    (events ++ sent.map (transferEvent node.state)) gateMs blockTs submitMs hdr found target body tries
  rw [run_calls_append, ← queued.served] at taken
  apply taken turn mined launched (sameTip ▸ passes)
  · intro i pending position
    obtain ⟨item, member, rfl⟩ := List.mem_map.mp (pulled.subset (List.mem_of_getElem? position))
    obtain ⟨derives, signed⟩ := queued.signed item member
    have pays := payable item member
    rw [sameState, sent_valid_iff i item.1 node.state node.state item.2 derives signed (fun _ => ⟨rfl, rfl⟩) fun present =>
      pays.sole present ((served_keys g log start started events item.1.fromAccount present).2.trans derives.symm)]
    exact ⟨pays.algorithm, pays.nonce, pays.funded⟩
  · apply transfers_allowed
    intro tx member
    obtain ⟨pending, present, rfl⟩ := List.mem_map.mp member
    obtain ⟨item, _, rfl⟩ := List.mem_map.mp (pulled.subset present)
    exact ⟨item.1.toAccount, item.1.amountSat, rfl⟩
  · rw [(pulled.map fun pending => pending.body.fromAccount).nodup_iff, List.map_map]
    exact distinct

theorem submitted_transfers_settle (g : Genesis) (shipped : g.emissionParams = .bitcoinLike) (config : MinerConfig)
    (configured : config.toNodeConfig = g.nodeConfig) (log : List U8) (start : NodeState)
    (started : cmdRun g log = .ok start) (events : List NodeEvent) (sent : List (SubmitTransferReq × U64))
    (gateMs blockTs submitMs : U64) (hdr found : BlockHeader) (target : Bytes 32) (body : BlockBody) (tries : Nat) :
    let node := runCalls (serve g.nodeConfig) start events
    let loaded := runCalls serveTransfer node sent
    let call : Submission := ⟨submitMs, ⟨found, body⟩, .done⟩
    let next := tryApplyBlock g.nodeConfig loaded call
    node.mempool.len = 0 → sent.length ≤ 256 → (sent.map fun item => item.1.fromAccount).Nodup →
      (∀ item ∈ sent, Payable node.state item.1) → (∀ reply ∈ replies serveTransfer node sent, reply.isOk = true) →
      selfMinerTurn config loaded gateMs blockTs = .mining hdr target body → mineNonces target tries hdr = some found →
      ¬ submitMs < g.genesisTimeMs → TimestampPasses g.nodeConfig node.store.tip submitMs blockTs →
      next.2 = .ok () ∧ next.1.mempool.len = 0 ∧
        (∀ id, (balances next.1.state id : ℤ) = balances node.state id + (sent.map fun item => balanceChange id item.1.tx).sum +
          if AccountId.fromCoinbase found.coinbase = id then
            (callReward g.nodeConfig loaded call).toNat + (sent.map fun item => item.1.feeSat.toNat).sum
          else 0) ∧
        ∀ item ∈ sent, (Accounts.loadOrDefault next.1.state item.1.fromAccount).nonce.toNat =
          min (item.1.nonce.toNat + 1) (2 ^ 64 - 1) := by
  intro node loaded call next empty few distinct payable accepted turn mined launched passes
  have room : ([] : List PoolEntry).length + sent.length ≤ node.mempool.cap := by
    rw [served_cap, started_pool g log start started, List.length_nil, Nat.zero_add]
    exact few.trans (by decide)
  have nothing := queued_nothing node.mempool (served_pool_sound g log start events started) empty
  have queued := transfers_queued g.nodeConfig node [] nothing sent room accepted
  have valid : next.2 = .ok () := transfers_accepted g shipped config configured log start started events sent gateMs blockTs
    submitMs hdr found target body tries queued few distinct payable turn mined launched passes
  have sameState : loaded.state = node.state := (transfers_keep node sent).1
  obtain ⟨_, _, _, rfl, _⟩ := mining_turn config loaded gateMs blockTs hdr target body turn
  have txs := template_transfers g.nodeConfig node loaded sent few queued
  have senders : ((pendingBody loaded.mempool).txs.map TxBody.fromAccount).Nodup := by
    rw [(txs.map TxBody.fromAccount).nodup_iff, List.map_map]
    exact distinct
  have bounded := served_reward_fits g shipped log start started (events ++ sent.map (transferEvent node.state)) call
  rw [run_calls_append, ← queued.served] at bounded
  have outcome := try_apply_block_outcome g.nodeConfig loaded call
  change CallOutcome _ _ _ next at outcome
  clear_value next
  cases outcome with
  | refused e => cases valid
  | notApplied state e acceptable applied => cases valid
  | notLogged state out written acceptable applied failed => cases valid
  | logged state out acceptable applied done =>
      have stated := accepted_statement loaded.state state call.block _ out bounded applied
      rw [sameState] at stated
      refine ⟨rfl, transfers_confirmed g.nodeConfig node loaded sent queued call.block txs, fun id => ?_, fun item member => ?_⟩
      · dsimp only
        rw [(stated id).1, transfers_change node.state sent call.block _ txs id, add_assoc]
      · have count := sent_once _ senders _ (txs.symm.subset (List.mem_map.mpr ⟨item, member, rfl⟩))
        dsimp only
        rw [(stated item.1.fromAccount).2, ← (payable item member).nonce]
        congr 2

end

end PyGrove.Node

namespace PyGrove.Sample

open Words Steps PyGrove.Core PyGrove.State PyGrove.Node

def firstPoke : SubmitTransferReq :=
  let unsigned : SubmitTransferReq := { secondPoke with nonce := 0, sig := [] }
  { unsigned with sig := sign 3 (List.replicate 32 7) unsigned.tx.signingHash.toList }

def pokeSent : List (SubmitTransferReq × U64) := [(firstPoke, 1778717000000)]

theorem poke_sent_ok : ∀ reply ∈ replies serveTransfer freshNode pokeSent, reply.isOk = true := by decide +kernel

theorem poke_sent_served :
    runCalls serveTransfer freshNode pokeSent = runCalls (serve Genesis.shipped.nodeConfig) freshNode [pokeServed] := by
  have body : (firstPoke.pending freshNode.state 1778717000000).body = (pokeSelf 0).1 := by decide +kernel
  have witness : (firstPoke.pending freshNode.state 1778717000000).witness = (pokeSelf 0).2 := by decide +kernel
  have queued := transfers_queued Genesis.shipped.nodeConfig freshNode [] (queued_new 10000) pokeSent (by decide) poke_sent_ok
  rw [queued.served, pokeSent, List.map_singleton, transferEvent, body, witness, pokeServed]

end PyGrove.Sample

namespace PyGrove.Node

open Words Steps PyGrove.Core PyGrove.Consensus PyGrove.State

open Sample in
theorem poke_sent_settles :
    let loaded := runCalls serveTransfer freshNode pokeSent
    let call : Submission := ⟨1778717421000, ⟨minedHeader, pokeBody⟩, .done⟩
    let next := tryApplyBlock Genesis.shipped.nodeConfig loaded call
    next.2 = .ok () ∧ next.1.mempool.len = 0 ∧
      (∀ id, (balances next.1.state id : ℤ) =
        balances freshNode.state id + (pokeSent.map fun item => balanceChange id item.1.tx).sum +
          if AccountId.fromCoinbase minedHeader.coinbase = id then
            (callReward Genesis.shipped.nodeConfig loaded call).toNat + (pokeSent.map fun item => item.1.feeSat.toNat).sum
          else 0) ∧
      ∀ item ∈ pokeSent, (Accounts.loadOrDefault next.1.state item.1.fromAccount).nonce.toNat =
        min (item.1.nonce.toNat + 1) (2 ^ 64 - 1) := by
  have turn := poke_turn
  rw [← poke_sent_served] at turn
  have payable : ∀ item ∈ pokeSent, Payable freshNode.state item.1 := by
    intro item member
    rw [List.mem_singleton.mp member]
    have fresh : (Accounts.loadOrDefault freshNode.state firstPoke.fromAccount).pubkey = [] := by decide +kernel
    exact ⟨by decide +kernel, by decide +kernel, .inl fresh, fun present => absurd fresh present⟩
  have passes : TimestampPasses Genesis.shipped.nodeConfig freshNode.store.tip 1778717421000 1778717420769 :=
    ⟨by decide +kernel, by decide +kernel⟩
  have settled := submitted_transfers_settle .shipped shipped_emission_params shippedMiner rfl freshNode.store.log freshNode
    fresh_node_started [] pokeSent 1778717420000 1778717420769 1778717421000 minedHeader minedHeader
    (targetFromBits 0x1F00FFFF) pokeBody 1
  rw [show runCalls (serve Genesis.shipped.nodeConfig) freshNode [] = freshNode from rfl] at settled
  exact settled (by decide +kernel) (by decide) (by decide) payable poke_sent_ok turn poke_mined (by decide +kernel) passes

end PyGrove.Node
