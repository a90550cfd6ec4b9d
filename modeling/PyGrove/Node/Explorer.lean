import PyGrove.Core.Address
import PyGrove.Node.ChainHistory
import PyGrove.Node.LogRuns
import PyGrove.Node.SupplyAudit
import PyGrove.State.AccountStatement

set_option autoImplicit false

namespace PyGrove.Node

open Words Steps Frames PyGrove.Core Crypto PyGrove.Consensus PyGrove.State

structure BlockSummary where
  height : U64
  hash : Bytes 32
  timestampMs : U64
  nonce : U64
  txCount : Nat
deriving DecidableEq

structure TxSummary where
  hash : Bytes 32
  fromAccount : AccountId
  toAccount : Option AccountId
  amountSat : U128
  feeSat : U64
  nonce : U64
deriving DecidableEq

structure BlockDetail where
  hash : Bytes 32
  txCount : Nat
  header : BlockHeader
  txs : List TxSummary
deriving DecidableEq

structure BalanceResp where
  address : String
  balanceSat : U128
  nonce : U64
deriving DecidableEq

section
variable [HashFns]

def txSummary (tx : TxBody) : TxSummary :=
  let (toAccount, amountSat) :=
    match tx.call with
    | .transfer toAccount amount => (some toAccount, amount)
    | _ => (none, 0)
  { hash := tx.bodyHash
    fromAccount := tx.fromAccount
    toAccount
    amountSat
    feeSat := tx.feeSat
    nonce := tx.nonce }

def blockSummary (b : Block) : BlockSummary where
  height := b.header.height
  hash := hashHeader b.header
  timestampMs := b.header.timestampMs
  nonce := b.header.nonce
  txCount := b.body.txs.length

def blockDetail (b : Block) : BlockDetail where
  hash := hashHeader b.header
  txCount := b.body.txs.length
  header := b.header
  txs := b.body.txs.map txSummary

def listBlocks (node : NodeState) (limit : Nat) : Except ReadError (List BlockSummary) :=
  (node.store.recent (min limit 500)).map fun recent => recent.map blockSummary

def getBlock (node : NodeState) (height : U64) : Except ReadError (Option BlockDetail) :=
  (node.store.getByHeight height).map fun found => found.map blockDetail

def getBalance [StateCbor] [Bech32Crate] (node : NodeState) (address : String) : Except AddressError BalanceResp :=
  match AccountId.fromBech32 address with
  | .error e => .error e
  | .ok id =>
      let acct := Accounts.loadOrDefault node.state id
      .ok { address, balanceSat := acct.balance, nonce := acct.nonce }

end

def TxSummary.change (id : AccountId) (tx : TxSummary) : ℤ :=
  (if tx.toAccount = some id then tx.amountSat.toNat else 0 : ℤ) -
    (if tx.fromAccount = id then tx.amountSat.toNat + tx.feeSat.toNat else 0 : ℤ)

def BlockDetail.change (id : AccountId) (detail : BlockDetail) (reward : U128) : ℤ :=
  (detail.txs.map (TxSummary.change id)).sum +
    if AccountId.fromCoinbase detail.header.coinbase = id then
      (reward.toNat + (detail.txs.map fun tx => tx.feeSat.toNat).sum : ℤ)
    else 0

def chainRewards (g : Genesis) (headers : List BlockHeader) : List U128 :=
  rewards g.emissionParams g.genesisTimeMs (.start g.genesisTimeMs) (headers.map BlockHeader.timestampMs)

def statedBalance (g : Genesis) (id : AccountId) (details : List BlockDetail) : ℤ :=
  (List.zipWith (BlockDetail.change id) details (chainRewards g (details.map BlockDetail.header))).sum

def BlockDetail.summary (detail : BlockDetail) : BlockSummary where
  height := detail.header.height
  hash := detail.hash
  timestampMs := detail.header.timestampMs
  nonce := detail.header.nonce
  txCount := detail.txCount

def statedNonce (id : AccountId) (details : List BlockDetail) : ℕ :=
  (details.map fun detail => detail.txs.countP fun tx => tx.fromAccount = id).sum

theorem rewards_snoc (p : EmissionParams) (genesisTimeMs : U64) (s : MintState) (timestamps : List U64) (last : U64) :
    rewards p genesisTimeMs s (timestamps ++ [last]) = rewards p genesisTimeMs s timestamps ++
      [(mintBlock p genesisTimeMs (runCalls (mintBlock p genesisTimeMs) s timestamps) last).2] := by
  induction timestamps generalizing s with
  | nil => rfl
  | cons timestampMs tail ih =>
      rw [List.cons_append, rewards, ih, rewards, List.cons_append]
      rfl

theorem length_rewards (p : EmissionParams) (genesisTimeMs : U64) (s : MintState) (timestamps : List U64) :
    (rewards p genesisTimeMs s timestamps).length = timestamps.length := by
  induction timestamps generalizing s with
  | nil => rfl
  | cons timestampMs tail ih => rw [rewards, List.length_cons, List.length_cons, ih]

theorem stated_balance_snoc (g : Genesis) (id : AccountId) (details : List BlockDetail) (last : BlockDetail) :
    statedBalance g id (details ++ [last]) = statedBalance g id details +
      last.change id (mintBlock g.emissionParams g.genesisTimeMs (runCalls (mintBlock g.emissionParams g.genesisTimeMs)
        (.start g.genesisTimeMs) ((details.map BlockDetail.header).map BlockHeader.timestampMs))
          last.header.timestampMs).2 := by
  have sized : details.length = (chainRewards g (details.map BlockDetail.header)).length := by
    rw [chainRewards, length_rewards, List.length_map, List.length_map]
  rw [statedBalance, statedBalance, List.map_append, List.map_singleton, chainRewards, List.map_append, List.map_singleton,
    rewards_snoc, ← chainRewards, List.zipWith_append sized, List.sum_append, List.zipWith_cons_cons,
    List.zipWith_nil_left, List.sum_singleton]

theorem stated_nonce_snoc (id : AccountId) (details : List BlockDetail) (last : BlockDetail) :
    statedNonce id (details ++ [last]) = statedNonce id details + last.txs.countP fun tx => tx.fromAccount = id := by
  rw [statedNonce, List.map_append, List.sum_append, List.map_singleton, List.sum_singleton, statedNonce]

section
variable [HashFns]

theorem summary_change (id : AccountId) (tx : TxBody) : (txSummary tx).change id = balanceChange id tx := by
  obtain ⟨nonce, fromAccount, call, feeSat, gasLimit, witnessHash⟩ := tx
  cases call <;> rfl

theorem detail_change (id : AccountId) (block : Block) (reward : U128) :
    (blockDetail block).change id reward = blockChange id block reward := by
  have changes : (block.body.txs.map txSummary).map (TxSummary.change id) = block.body.txs.map (balanceChange id) := by
    rw [List.map_map]
    exact List.map_congr_left fun tx _ => summary_change id tx
  have fees : (block.body.txs.map txSummary).map (fun tx => tx.feeSat.toNat) =
      block.body.txs.map fun tx => tx.feeSat.toNat := by
    rw [List.map_map]
    rfl
  rw [BlockDetail.change, blockDetail, changes, fees, blockChange, minerShare, bodyFees]

theorem detail_count (id : AccountId) (block : Block) :
    ((blockDetail block).txs.countP fun tx => tx.fromAccount = id) = (sentBy id block.body.txs).length := by
  rw [blockDetail, List.countP_map, sentBy, ← List.countP_eq_length_filter]
  rfl

variable [SigFns] [StateCbor] [HexFns]

structure Stated (g : Genesis) (id : AccountId) (mem : MemState) (details : List BlockDetail) : Prop where
  balance : (balances mem id : ℤ) = statedBalance g id details
  nonce : (Accounts.loadOrDefault mem id).nonce.toNat = min (statedNonce id details) (2 ^ 64 - 1)

theorem replay_stated (g : Genesis) (shipped : g.emissionParams = .bitcoinLike) (id : AccountId) (blocks : List Block)
    (reached : Replayed) (ordered : InOrder blocks) (replayed : replay g blocks = .ok reached) :
    Stated g id reached.mem (blocks.map blockDetail) := by
  induction blocks using List.reverseRecOn generalizing reached with
  | nil =>
      obtain ⟨mem, initial, ran⟩ := (replay_ok g [] reached).mp replayed
      cases ran
      refine ⟨?_, ?_⟩
      · rw [balances, initial_accounts g mem initial]
        rfl
      · rw [initial_accounts g mem initial]
        rfl
  | append_singleton blocks block ih =>
      obtain ⟨before, height⟩ := (in_order_snoc blocks block).mp ordered
      obtain ⟨middle, reward, out, earlier, rewardEq, audited, room, applied, _⟩ :=
        replay_last_audited g shipped blocks block reached before replayed
      have stated := ih middle before earlier
      have mints := replay_mints g blocks middle before earlier
      have held := audited.held
      have cap : supplyCap < 2 ^ 128 := by decide
      obtain ⟨changed, counted⟩ := accepted_statement middle.mem reached.mem block _ out (by omega) applied id
      have position : block.header.height = BitVec.ofNat 64 blocks.length := by
        rw [← height, BitVec.ofNat_toNat, BitVec.setWidth_eq]
      have headers : ((blocks.map blockDetail).map BlockDetail.header).map BlockHeader.timestampMs =
          blocks.map fun block => block.header.timestampMs := by
        rw [List.map_map, List.map_map]
        rfl
      have fixed : (mintBlock g.emissionParams g.genesisTimeMs (runCalls (mintBlock g.emissionParams g.genesisTimeMs)
            (.start g.genesisTimeMs) (blocks.map fun block => block.header.timestampMs)) block.header.timestampMs).2 =
          reward := by
        rw [mints, rewardEq, parent_timestamp_last g blocks block height, position]
        rfl
      rw [List.map_append, List.map_singleton]
      refine ⟨?_, ?_⟩
      · rw [changed, stated.balance, stated_balance_snoc, headers]
        rw [show (blockDetail block).header.timestampMs = block.header.timestampMs from rfl, fixed, detail_change]
      · rw [counted, stated.nonce, stated_nonce_snoc, detail_count]
        omega

theorem synced_calls (g : Genesis) (node : NodeState) (blocks : List Block) (calls : List Submission)
    (synced : Synced g node blocks) (clean : Along (tryApplyBlock g.nodeConfig) (CleanCall g.nodeConfig) node calls) :
    ∃ after, Synced g (runCalls (tryApplyBlock g.nodeConfig) node calls) after := by
  induction calls generalizing node blocks with
  | nil => exact ⟨blocks, synced⟩
  | cons call tail ih =>
      obtain ⟨after, next⟩ := synced_call g node blocks call synced clean.1
      exact ih _ after next clean.2

theorem explorer_books_balance [Bech32Crate] (g : Genesis) (shipped : g.emissionParams = .bitcoinLike) (log : List U8)
    (blocks : List Block) (start : NodeState) (calls : List Submission) (whole : Records blockCodec log blocks)
    (ordered : InOrder blocks) (started : cmdRun g log = .ok start)
    (clean : Along (tryApplyBlock g.nodeConfig) (CleanCall g.nodeConfig) start calls) :
    let node := runCalls (tryApplyBlock g.nodeConfig) start calls
    ∃ details : List BlockDetail, (∀ height : U64, getBlock node height = .ok details[height.toNat]?) ∧
      (∀ limit, listBlocks node limit = .ok ((details.reverse.take (min limit 500)).map BlockDetail.summary)) ∧
      ∀ address, (getBalance node address).map (fun resp => ((resp.balanceSat.toNat : ℤ), resp.nonce.toNat)) =
        (AccountId.fromBech32 address).map fun id =>
          (statedBalance g id details, min (statedNonce id details) (2 ^ 64 - 1)) := by
  intro node
  obtain ⟨logged, synced⟩ := synced_calls g start blocks calls
    (cmd_run_synced g log blocks start whole ordered (cmd_run_nonempty g log blocks start whole started) started) clean
  refine ⟨logged.map blockDetail, fun height => ?_, fun limit => ?_, fun address => ?_⟩
  · rw [getBlock, ChainStore.holds_by_height _ logged synced.holds synced.ordered, List.getElem?_map]
    rfl
  · rw [listBlocks, ChainStore.holds_recent _ logged synced.holds, ← List.map_reverse, ← List.map_take, List.map_map]
    rfl
  · rw [getBalance]
    cases AccountId.fromBech32 address with
    | error e => rfl
    | ok id =>
        have stated := replay_stated g shipped id logged _ synced.ordered synced.replayed
        exact congrArg Except.ok (Prod.ext stated.balance stated.nonce)

end

open Sample in
theorem poked_books_balance :
    let node := runCalls (tryApplyBlock Genesis.shipped.nodeConfig) freshNode [pokeOnce, pokeNext]
    ∃ details : List BlockDetail, (∀ height : U64, getBlock node height = .ok details[height.toNat]?) ∧
      (∀ limit, listBlocks node limit = .ok ((details.reverse.take (min limit 500)).map BlockDetail.summary)) ∧
      ∀ address, (getBalance node address).map (fun resp => ((resp.balanceSat.toNat : ℤ), resp.nonce.toNat)) =
        (AccountId.fromBech32 address).map fun id =>
          (statedBalance .shipped id details, min (statedNonce id details) (2 ^ 64 - 1)) :=
  explorer_books_balance .shipped shipped_emission_params freshNode.store.log [genesisBlock] freshNode
    [pokeOnce, pokeNext] genesis_log genesis_in_order fresh_node_started poke_and_stale_clean

end PyGrove.Node
