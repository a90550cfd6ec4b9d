import PyGrove.Node.BlockProduction
import PyGrove.Node.Rpc
import PyGrove.State.ChainSeparation
import PyGrove.State.Ownership

set_option autoImplicit false

namespace PyGrove.Node

open Words Steps PyGrove.Core Crypto PyGrove.Consensus PyGrove.State

def SubmitTransferReq.tx (req : SubmitTransferReq) : TxBody where
  nonce := req.nonce
  fromAccount := req.fromAccount
  call := .transfer req.toAccount req.amountSat
  feeSat := req.feeSat
  gasLimit := 21000
  witnessHash := .replicate 32 0

theorem Mempool.submit_enters [HashFns] (pool : Mempool) (body : TxBody) (witness : Witness) (nowMs : U64) (hash : Bytes 32)
    (admitted : (pool.submit body witness nowMs).2 = .ok hash) :
    (pool.submit body witness nowMs).1.inner[hash]? = some { body, witness, receivedMs := nowMs } := by
  rw [submit] at admitted ⊢
  split at admitted
  · cases admitted
  · rename_i hashed
    rw [if_neg hashed]
    split at admitted
    · cases admitted
    · rename_i fresh
      cases admitted
      rw [if_neg fresh]
      exact Std.ExtTreeMap.getElem?_insert_self

section
variable [StateCbor] [HashFns]

def SubmitTransferReq.witness (req : SubmitTransferReq) (state : MemState) : Witness where
  sigAlgo := 3
  sig := req.sig
  pubkey :=
    if (Accounts.loadOrDefault state req.fromAccount).pubkey.isEmpty then .inline req.pubkey else .known req.fromAccount

def SubmitTransferReq.pending (req : SubmitTransferReq) (state : MemState) (nowMs : U64) : PendingTx where
  body := { req.tx with witnessHash := (req.witness state).hash }
  witness := req.witness state
  receivedMs := nowMs

variable [SigFns]

structure Admitted (req : SubmitTransferReq) (state : MemState) (pool : Mempool) (nowMs : U64) (hash : Bytes 32) : Prop where
  derives : AccountId.fromPubkey req.pubkey = req.fromAccount
  signed : SigFns.verify 3 req.pubkey req.sig req.tx.signingHash.toList = .ok ()
  entered : (submitTransfer state pool req nowMs).1.inner[hash]? = some (req.pending state nowMs)

theorem submit_transfer_offers (req : SubmitTransferReq) (state : MemState) (pool : Mempool) (nowMs : U64) (hash : Bytes 32)
    (admitted : (submitTransfer state pool req nowMs).2 = .ok hash) :
    AccountId.fromPubkey req.pubkey = req.fromAccount ∧
      SigFns.verify 3 req.pubkey req.sig req.tx.signingHash.toList = .ok () ∧
      submitTransfer state pool req nowMs =
        pool.offer (req.pending state nowMs).body (req.pending state nowMs).witness nowMs := by
  rw [submitTransfer] at admitted ⊢
  by_cases derives : AccountId.fromPubkey req.pubkey = req.fromAccount
  · rw [if_neg (not_not.mpr derives)] at admitted ⊢
    dsimp only at admitted ⊢
    split at admitted
    · cases admitted
    · rename_i signed
      exact ⟨derives, signed, rfl⟩
  · rw [if_pos derives] at admitted
    cases admitted

omit [StateCbor] [SigFns] in
theorem offer_ok (pool : Mempool) (body : TxBody) (witness : Witness) (nowMs : U64) (hash : Bytes 32) :
    (pool.offer body witness nowMs).2 = .ok hash ↔ (pool.submit body witness nowMs).2 = .ok hash := by
  rw [Mempool.offer]
  cases pool.submit body witness nowMs with
  | mk next result =>
      cases result with
      | error e => exact iff_of_false (fun same => by cases same) (fun same => by cases same)
      | ok inserted => exact ⟨fun same => by cases same; rfl, fun same => by cases same; rfl⟩

theorem submit_transfer_admits (req : SubmitTransferReq) (state : MemState) (pool : Mempool) (nowMs : U64) (hash : Bytes 32)
    (admitted : (submitTransfer state pool req nowMs).2 = .ok hash) : Admitted req state pool nowMs hash := by
  obtain ⟨derives, signed, offer⟩ := submit_transfer_offers req state pool nowMs hash admitted
  refine ⟨derives, signed, ?_⟩
  rw [offer, offer_ok] at admitted
  rw [offer, offer_pool]
  exact Mempool.submit_enters _ _ _ _ _ admitted

theorem validate_transfer_iff (idx : Nat) (store : MemState) (tx : TxBody) (witness : Witness) (target : AccountId)
    (amount : U128) (transfer : tx.call = .transfer target amount) :
    (∃ staged, validateTx idx store tx witness = .ok staged) ↔
      (∃ key, resolvePubkey idx store tx witness = .ok key ∧
        SigFns.verify witness.sigAlgo key witness.sig tx.signingHash.toList = .ok ()) ∧ Covers store tx := by
  have found : callTarget idx tx = .ok (target, amount) := by rw [callTarget, transfer]
  have paid : payment tx = (target, amount) := (call_target_payment idx tx _ found).symm
  constructor
  · rintro ⟨staged, valid⟩
    obtain ⟨rfl, validated⟩ := validate_tx_ok idx store tx witness staged valid
    refine ⟨⟨_, validated.key, validated.signed⟩, validated.nonce.trans validated.current, ?_⟩
    rw [← call_target_payment _ tx _ validated.target]
    exact validated.funded
  · rintro ⟨⟨key, resolved, signed⟩, nonce, funded⟩
    rw [paid] at funded
    dsimp only at funded
    have bound := (Accounts.loadOrDefault store tx.fromAccount).balance.isLt
    have sum : (BitVec.ofNat 128 (amount.toNat + tx.feeSat.toNat)).toNat = amount.toNat + tx.feeSat.toNat := by
      rw [BitVec.toNat_ofNat, Nat.mod_eq_of_lt (by omega)]
    have spend := (check_spend_ok idx (Accounts.loadOrDefault store tx.fromAccount) tx.nonce amount tx.feeSat
      (.nonceMismatch idx tx.nonce (Accounts.loadOrDefault store tx.fromAccount).nonce)
      (BitVec.ofNat 128 (amount.toNat + tx.feeSat.toNat))).mpr ⟨nonce, sum, by rw [sum]; exact funded⟩
    rw [validateTx, found]
    dsimp only
    rw [resolved]
    dsimp only
    rw [signed]
    dsimp only
    rw [spend]
    exact ⟨_, rfl⟩

theorem served_state (config : NodeConfig) (node : NodeState) (events : List NodeEvent) :
    ∃ run, (runCalls (serve config) node events).state = runCalls applyCall node.state run := by
  induction events generalizing node with
  | nil => exact ⟨[], rfl⟩
  | cons event tail ih =>
      obtain ⟨run, reached⟩ := ih (serve config node event).1
      have step : ∃ first, (serve config node event).1.state = runCalls applyCall node.state first := by
        cases event with
        | submitTx body witness nowMs => exact ⟨[], rfl⟩
        | submitBlock call =>
            have outcome := try_apply_block_outcome config node call
            rw [serve]
            generalize tryApplyBlock config node call = result at outcome ⊢
            cases outcome with
            | refused e => exact ⟨[], rfl⟩
            | notApplied state e acceptable applied =>
                exact ⟨[(call.block, callReward config node call)], (congrArg Prod.fst applied).symm⟩
            | notLogged state out written acceptable applied failed =>
                exact ⟨[(call.block, callReward config node call)], (congrArg Prod.fst applied).symm⟩
            | logged state out acceptable applied done =>
                exact ⟨[(call.block, callReward config node call)], (congrArg Prod.fst applied).symm⟩
      obtain ⟨first, moved⟩ := step
      exact ⟨first ++ run, by rw [run_calls_append, ← moved, ← reached]; rfl⟩

def SameKey (before after : Account) : Prop :=
  before.pubkey ≠ [] → after.pubkey = before.pubkey ∧ after.sigAlgo = before.sigAlgo

theorem committed_key_stays (state : MemState) (run : List (Block × U128)) (id : AccountId) :
    SameKey (Accounts.loadOrDefault state id) (Accounts.loadOrDefault (runCalls applyCall state run) id) := by
  apply run_calls_invariant applyCall
    (fun after => SameKey (Accounts.loadOrDefault state id) (Accounts.loadOrDefault after id))
  · exact fun _ => ⟨rfl, rfl⟩
  · intro middle call first committed
    obtain ⟨key, algo⟩ := first committed
    have step := apply_block_accounts middle call.1 call.2 (fun _ before after => SameKey before after)
      (fun _ _ _ => ⟨rfl, rfl⟩) ?_ ?_ ?_ id
    · obtain ⟨nextKey, nextAlgo⟩ := step (key ▸ committed)
      exact ⟨nextKey.trans key, nextAlgo.trans algo⟩
    · intro _ a b c ab bc present
      obtain ⟨bKey, bAlgo⟩ := ab present
      obtain ⟨cKey, cAlgo⟩ := bc (bKey ▸ present)
      exact ⟨cKey.trans bKey, cAlgo.trans bAlgo⟩
    · intro item _ tx _ acct required _ present
      have held : ¬ acct.pubkey.isEmpty = true := by rwa [List.isEmpty_iff]
      simp only [debitSender, if_neg held, and_self]
    · exact fun _ _ _ _ _ => ⟨rfl, rfl⟩

omit [SigFns] in
theorem resolve_fresh (idx : Nat) (req : SubmitTransferReq) (state later : MemState) (nowMs : U64)
    (derives : AccountId.fromPubkey req.pubkey = req.fromAccount)
    (unset : (Accounts.loadOrDefault state req.fromAccount).pubkey = []) :
    resolvePubkey idx later (req.pending state nowMs).body (req.pending state nowMs).witness = .ok req.pubkey := by
  have inlined : (req.pending state nowMs).witness.pubkey = .inline req.pubkey := by
    show (if _ then _ else _) = _
    rw [if_pos (by rw [unset]; rfl)]
  rw [resolvePubkey, inlined]
  dsimp only
  exact if_neg (not_not.mpr derives)

omit [SigFns] in
theorem resolve_committed (idx : Nat) (req : SubmitTransferReq) (state later : MemState) (nowMs : U64)
    (present : (Accounts.loadOrDefault state req.fromAccount).pubkey ≠ [])
    (kept : SameKey (Accounts.loadOrDefault state req.fromAccount) (Accounts.loadOrDefault later req.fromAccount)) :
    resolvePubkey idx later (req.pending state nowMs).body (req.pending state nowMs).witness =
      if (Accounts.loadOrDefault state req.fromAccount).sigAlgo ≠ 3 then
        .error (.algoMismatch idx (Accounts.loadOrDefault state req.fromAccount).sigAlgo 3)
      else .ok (Accounts.loadOrDefault state req.fromAccount).pubkey := by
  obtain ⟨key, algo⟩ := kept present
  have known : (req.pending state nowMs).witness.pubkey = .known req.fromAccount := by
    show (if _ then _ else _) = _
    rw [if_neg (by rwa [List.isEmpty_iff])]
  have sender : (req.pending state nowMs).body.fromAccount = req.fromAccount := rfl
  have chosen : (req.pending state nowMs).witness.sigAlgo = 3 := rfl
  rw [resolvePubkey, known, sender, chosen]
  dsimp only
  cases found : Accounts.load later req.fromAccount with
  | none =>
      rw [Accounts.loadOrDefault, found] at key
      exact absurd key.symm present
  | some acct =>
      rw [Accounts.loadOrDefault, found, Option.getD_some] at key algo
      dsimp only
      rw [if_neg (by rw [key]; rwa [List.isEmpty_iff]), key, algo]

theorem sent_valid_iff (idx : Nat) (req : SubmitTransferReq) (state later : MemState) (nowMs : U64)
    (derives : AccountId.fromPubkey req.pubkey = req.fromAccount)
    (signed : SigFns.verify 3 req.pubkey req.sig req.tx.signingHash.toList = .ok ())
    (kept : SameKey (Accounts.loadOrDefault state req.fromAccount) (Accounts.loadOrDefault later req.fromAccount))
    (own : (Accounts.loadOrDefault state req.fromAccount).pubkey ≠ [] →
      (Accounts.loadOrDefault state req.fromAccount).pubkey = req.pubkey) :
    (∃ staged, validateTx idx later (req.pending state nowMs).body (req.pending state nowMs).witness = .ok staged) ↔
      ((Accounts.loadOrDefault state req.fromAccount).pubkey = [] ∨
          (Accounts.loadOrDefault state req.fromAccount).sigAlgo = 3) ∧
        req.nonce = (Accounts.loadOrDefault later req.fromAccount).nonce ∧
        req.amountSat.toNat + req.feeSat.toNat ≤ (Accounts.loadOrDefault later req.fromAccount).balance.toNat := by
  rw [validate_transfer_iff idx later _ _ req.toAccount req.amountSat rfl]
  have covers : Covers later (req.pending state nowMs).body ↔
      req.nonce = (Accounts.loadOrDefault later req.fromAccount).nonce ∧
        req.amountSat.toNat + req.feeSat.toNat ≤ (Accounts.loadOrDefault later req.fromAccount).balance.toNat := Iff.rfl
  rw [covers]
  refine and_congr_left' ?_
  have message : (req.pending state nowMs).body.signingHash = req.tx.signingHash := rfl
  have algo : (req.pending state nowMs).witness.sigAlgo = 3 := rfl
  have sig : (req.pending state nowMs).witness.sig = req.sig := rfl
  rw [message, algo, sig]
  by_cases unset : (Accounts.loadOrDefault state req.fromAccount).pubkey = []
  · rw [resolve_fresh idx req state later nowMs derives unset]
    exact iff_of_true ⟨req.pubkey, rfl, signed⟩ (.inl unset)
  · rw [resolve_committed idx req state later nowMs unset kept]
    by_cases ed25519 : (Accounts.loadOrDefault state req.fromAccount).sigAlgo = 3
    · rw [if_neg (not_not.mpr ed25519)]
      exact iff_of_true ⟨_, rfl, (own unset).symm ▸ signed⟩ (.inr ed25519)
    · rw [if_pos ed25519]
      refine iff_of_false ?_ (not_or.mpr ⟨unset, ed25519⟩)
      rintro ⟨key, resolved, _⟩
      cases resolved

variable [HexFns]

theorem started_state (g : Genesis) (log : List U8) (start : NodeState) (started : cmdRun g log = .ok start) :
    ∃ mem run, g.initialState = .ok mem ∧ start.state = runCalls applyCall mem run := by
  obtain ⟨blocks, replayed⟩ := cmd_run_replayed g log start started
  obtain ⟨mem, initial, ran⟩ := (replay_ok g blocks _).mp replayed
  have through := run_steps_invariant (replayBlock g blocks)
    (fun reached => ∃ run, reached.mem = runCalls applyCall mem run) blocks ⟨mem, 0, none⟩ ⟨[], rfl⟩ ?_
  · rw [ran] at through
    obtain ⟨run, same⟩ := through
    exact ⟨mem, run, initial, same⟩
  · rintro block _ state next ⟨run, same⟩ taken
    obtain ⟨reward, _, ⟨_, applied⟩, _⟩ := replay_block_ok g blocks state next block taken
    refine ⟨run ++ [(block, reward)], ?_⟩
    rw [run_calls_append, ← same]
    exact (congrArg Prod.fst applied).symm

omit [SigFns] in
theorem initial_keys (g : Genesis) (mem : MemState) (initial : g.initialState = .ok mem) : KeysFrom Set.univ mem := by
  intro id present
  rw [initial_accounts g mem initial] at present
  exact absurd rfl present

theorem served_keys (g : Genesis) (log : List U8) (start : NodeState) (started : cmdRun g log = .ok start)
    (events : List NodeEvent) : KeysFrom Set.univ (runCalls (serve g.nodeConfig) start events).state := by
  have keep : ∀ (state : MemState) (run : List (Block × U128)), KeysFrom Set.univ state →
      KeysFrom Set.univ (runCalls applyCall state run) := fun state run held =>
    run_calls_invariant applyCall (KeysFrom Set.univ) run state held fun state call kept =>
      keys_from_block Set.univ state call.1 call.2 kept (Set.subset_univ _)
  obtain ⟨mem, replayed, initial, reached⟩ := started_state g log start started
  obtain ⟨run, served⟩ := served_state g.nodeConfig start events
  rw [served, reached]
  exact keep _ run (keep mem replayed (initial_keys g mem initial))

theorem submitted_transfer_valid_iff (g : Genesis) (log : List U8) (start : NodeState) (started : cmdRun g log = .ok start)
    (before after : List NodeEvent) (req : SubmitTransferReq) (nowMs : U64) (hash : Bytes 32) :
    let node := runCalls (serve g.nodeConfig) start before
    let acct := Accounts.loadOrDefault node.state req.fromAccount
    let sent := submitTransfer node.state node.mempool req nowMs
    let later := runCalls (serve g.nodeConfig) { node with mempool := sent.1 } after
    let laterAcct := Accounts.loadOrDefault later.state req.fromAccount
    sent.2 = .ok hash →
      (acct.pubkey ≠ [] → AccountId.fromPubkey acct.pubkey = AccountId.fromPubkey req.pubkey → acct.pubkey = req.pubkey) →
      ∃ pending, sent.1.inner[hash]? = some pending ∧
        ∀ idx, (∃ staged, validateTx idx later.state pending.body pending.witness = .ok staged) ↔
          (acct.pubkey = [] ∨ acct.sigAlgo = 3) ∧ req.nonce = laterAcct.nonce ∧
            req.amountSat.toNat + req.feeSat.toNat ≤ laterAcct.balance.toNat := by
  intro node acct sent later laterAcct accepted collisionFree
  have admitted := submit_transfer_admits req node.state node.mempool nowMs hash accepted
  obtain ⟨run, moved⟩ := served_state g.nodeConfig { node with mempool := sent.1 } after
  have kept : SameKey acct laterAcct := by
    have stays := committed_key_stays node.state run req.fromAccount
    rwa [← moved] at stays
  have own : acct.pubkey ≠ [] → acct.pubkey = req.pubkey := fun present =>
    collisionFree present ((served_keys g log start started before req.fromAccount present).2.trans admitted.derives.symm)
  exact ⟨_, admitted.entered, fun idx =>
    sent_valid_iff idx req node.state later.state nowMs admitted.derives admitted.signed kept own⟩

end

end PyGrove.Node

namespace PyGrove.Sample

open Words Steps PyGrove.Core PyGrove.State PyGrove.Node

def secondPoke : SubmitTransferReq :=
  let unsigned : SubmitTransferReq :=
    { fromAccount := (pokeSelf 0).1.fromAccount
      toAccount := (pokeSelf 0).1.fromAccount
      amountSat := 0
      feeSat := 0
      nonce := 1
      pubkey := List.replicate 32 7
      sig := [] }
  { unsigned with sig := sign 3 (List.replicate 32 7) unsigned.tx.signingHash.toList }

end PyGrove.Sample

namespace PyGrove.Node

open Words Steps PyGrove.Core Crypto PyGrove.Consensus PyGrove.State

open Sample in
theorem second_poke_valid :
    let node := runCalls (serve Genesis.shipped.nodeConfig) freshNode [.submitBlock pokeOnce]
    let acct := Accounts.loadOrDefault node.state secondPoke.fromAccount
    let sent := submitTransfer node.state node.mempool secondPoke 1778717430000
    let later := runCalls (serve Genesis.shipped.nodeConfig) { node with mempool := sent.1 } [.submitBlock pokeTwice]
    let laterAcct := Accounts.loadOrDefault later.state secondPoke.fromAccount
    ∃ pending, sent.1.inner[(secondPoke.pending node.state 1778717430000).body.bodyHash]? = some pending ∧
      ∀ idx, (∃ staged, validateTx idx later.state pending.body pending.witness = .ok staged) ↔
        (acct.pubkey = [] ∨ acct.sigAlgo = 3) ∧ secondPoke.nonce = laterAcct.nonce ∧
          secondPoke.amountSat.toNat + secondPoke.feeSat.toNat ≤ laterAcct.balance.toNat :=
  submitted_transfer_valid_iff .shipped freshNode.store.log freshNode fresh_node_started [.submitBlock pokeOnce]
    [.submitBlock pokeTwice] secondPoke 1778717430000 _ (by decide +kernel) (fun _ _ => by decide +kernel)

end PyGrove.Node
