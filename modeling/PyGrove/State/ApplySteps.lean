import PyGrove.State.Apply

set_option autoImplicit false

namespace PyGrove.State

open Words Steps PyGrove.Core Crypto

@[simp] theorem widened_fee (feeSat : U64) : (feeSat.setWidth 128).toNat = feeSat.toNat := by
  have bound := feeSat.isLt
  rw [BitVec.toNat_setWidth, Nat.mod_eq_of_lt (by omega)]

theorem indexed_fees (txs : List TxBody) :
    txs.zipIdx.map (fun item => item.1.feeSat.toNat) = txs.map (fun tx => tx.feeSat.toNat) := by
  rw [show (fun item : TxBody × Nat => item.1.feeSat.toNat) = (fun tx : TxBody => tx.feeSat.toNat) ∘ Prod.fst from rfl,
    ← List.map_map, List.zipIdx_map_fst]

theorem attest_auth_key_inj (a b : Bytes 32) (same : attestAuthKey a = attestAuthKey b) : a = b :=
  List.Vector.eq _ _ (List.append_cancel_left same)

theorem length_attest_auth_key (jobId : Bytes 32) : (attestAuthKey jobId).length = 37 := by
  simp [attestAuthKey, attestAuthKeyPrefix, ascii]

theorem attest_auth_key_ne (jobId : Bytes 32) (key : List U8) (length : key.length ≠ 37) : key ≠ attestAuthKey jobId := by
  intro same
  exact length (same ▸ length_attest_auth_key jobId)

theorem load_new [HashFns] [StateCbor] (id : AccountId) : Accounts.loadOrDefault MemState.new id = Account.empty := by
  have absent : StateStore.get MemState.new .accounts id.id.toList = none := MemState.get_new _ _
  rw [Accounts.loadOrDefault, Accounts.load, loadRecord, absent]
  rfl

theorem check_spend_ok (idx : Nat) (acct : Account) (nonce : U64) (amount : U128) (feeSat : U64)
    (mismatch : ApplyError) (required : U128) :
    checkSpend idx acct nonce amount feeSat mismatch = .ok required ↔
      nonce = acct.nonce ∧ required.toNat = amount.toNat + feeSat.toNat ∧
        required.toNat ≤ acct.balance.toNat := by
  simp only [checkSpend]
  by_cases same : nonce = acct.nonce
  · rw [if_neg (not_not.mpr same)]
    cases sum : checkedAdd amount (feeSat.setWidth 128) with
    | none =>
        have overflow := (checked_add_none _ _).mp sum
        have bound := required.isLt
        rw [widened_fee] at overflow
        simp only [reduceCtorEq, false_iff]
        omega
    | some total =>
        have value := (checked_add_some _ _ _).mp sum
        rw [widened_fee] at value
        simp only [BitVec.lt_def]
        constructor
        · intro checked
          split at checked
          · cases checked
          · cases checked
            exact ⟨same, value, by omega⟩
        · intro ⟨_, exact, enough⟩
          have equal : total = required := BitVec.eq_of_toNat_eq (by omega)
          rw [equal, if_neg (by omega)]
  · simp [same]

section
variable {σ : Type} [StateStore σ] [StateCbor]

theorem apply_staged_ok (store next : σ) (tx : StagedTx) (applied : applyStaged store tx = .ok next) :
    ∃ required : U128, tx.expectedNonce = (Accounts.loadOrDefault store tx.fromAccount).nonce ∧
      required.toNat = tx.amount.toNat + tx.feeSat.toNat ∧
      required.toNat ≤ (Accounts.loadOrDefault store tx.fromAccount).balance.toNat ∧
      ∃ debited, debited = Accounts.save store tx.fromAccount
          (debitSender (Accounts.loadOrDefault store tx.fromAccount) required tx) ∧
        next = Accounts.save debited tx.toAccount { Accounts.loadOrDefault debited tx.toAccount with
          balance := saturatingAdd (Accounts.loadOrDefault debited tx.toAccount).balance tx.amount } := by
  dsimp only [applyStaged] at applied
  split at applied
  · cases applied
  · rename_i required spend
    cases applied
    obtain ⟨nonce, value, enough⟩ := (check_spend_ok ..).mp spend
    exact ⟨required, nonce, value, enough, _, rfl, rfl⟩

theorem save_record_load {α : Type} (codec : Codec α) (store : σ) (sub : Subtree) (key : List U8) (value : α)
    (id : AccountId) (apart : sub ≠ .accounts) :
    Accounts.loadOrDefault (saveRecord codec store sub key value) id = Accounts.loadOrDefault store id :=
  Accounts.load_or_default_put_other store id sub key _ apart

theorem pay_coinbase_ok (header : BlockHeader) (store next : σ) (reward fees minted : U128)
    (paid : payCoinbase header store reward fees = .ok (next, minted)) :
    minted.toNat = reward.toNat + fees.toNat ∧
    ∃ balance : U128,
      balance.toNat = (Accounts.loadOrDefault store (.fromCoinbase header.coinbase)).balance.toNat + minted.toNat ∧
      next = Accounts.save store (.fromCoinbase header.coinbase)
        { Accounts.loadOrDefault store (.fromCoinbase header.coinbase) with balance } := by
  dsimp only [payCoinbase] at paid
  split at paid
  · cases paid
  · rename_i total sum
    split at paid
    · cases paid
    · rename_i balance credited
      cases paid
      exact ⟨(checked_add_some _ _ _).mp sum, balance, (checked_add_some _ _ _).mp credited, rfl⟩

theorem epilogue_load (header : BlockHeader) (store : σ) (reflection : Reflection) (id : AccountId) :
    Accounts.loadOrDefault (activateUpgrade header (writeReflection header store reflection)) id =
      Accounts.loadOrDefault store id := by
  have written : Accounts.loadOrDefault (writeReflection header store reflection) id =
      Accounts.loadOrDefault store id := by
    rw [writeReflection, save_record_load _ _ _ _ _ id (by decide), save_record_load _ _ _ _ _ id (by decide)]
  rw [← written]
  simp only [activateUpgrade]
  split
  · rfl
  · split
    · exact save_record_load _ _ _ _ _ id (by decide)
    · rfl

end

section
variable {σ : Type} [StateStore σ] [StateCbor] [HashFns] [SigFns]

-- What the effect of a tx writes once its checks pass. It depends on the tx
-- and the header alone; only the checks read the store.
def effectWrite (header : BlockHeader) (tx : TxBody) : Option (Subtree × List U8 × List U8) :=
  match tx.call with
  | .attestRound jobId roundId modelHash dpEpsilonMilli =>
      some (.attest, attestKey jobId roundId, StateCbor.attestRecord.encode
        { jobId, roundId, modelHash, dpEpsilonMilli
          coordinator := tx.fromAccount.id
          blockHeight := header.height
          blockTimestampMs := header.timestampMs })
  | .registerAttestCoordinator jobId coordinators _ =>
      some (.metadata, attestAuthKey jobId, StateCbor.coordinatorAuthority.encode
        { jobId
          coordinators := coordinators.map AccountId.id
          registeredAtHeight := header.height })
  | .attestPedigree jobId lotId supplier cageCode attestationAuthority =>
      some (.attest, pedigreeKey jobId lotId, StateCbor.pedigreeRecord.encode
        { jobId, lotId, supplier, cageCode, attestationAuthority
          attester := tx.fromAccount.id
          blockHeight := header.height
          blockTimestampMs := header.timestampMs })
  | .upgradeCrypto targetHeight sigAlgo hashAlgo _ =>
      some (.metadata, upgradeCryptoKey, StateCbor.pendingCryptoUpgrade.encode
        { targetHeight, sigAlgo, hashAlgo
          announcedAtHeight := header.height })
  | .setGovernance configCbor _ =>
      match StateCbor.governanceConfig.decode configCbor with
      | .error _ => none
      | .ok newCfg => some (.metadata, governanceKey, StateCbor.governanceConfig.encode newCfg)
  | .transfer .. => none
  | .deployContract .. => none
  | .callContract .. => none

def writeTo (store : σ) : Option (Subtree × List U8 × List U8) → σ
  | none => store
  | some (sub, key, value) => StateStore.put store sub key value

def EffectChecks (store : σ) (tx : TxBody) (i : Nat) : Prop :=
  match tx.call with
  | .attestRound jobId .. => attestAuthorized i store jobId tx.fromAccount = .ok ()
  | .registerAttestCoordinator jobId coordinators govProof =>
      governanceGate i store govProof (registerAttestGovPayload jobId coordinators) = .ok ()
  | .attestPedigree jobId _ _ cageCode _ =>
      isValidCage cageCode ∧ attestAuthorized i store jobId tx.fromAccount = .ok ()
  | .upgradeCrypto targetHeight sigAlgo hashAlgo govProof =>
      allowedSig sigAlgo ∧ allowedHash hashAlgo ∧
        governanceGate i store govProof (upgradeCryptoGovPayload targetHeight sigAlgo hashAlgo) = .ok ()
  | .setGovernance configCbor govProof =>
      ∃ newCfg, StateCbor.governanceConfig.decode configCbor = .ok newCfg ∧ newCfg.validate = .ok () ∧
        governanceGate i store govProof (setGovernanceGovPayload newCfg) = .ok ()
  | .transfer .. => True
  | .deployContract .. => True
  | .callContract .. => True

theorem apply_effect_iff (header : BlockHeader) (store next : σ) (tx : TxBody) (i : Nat) :
    applyEffect header store (tx, i) = .ok next ↔
      EffectChecks store tx i ∧ next = writeTo store (effectWrite header tx) := by
  rw [applyEffect, EffectChecks, effectWrite]
  generalize tx.call = call
  cases call with
  | attestRound jobId roundId modelHash dpEpsilonMilli =>
      dsimp only
      cases attestAuthorized i store jobId tx.fromAccount with
      | error e => simp only [reduceCtorEq, false_and]
      | ok passed => simp only [Except.ok.injEq, true_and, writeTo, saveRecord, eq_comm]
  | registerAttestCoordinator jobId coordinators govProof =>
      dsimp only
      cases governanceGate i store govProof (registerAttestGovPayload jobId coordinators) with
      | error e => simp only [reduceCtorEq, false_and]
      | ok passed => simp only [Except.ok.injEq, true_and, writeTo, saveRecord, eq_comm]
  | attestPedigree jobId lotId supplier cageCode attestationAuthority =>
      dsimp only
      rw [guard_ok, Bool.not_eq_true', Bool.not_eq_false]
      cases attestAuthorized i store jobId tx.fromAccount with
      | error e => simp only [reduceCtorEq, and_false, false_and]
      | ok passed => simp only [Except.ok.injEq, and_true, writeTo, saveRecord, eq_comm]
  | upgradeCrypto targetHeight sigAlgo hashAlgo govProof =>
      dsimp only
      rw [guard_ok, guard_ok, Bool.not_eq_true', Bool.not_eq_true', Bool.not_eq_false, Bool.not_eq_false]
      cases governanceGate i store govProof (upgradeCryptoGovPayload targetHeight sigAlgo hashAlgo) with
      | error e => simp only [reduceCtorEq, and_false, false_and]
      | ok passed => simp only [Except.ok.injEq, and_true, and_assoc, writeTo, saveRecord, eq_comm]
  | setGovernance configCbor govProof =>
      dsimp only
      cases StateCbor.governanceConfig.decode configCbor with
      | error e => simp only [reduceCtorEq, false_and, exists_false]
      | ok newCfg =>
          simp only [Except.ok.injEq, exists_eq_left']
          cases newCfg.validate with
          | error reason => simp only [reduceCtorEq, false_and]
          | ok valid =>
              dsimp only
              cases governanceGate i store govProof (setGovernanceGovPayload newCfg) with
              | error e => simp only [reduceCtorEq, and_false, false_and]
              | ok passed => simp only [Except.ok.injEq, true_and, writeTo, saveRecord, eq_comm]
  | transfer toAccount amount => simp only [writeTo, Except.ok.injEq, true_and, eq_comm]
  | deployContract codeRef initArgs => simp only [writeTo, Except.ok.injEq, true_and, eq_comm]
  | callContract contract method args => simp only [writeTo, Except.ok.injEq, true_and, eq_comm]

theorem apply_effect_ok (header : BlockHeader) (store next : σ) (tx : TxBody) (i : Nat)
    (applied : applyEffect header store (tx, i) = .ok next) : next = writeTo store (effectWrite header tx) :=
  ((apply_effect_iff header store next tx i).mp applied).2

omit [HashFns] [SigFns] in
theorem changed_by_write (header : BlockHeader) (store : σ) (tx : TxBody) (sub : Subtree) (key : List U8)
    (changed : StateStore.get (writeTo store (effectWrite header tx)) sub key ≠ StateStore.get store sub key) :
    ∃ value, effectWrite header tx = some (sub, key, value) := by
  cases writes : effectWrite header tx with
  | none =>
      rw [writes] at changed
      exact absurd rfl changed
  | some write =>
      obtain ⟨sub', key', value⟩ := write
      rw [writes, writeTo, StateStore.get_put] at changed
      by_cases here : sub' = sub ∧ key' = key
      · exact ⟨value, by rw [here.1, here.2]⟩
      · rw [if_neg here] at changed
        exact absurd rfl changed

omit [HashFns] [SigFns] in
theorem effect_write_off_accounts (header : BlockHeader) (tx : TxBody) (sub : Subtree) (key value : List U8)
    (writes : effectWrite header tx = some (sub, key, value)) : sub ≠ .accounts := by
  simp only [effectWrite] at writes
  generalize tx.call = call at writes
  cases call with
  | setGovernance configCbor govProof =>
      dsimp only at writes
      split at writes
      · cases writes
      · cases writes
        decide
  | _ =>
      cases writes
      try decide

theorem apply_effect_load (header : BlockHeader) (store next : σ) (item : TxBody × Nat)
    (applied : applyEffect header store item = .ok next) (id : AccountId) :
    Accounts.loadOrDefault next id = Accounts.loadOrDefault store id := by
  rw [apply_effect_ok header store next item.1 item.2 applied]
  cases writes : effectWrite header item.1 with
  | none => rfl
  | some write =>
      obtain ⟨sub, key, value⟩ := write
      exact Accounts.load_or_default_put_other store id sub key value
        (effect_write_off_accounts header item.1 sub key value writes)

theorem effects_load (header : BlockHeader) (store : σ) (items : List (TxBody × Nat)) (id : AccountId) :
    Accounts.loadOrDefault (runSteps (applyEffect header) store items).1 id = Accounts.loadOrDefault store id := by
  apply run_steps_invariant (applyEffect header)
    (fun state => Accounts.loadOrDefault state id = Accounts.loadOrDefault store id)
  · rfl
  · intro item _ state next kept applied
    rw [apply_effect_load header state next item applied id, kept]

theorem effects_run_load (header : BlockHeader) (spent affected : σ) (items : List (TxBody × Nat))
    (result : Except ApplyError Unit) (ran : runSteps (applyEffect header) spent items = (affected, result))
    (id : AccountId) : Accounts.loadOrDefault affected id = Accounts.loadOrDefault spent id := by
  have kept := effects_load header spent items id
  rwa [ran] at kept

structure Validated (store : σ) (tx : TxBody) (witness : Witness) (staged : StagedTx) : Prop where
  target : callTarget staged.idx tx = .ok (staged.toAccount, staged.amount)
  sender : staged.fromAccount = tx.fromAccount
  fee : staged.feeSat = tx.feeSat
  algo : staged.sigAlgo = witness.sigAlgo
  key : resolvePubkey staged.idx store tx witness = .ok staged.pubkeyBytes
  signed : SigFns.verify witness.sigAlgo staged.pubkeyBytes witness.sig tx.signingHash.toList = .ok ()
  nonce : tx.nonce = staged.expectedNonce
  current : staged.expectedNonce = (Accounts.loadOrDefault store tx.fromAccount).nonce
  funded : staged.amount.toNat + tx.feeSat.toNat ≤ (Accounts.loadOrDefault store tx.fromAccount).balance.toNat

theorem validate_tx_ok (idx : Nat) (store : σ) (tx : TxBody) (witness : Witness) (staged : StagedTx)
    (valid : validateTx idx store tx witness = .ok staged) :
    staged.idx = idx ∧ Validated store tx witness staged := by
  unfold validateTx at valid
  split at valid
  · cases valid
  · rename_i toAccount amount target
    split at valid
    · cases valid
    · rename_i pubkeyBytes key
      split at valid
      · cases valid
      · rename_i signed
        dsimp only at valid
        split at valid
        · cases valid
        · rename_i required spend
          cases valid
          obtain ⟨nonce, value, enough⟩ := (check_spend_ok ..).mp spend
          exact ⟨rfl, target, rfl, rfl, rfl, key, signed, nonce, rfl, value ▸ enough⟩

def Staged (store : σ) (witnesses : List Witness) (item : TxBody × Nat) (staged : StagedTx) : Prop :=
  staged.idx = item.2 ∧ ∃ witness, witnesses[item.2]? = some witness ∧
    witness.hash = item.1.witnessHash ∧ Validated store item.1 witness staged

theorem validate_cons_iff (store : σ) (witnesses : List Witness) (fees feesTotal : U128) (tx : TxBody) (i : Nat)
    (tail : List (TxBody × Nat)) (staged : List StagedTx) :
    validateAll store witnesses fees ((tx, i) :: tail) = .ok (feesTotal, staged) ↔
      ∃ witness first total rest, witnesses[i]? = some witness ∧ witness.hash = tx.witnessHash ∧
        validateTx i store tx witness = .ok first ∧ total.toNat = fees.toNat + tx.feeSat.toNat ∧
        validateAll store witnesses total tail = .ok (feesTotal, rest) ∧ staged = first :: rest := by
  constructor
  · intro valid
    simp only [validateAll] at valid
    split at valid
    · cases valid
    · rename_i witness present
      split at valid
      · cases valid
      · rename_i hashed
        split at valid
        · cases valid
        · rename_i first checked
          split at valid
          · cases valid
          · rename_i total sum
            have value := (checked_add_some _ _ _).mp sum
            rw [widened_fee, (validate_tx_ok i store tx witness first checked).2.fee] at value
            split at valid
            · cases valid
            · rename_i reached rest remaining
              cases valid
              exact ⟨witness, first, total, rest, present, not_not.mp hashed, checked, value, remaining, rfl⟩
  · rintro ⟨witness, first, total, rest, present, hashed, checked, value, remaining, rfl⟩
    have sum : checkedAdd fees (first.feeSat.setWidth 128) = some total := by
      rw [checked_add_some, widened_fee, (validate_tx_ok i store tx witness first checked).2.fee, value]
    rw [validateAll, present]
    dsimp only
    rw [if_neg (not_not.mpr hashed), checked]
    dsimp only
    rw [sum]
    dsimp only
    rw [remaining]

theorem validate_all_ok (store : σ) (witnesses : List Witness) (fees total : U128) (items : List (TxBody × Nat))
    (staged : List StagedTx) (valid : validateAll store witnesses fees items = .ok (total, staged)) :
    List.Forall₂ (Staged store witnesses) items staged ∧
      total.toNat = fees.toNat + (items.map (fun item => item.1.feeSat.toNat)).sum := by
  induction items generalizing fees staged with
  | nil =>
      cases valid
      exact ⟨.nil, by simp⟩
  | cons item tail ih =>
      obtain ⟨tx, i⟩ := item
      obtain ⟨witness, first, subtotal, rest, present, hashed, checked, subtotalValue, remaining, rfl⟩ :=
        (validate_cons_iff ..).mp valid
      obtain ⟨index, validated⟩ := validate_tx_ok i store tx witness first checked
      obtain ⟨stagedRest, totalValue⟩ := ih subtotal rest remaining
      refine ⟨.cons ⟨index, witness, present, hashed, validated⟩ stagedRest, ?_⟩
      rw [totalValue, subtotalValue, List.map_cons, List.sum_cons, Nat.add_assoc]

theorem validate_block_ok (store : σ) (block : Block) (fees : U128) (staged : List StagedTx)
    (valid : validateAll store block.body.witnesses 0 block.body.txs.zipIdx = .ok (fees, staged)) :
    List.Forall₂ (Staged store block.body.witnesses) block.body.txs.zipIdx staged ∧
      fees.toNat = (block.body.txs.map fun tx => tx.feeSat.toNat).sum := by
  obtain ⟨all, total⟩ := validate_all_ok store block.body.witnesses 0 fees _ staged valid
  refine ⟨all, ?_⟩
  rw [total, indexed_fees, show (0 : U128).toNat = 0 from rfl, Nat.zero_add]

inductive BlockOutcome (store : σ) (block : Block) (reward : U128) :
    σ × Except ApplyError ApplyOutput → Prop where
  | rejected (e : ApplyError)
      (invalid : validateAll store block.body.witnesses 0 block.body.txs.zipIdx = .error e) :
      BlockOutcome store block reward (store, .error e)
  | spendFailed (fees : U128) (staged : List StagedTx) (spent : σ) (e : ApplyError)
      (valid : validateAll store block.body.witnesses 0 block.body.txs.zipIdx = .ok (fees, staged))
      (spend : runSteps applyStaged store staged = (spent, .error e)) :
      BlockOutcome store block reward (spent, .error e)
  | effectFailed (fees : U128) (staged : List StagedTx) (spent affected : σ) (e : ApplyError)
      (valid : validateAll store block.body.witnesses 0 block.body.txs.zipIdx = .ok (fees, staged))
      (spend : runSteps applyStaged store staged = (spent, .ok ()))
      (effects : runSteps (applyEffect block.header) spent block.body.txs.zipIdx = (affected, .error e)) :
      BlockOutcome store block reward (affected, .error e)
  | coinbaseFailed (fees : U128) (staged : List StagedTx) (spent affected : σ) (e : ApplyError)
      (valid : validateAll store block.body.witnesses 0 block.body.txs.zipIdx = .ok (fees, staged))
      (spend : runSteps applyStaged store staged = (spent, .ok ()))
      (effects : runSteps (applyEffect block.header) spent block.body.txs.zipIdx = (affected, .ok ()))
      (coinbase : payCoinbase block.header affected reward fees = .error e) :
      BlockOutcome store block reward (affected, .error e)
  | accepted (fees minted : U128) (staged : List StagedTx) (spent affected paid : σ)
      (valid : validateAll store block.body.witnesses 0 block.body.txs.zipIdx = .ok (fees, staged))
      (spend : runSteps applyStaged store staged = (spent, .ok ()))
      (effects : runSteps (applyEffect block.header) spent block.body.txs.zipIdx = (affected, .ok ()))
      (coinbase : payCoinbase block.header affected reward fees = .ok (paid, minted)) :
      BlockOutcome store block reward
        (activateUpgrade block.header (writeReflection block.header paid (blockReflection block fees minted)),
          .ok
            { txsApplied := block.body.txs.length
              feesCollectedSat := fees
              coinbaseMintedSat := minted
              stateRoot := StateStore.root
                (activateUpgrade block.header
                  (writeReflection block.header paid (blockReflection block fees minted))) })

theorem apply_block_outcome (store : σ) (block : Block) (reward : U128) :
    BlockOutcome store block reward (applyBlock store block reward) := by
  simp only [applyBlock]
  split
  · exact .rejected _ ‹_›
  · rename_i fees staged valid
    split
    · exact .spendFailed fees staged _ _ valid ‹_›
    · rename_i spent spend
      split
      · exact .effectFailed fees staged spent _ _ valid spend ‹_›
      · rename_i affected effects
        split
        · exact .coinbaseFailed fees staged spent affected _ valid spend effects ‹_›
        · rename_i paid minted coinbase
          exact .accepted fees minted staged spent affected paid valid spend effects coinbase

theorem stopped_at_spends (store spent : σ) (block : Block) (reward fees : U128) (staged : List StagedTx)
    (valid : validateAll store block.body.witnesses 0 block.body.txs.zipIdx = .ok (fees, staged)) (e : ApplyError)
    (failed : runSteps applyStaged store staged = (spent, .error e)) : applyBlock store block reward = (spent, .error e) := by
  simp only [applyBlock]
  rw [valid]
  dsimp only
  rw [failed]

theorem stopped_at_effects (store spent : σ) (block : Block) (reward fees : U128) (staged : List StagedTx)
    (valid : validateAll store block.body.witnesses 0 block.body.txs.zipIdx = .ok (fees, staged))
    (spend : runSteps applyStaged store staged = (spent, .ok ())) (affected : σ) (e : ApplyError)
    (failed : runSteps (applyEffect block.header) spent block.body.txs.zipIdx = (affected, .error e)) :
    applyBlock store block reward = (affected, .error e) := by
  simp only [applyBlock]
  rw [valid]
  dsimp only
  rw [spend]
  dsimp only
  rw [failed]

theorem stopped_at_coinbase (store spent : σ) (block : Block) (reward fees : U128) (staged : List StagedTx)
    (valid : validateAll store block.body.witnesses 0 block.body.txs.zipIdx = .ok (fees, staged))
    (spend : runSteps applyStaged store staged = (spent, .ok ())) (affected : σ)
    (effects : runSteps (applyEffect block.header) spent block.body.txs.zipIdx = (affected, .ok ())) (e : ApplyError)
    (failed : payCoinbase block.header affected reward fees = .error e) :
    applyBlock store block reward = (affected, .error e) := by
  simp only [applyBlock]
  rw [valid]
  dsimp only
  rw [spend]
  dsimp only
  rw [effects]
  dsimp only
  rw [failed]

theorem effects_through (store spent : σ) (block : Block) (reward fees : U128) (staged : List StagedTx)
    (valid : validateAll store block.body.witnesses 0 block.body.txs.zipIdx = .ok (fees, staged))
    (spend : runSteps applyStaged store staged = (spent, .ok ())) (affected paid : σ) (minted : U128)
    (effects : runSteps (applyEffect block.header) spent block.body.txs.zipIdx = (affected, .ok ()))
    (coinbase : payCoinbase block.header affected reward fees = .ok (paid, minted)) :
    applyBlock store block reward =
      (activateUpgrade block.header (writeReflection block.header paid (blockReflection block fees minted)),
        .ok
          { txsApplied := block.body.txs.length
            feesCollectedSat := fees
            coinbaseMintedSat := minted
            stateRoot := StateStore.root
              (activateUpgrade block.header (writeReflection block.header paid (blockReflection block fees minted))) }) := by
  simp only [applyBlock]
  rw [valid]
  dsimp only
  rw [spend]
  dsimp only
  rw [effects]
  dsimp only
  rw [coinbase]

end

end PyGrove.State
