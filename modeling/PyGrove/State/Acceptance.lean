import PyGrove.State.EffectRuns
import PyGrove.State.Nonces

set_option autoImplicit false

namespace PyGrove.State

open Words Steps PyGrove.Core Crypto

section
variable {σ : Type} [StateStore σ] [StateCbor] [HashFns] [SigFns]

def Checked (store : σ) (witnesses : List Witness) (item : TxBody × Nat) : Prop :=
  ∃ witness staged, witnesses[item.2]? = some witness ∧ witness.hash = item.1.witnessHash ∧
    validateTx item.2 store item.1 witness = .ok staged

theorem validate_all_iff (store : σ) (witnesses : List Witness) (fees : U128) (items : List (TxBody × Nat)) :
    (∃ valid, validateAll store witnesses fees items = .ok valid) ↔
      (∀ item ∈ items, Checked store witnesses item) ∧
        fees.toNat + (items.map fun item => item.1.feeSat.toNat).sum < 2 ^ 128 := by
  induction items generalizing fees with
  | nil => exact ⟨fun _ => ⟨by simp, fees.isLt⟩, fun _ => ⟨_, rfl⟩⟩
  | cons item tail ih =>
      obtain ⟨tx, i⟩ := item
      rw [List.forall_mem_cons, List.map_cons, List.sum_cons]
      constructor
      · rintro ⟨⟨feesTotal, staged⟩, valid⟩
        obtain ⟨witness, first, total, rest, present, hashed, checked, value, remaining, _⟩ :=
          (validate_cons_iff ..).mp valid
        obtain ⟨all, room⟩ := (ih total).mp ⟨_, remaining⟩
        rw [value, Nat.add_assoc] at room
        exact ⟨⟨⟨witness, first, present, hashed, checked⟩, all⟩, room⟩
      · rintro ⟨⟨head, all⟩, room⟩
        obtain ⟨witness, first, present, hashed, checked⟩ := head
        dsimp only at present hashed checked room
        have value : (BitVec.ofNat 128 (fees.toNat + tx.feeSat.toNat)).toNat = fees.toNat + tx.feeSat.toNat := by
          rw [BitVec.toNat_ofNat, Nat.mod_eq_of_lt (by omega)]
        obtain ⟨⟨feesTotal, rest⟩, remaining⟩ := (ih (BitVec.ofNat 128 (fees.toNat + tx.feeSat.toNat))).mpr
          ⟨all, by rw [value]; omega⟩
        exact ⟨_, (validate_cons_iff ..).mpr ⟨witness, first, _, rest, present, hashed, checked, value, remaining, rfl⟩⟩

omit [HashFns] [SigFns] in
theorem ready_step (store next : σ) (tx other : StagedTx) (applied : applyStaged store tx = .ok next)
    (apart : tx.fromAccount ≠ other.fromAccount) (ready : Ready store other) : Ready next other := by
  have nonce := apply_staged_nonce store next tx applied other.fromAccount
  obtain ⟨required, _, middle, middleEq, nextEq⟩ := apply_staged_account store next tx applied
  have debited := middleEq other.fromAccount
  rw [if_neg apart] at nonce debited
  have funded := ready.funded
  refine ⟨by rw [nonce]; exact ready.current, ?_⟩
  rw [nextEq, debited]
  split
  · have credit := BitVec.le_def.mp (saturating_credit_le (Accounts.loadOrDefault store other.fromAccount).balance tx.amount)
    exact funded.trans credit
  · exact funded

omit [HashFns] [SigFns] in
theorem distinct_senders_spend (store : σ) (staged : List StagedTx) (distinct : (staged.map StagedTx.fromAccount).Nodup)
    (ready : ∀ tx ∈ staged, Ready store tx) : ∃ spent, runSteps applyStaged store staged = (spent, .ok ()) := by
  induction staged generalizing store with
  | nil => exact ⟨store, rfl⟩
  | cons tx tail ih =>
      rw [List.map_cons, List.nodup_cons] at distinct
      obtain ⟨fresh, rest⟩ := distinct
      obtain ⟨next, applied⟩ := ready_applies store tx (ready tx (by simp))
      rw [run_steps_cons_ok applyStaged store next tx tail applied]
      apply ih next rest
      intro other member
      have apart : tx.fromAccount ≠ other.fromAccount := fun same => fresh (List.mem_map.mpr ⟨other, member, same.symm⟩)
      exact ready_step store next tx other applied apart (ready other (by simp [member]))

omit [HashFns] [SigFns] in
theorem spends_never_stale (store spent : σ) (staged : List StagedTx)
    (finished : runSteps applyStaged store staged = (spent, .ok ())) (tx : StagedTx) (member : tx ∈ staged) :
    (Accounts.loadOrDefault store tx.fromAccount).nonce.toNat ≤ tx.expectedNonce.toNat := by
  induction staged generalizing store with
  | nil => cases member
  | cons first tail ih =>
      obtain ⟨next, applied, rest⟩ := run_steps_finished_cons applyStaged store spent first tail finished
      rcases List.mem_cons.mp member with rfl | later
      · obtain ⟨_, current, _⟩ := apply_staged_ok store next tx applied
        rw [current]
      · have moved := apply_staged_nonce store next first applied tx.fromAccount
        have bound := (Accounts.loadOrDefault store tx.fromAccount).nonce.isLt
        have reached := ih next rest later
        rw [moved] at reached
        split at reached
        · rw [to_nat_saturating_succ] at reached
          omega
        · exact reached

omit [HashFns] [SigFns] in
theorem spends_repeat_saturated (store spent : σ) (staged : List StagedTx)
    (finished : runSteps applyStaged store staged = (spent, .ok ())) :
    staged.Pairwise fun a b => a.fromAccount = b.fromAccount → a.expectedNonce = b.expectedNonce →
      a.expectedNonce = BitVec.allOnes 64 := by
  induction staged generalizing store with
  | nil => exact .nil
  | cons tx tail ih =>
      obtain ⟨next, applied, rest⟩ := run_steps_finished_cons applyStaged store spent tx tail finished
      refine .cons ?_ (ih next rest)
      intro later member sameSender sameNonce
      obtain ⟨_, current, _⟩ := apply_staged_ok store next tx applied
      have moved := apply_staged_nonce store next tx applied later.fromAccount
      have reached := spends_never_stale next spent tail rest later member
      have bound := tx.expectedNonce.isLt
      rw [moved, if_pos sameSender, ← sameSender, ← current, ← sameNonce, to_nat_saturating_succ] at reached
      apply BitVec.eq_of_toNat_eq
      rw [BitVec.toNat_allOnes]
      omega

-- The store as the effects of earlier txs leave it. Only their own writes count:
-- the checks read nothing that a spend touches.
def effectsWritten (header : BlockHeader) (store : σ) (txs : List TxBody) : σ :=
  txs.foldl (fun state tx => writeTo state (effectWrite header tx)) store

def SameMetadata (a b : σ) : Prop := ∀ key, StateStore.get a .metadata key = StateStore.get b .metadata key

omit [HashFns] [SigFns] in
theorem same_metadata_write (header : BlockHeader) (a b : σ) (tx : TxBody) (same : SameMetadata a b) :
    SameMetadata (writeTo a (effectWrite header tx)) (writeTo b (effectWrite header tx)) := by
  intro key
  cases effectWrite header tx with
  | none => exact same key
  | some write =>
      obtain ⟨sub, written, value⟩ := write
      rw [writeTo, writeTo, StateStore.get_put, StateStore.get_put, same key]

theorem effect_checks_same (a b : σ) (tx : TxBody) (i : Nat) (same : SameMetadata a b) :
    EffectChecks a tx i ↔ EffectChecks b tx i := by
  have governance : loadGovernance a = loadGovernance b := by
    rw [loadGovernance, loadGovernance, loadRecord, loadRecord, same]
  have gate : ∀ govProof payload, governanceGate i a govProof payload = governanceGate i b govProof payload := by
    intro govProof payload
    rw [governanceGate, governanceGate, governance]
  have authority : ∀ jobId sender, attestAuthorized i a jobId sender = attestAuthorized i b jobId sender := by
    intro jobId sender
    rw [attestAuthorized, attestAuthorized, loadAttestAuthority, loadAttestAuthority, loadRecord, loadRecord, same]
  simp only [EffectChecks]
  simp only [gate, authority]

def EffectsAllowed (header : BlockHeader) (store : σ) (first : Nat) (txs : List TxBody) : Prop :=
  ∀ (i : Nat) (tx : TxBody), txs[i]? = some tx → EffectChecks (effectsWritten header store (txs.take i)) tx (first + i)

theorem effects_allowed_cons (header : BlockHeader) (store : σ) (first : Nat) (tx : TxBody) (tail : List TxBody) :
    EffectsAllowed header store first (tx :: tail) ↔
      EffectChecks store tx first ∧ EffectsAllowed header (writeTo store (effectWrite header tx)) (first + 1) tail := by
  constructor
  · intro pass
    refine ⟨pass 0 tx rfl, fun i later found => ?_⟩
    have checks := pass (i + 1) later found
    rwa [show first + (i + 1) = first + 1 + i by omega] at checks
  · rintro ⟨head, rest⟩ i later found
    cases i with
    | zero =>
        cases found
        exact head
    | succ i =>
        have checks := rest i later found
        rwa [show first + 1 + i = first + (i + 1) by omega] at checks

theorem effects_iff (header : BlockHeader) (store state : σ) (first : Nat) (txs : List TxBody) (same : SameMetadata state store) :
    (∃ affected, runSteps (applyEffect header) state (txs.zipIdx first) = (affected, .ok ())) ↔
      EffectsAllowed header store first txs := by
  induction txs generalizing store state first with
  | nil => exact ⟨fun _ i tx found => by simp at found, fun _ => ⟨state, rfl⟩⟩
  | cons tx tail ih =>
      have step := apply_effect_iff header state (writeTo state (effectWrite header tx)) tx first
      rw [effects_allowed_cons, List.zipIdx_cons, ← effect_checks_same state store tx first same,
        ← ih _ _ (first + 1) (same_metadata_write header state store tx same)]
      by_cases checks : EffectChecks state tx first
      · rw [run_steps_cons_ok _ state _ (tx, first) _ (step.mpr ⟨checks, rfl⟩)]
        exact ⟨fun ran => ⟨checks, ran⟩, fun both => both.2⟩
      · refine ⟨?_, fun both => absurd both.1 checks⟩
        rintro ⟨affected, ran⟩
        obtain ⟨next, applied, _⟩ := run_steps_finished_cons (applyEffect header) state affected (tx, first) _ ran
        exact absurd ((apply_effect_iff header state next tx first).mp applied).1 checks

def payment (tx : TxBody) : AccountId × U128 :=
  match tx.call with
  | .transfer toAccount amount => (toAccount, amount)
  | _ => (tx.fromAccount, 0)

def balanceStep (id : AccountId) (balance : Nat) (tx : TxBody) : Nat :=
  let debited := if tx.fromAccount = id then balance - ((payment tx).2.toNat + tx.feeSat.toNat) else balance
  if (payment tx).1 = id then min (debited + (payment tx).2.toNat) (2 ^ 128 - 1) else debited

def balanceAfter (store : σ) (id : AccountId) (txs : List TxBody) : Nat :=
  txs.foldl (balanceStep id) (Accounts.loadOrDefault store id).balance.toNat

omit [StateStore σ] [StateCbor] [HashFns] [SigFns] in
theorem call_target_payment (idx : Nat) (tx : TxBody) (target : AccountId × U128) (found : callTarget idx tx = .ok target) :
    target = payment tx := by
  simp only [callTarget] at found
  simp only [payment]
  generalize tx.call = call at found ⊢
  cases call with
  | deployContract codeRef initArgs => cases found
  | callContract contract method args => cases found
  | _ =>
      cases found
      rfl

theorem staged_balance (base state next : σ) (witnesses : List Witness) (item : TxBody × Nat) (tx : StagedTx)
    (staged : Staged base witnesses item tx) (applied : applyStaged state tx = .ok next) (id : AccountId) :
    (Accounts.loadOrDefault next id).balance.toNat =
      balanceStep id (Accounts.loadOrDefault state id).balance.toNat item.1 := by
  obtain ⟨_, witness, _, _, validated⟩ := staged
  have target := call_target_payment tx.idx item.1 _ validated.target
  obtain ⟨required, _, value, enough, debited, debitedEq, nextEq⟩ := apply_staged_ok state next tx applied
  have debit : (Accounts.loadOrDefault debited id).balance.toNat =
      if tx.fromAccount = id then
        (Accounts.loadOrDefault state id).balance.toNat - (tx.amount.toNat + tx.feeSat.toNat)
      else (Accounts.loadOrDefault state id).balance.toNat := by
    rw [debitedEq, Accounts.load_or_default_save]
    by_cases own : tx.fromAccount = id
    · subst own
      rw [if_pos rfl, if_pos rfl, debitSender, BitVec.toNat_sub_of_le (by simpa [BitVec.le_def] using enough), value]
    · rw [if_neg own, if_neg own]
  rw [balanceStep, ← target, ← validated.sender, ← validated.fee]
  dsimp only
  rw [← debit, nextEq, Accounts.load_or_default_save]
  by_cases paid : tx.toAccount = id
  · subst paid
    rw [if_pos rfl, if_pos rfl]
    exact to_nat_saturating_add ..
  · rw [if_neg paid, if_neg paid]

theorem spends_balance (base state spent : σ) (witnesses : List Witness) (items : List (TxBody × Nat))
    (staged : List StagedTx) (all : List.Forall₂ (Staged base witnesses) items staged)
    (finished : runSteps applyStaged state staged = (spent, .ok ())) (id : AccountId) :
    (Accounts.loadOrDefault spent id).balance.toNat = balanceAfter state id (items.map Prod.fst) := by
  induction all generalizing state with
  | nil =>
      cases finished
      rfl
  | @cons item tx items tail head _ ih =>
      obtain ⟨next, applied, rest⟩ := run_steps_finished_cons applyStaged state spent tx tail finished
      rw [ih next rest, balanceAfter, balanceAfter, List.map_cons, List.foldl_cons,
        staged_balance base state next witnesses item tx head applied id]

omit [HashFns] [SigFns] in
theorem pay_coinbase_iff (header : BlockHeader) (store : σ) (reward fees : U128) :
    (∃ paid, payCoinbase header store reward fees = .ok paid) ↔
      (Accounts.loadOrDefault store (.fromCoinbase header.coinbase)).balance.toNat + reward.toNat + fees.toNat < 2 ^ 128 := by
  rw [payCoinbase]
  cases minted : checkedAdd reward fees with
  | none =>
      have overflow := (checked_add_none _ _).mp minted
      refine ⟨?_, fun fits => by omega⟩
      rintro ⟨_, failed⟩
      cases failed
  | some total =>
      have value := (checked_add_some _ _ _).mp minted
      dsimp only
      cases credited : checkedAdd (Accounts.loadOrDefault store (.fromCoinbase header.coinbase)).balance total with
      | none =>
          have overflow := (checked_add_none _ _).mp credited
          refine ⟨?_, fun fits => by omega⟩
          rintro ⟨_, failed⟩
          cases failed
      | some balance =>
          have bound := balance.isLt
          have sum := (checked_add_some _ _ _).mp credited
          exact ⟨fun _ => by omega, fun _ => ⟨_, rfl⟩⟩

structure Applicable (store : σ) (block : Block) (reward : U128) : Prop where
  checked : ∀ item ∈ block.body.txs.zipIdx, Checked store block.body.witnesses item
  effects : EffectsAllowed block.header store 0 block.body.txs
  coinbase : balanceAfter store (.fromCoinbase block.header.coinbase) block.body.txs + reward.toNat +
    (block.body.txs.map fun tx => tx.feeSat.toNat).sum < 2 ^ 128

omit [HashFns] [SigFns] in
theorem spends_metadata (store spent : σ) (staged : List StagedTx)
    (finished : runSteps applyStaged store staged = (spent, .ok ())) : SameMetadata spent store := by
  intro key
  have kept := spends_get store staged .metadata key (by decide)
  rwa [finished] at kept

theorem staged_senders (store : σ) (witnesses : List Witness) (items : List (TxBody × Nat)) (staged : List StagedTx)
    (all : List.Forall₂ (Staged store witnesses) items staged) :
    staged.map StagedTx.fromAccount = (items.map Prod.fst).map TxBody.fromAccount := by
  induction all with
  | nil => rfl
  | cons head _ ih =>
      obtain ⟨_, _, _, _, validated⟩ := head
      rw [List.map_cons, List.map_cons, List.map_cons, ih, validated.sender]

theorem block_senders (store : σ) (block : Block) (staged : List StagedTx)
    (all : List.Forall₂ (Staged store block.body.witnesses) block.body.txs.zipIdx staged) :
    staged.map StagedTx.fromAccount = block.body.txs.map TxBody.fromAccount := by
  rw [staged_senders store _ _ staged all, List.zipIdx_map_fst]

theorem staged_ready (store : σ) (witnesses : List Witness) (items : List (TxBody × Nat)) (staged : List StagedTx)
    (all : List.Forall₂ (Staged store witnesses) items staged) : ∀ tx ∈ staged, Ready store tx := by
  induction all with
  | nil => simp
  | @cons item tx _ _ head _ ih =>
      obtain ⟨_, witness, _, _, validated⟩ := head
      exact List.forall_mem_cons.mpr ⟨validated_ready store item.1 witness tx validated, ih⟩

def SpendsFunded (store : σ) (txs : List TxBody) : Prop :=
  ∀ (i : Nat) (tx : TxBody), txs[i]? = some tx →
    (payment tx).2.toNat + tx.feeSat.toNat ≤ balanceAfter store tx.fromAccount (txs.take i)

-- What pass 2 asks of the txs beyond pass 1, read off the store before the block.
-- A nonce at u64::MAX stays there, and is good for a second tx.
structure SpendsPass (store : σ) (txs : List TxBody) : Prop where
  repeats : txs.Pairwise fun a b => a.fromAccount = b.fromAccount →
    (Accounts.loadOrDefault store a.fromAccount).nonce = BitVec.allOnes 64
  funded : SpendsFunded store txs

omit [HashFns] [SigFns] in
theorem spends_funded_cons (store next : σ) (tx : TxBody) (tail : List TxBody)
    (moved : ∀ id, (Accounts.loadOrDefault next id).balance.toNat =
      balanceStep id (Accounts.loadOrDefault store id).balance.toNat tx) :
    SpendsFunded store (tx :: tail) ↔
      (payment tx).2.toNat + tx.feeSat.toNat ≤ (Accounts.loadOrDefault store tx.fromAccount).balance.toNat ∧
        SpendsFunded next tail := by
  have after : ∀ id txs, balanceAfter store id (tx :: txs) = balanceAfter next id txs := by
    intro id txs
    rw [balanceAfter, balanceAfter, List.foldl_cons, moved]
  constructor
  · intro funded
    refine ⟨funded 0 tx rfl, fun i later found => ?_⟩
    have here := funded (i + 1) later found
    rwa [List.take_succ_cons, after] at here
  · rintro ⟨head, rest⟩ i later found
    cases i with
    | zero =>
        cases found
        exact head
    | succ i =>
        rw [List.take_succ_cons, after]
        exact rest i later found

theorem staged_payment (base : σ) (witnesses : List Witness) (item : TxBody × Nat) (tx : StagedTx)
    (staged : Staged base witnesses item tx) :
    tx.fromAccount = item.1.fromAccount ∧ tx.amount.toNat + tx.feeSat.toNat = (payment item.1).2.toNat + item.1.feeSat.toNat := by
  obtain ⟨_, witness, _, _, validated⟩ := staged
  have target := call_target_payment tx.idx item.1 _ validated.target
  rw [← target, validated.fee]
  exact ⟨validated.sender, rfl⟩

theorem spends_funded (base state spent : σ) (witnesses : List Witness) (items : List (TxBody × Nat))
    (staged : List StagedTx) (all : List.Forall₂ (Staged base witnesses) items staged)
    (finished : runSteps applyStaged state staged = (spent, .ok ())) : SpendsFunded state (items.map Prod.fst) := by
  induction all generalizing state with
  | nil => exact fun i tx found => by simp at found
  | @cons item tx items tail head _ ih =>
      obtain ⟨next, applied, rest⟩ := run_steps_finished_cons applyStaged state spent tx tail finished
      obtain ⟨required, _, value, enough, _⟩ := apply_staged_ok state next tx applied
      obtain ⟨sender, pays⟩ := staged_payment base witnesses item tx head
      rw [List.map_cons, spends_funded_cons state next item.1 _ (staged_balance base state next witnesses item tx head applied),
        ← sender, ← pays, ← value]
      exact ⟨enough, ih next rest⟩

theorem spends_go_through (base state : σ) (witnesses : List Witness) (items : List (TxBody × Nat)) (staged : List StagedTx)
    (all : List.Forall₂ (Staged base witnesses) items staged)
    (current : ∀ tx ∈ staged, tx.expectedNonce = (Accounts.loadOrDefault state tx.fromAccount).nonce)
    (repeats : staged.Pairwise fun a b => a.fromAccount = b.fromAccount →
      (Accounts.loadOrDefault state a.fromAccount).nonce = BitVec.allOnes 64)
    (funded : SpendsFunded state (items.map Prod.fst)) : ∃ spent, runSteps applyStaged state staged = (spent, .ok ()) := by
  induction all generalizing state with
  | nil => exact ⟨state, rfl⟩
  | @cons item tx items tail head _ ih =>
      obtain ⟨sender, pays⟩ := staged_payment base witnesses item tx head
      have enough := funded 0 item.1 rfl
      rw [← pays, ← sender] at enough
      obtain ⟨next, applied⟩ := ready_applies state tx ⟨current tx List.mem_cons_self, enough⟩
      obtain ⟨saturated, apart⟩ := List.pairwise_cons.mp repeats
      have kept : ∀ other ∈ tail, (Accounts.loadOrDefault next other.fromAccount).nonce =
          (Accounts.loadOrDefault state other.fromAccount).nonce := by
        intro other member
        rw [apply_staged_nonce state next tx applied]
        by_cases own : tx.fromAccount = other.fromAccount
        · rw [if_pos own, ← own, saturated other member own]
          decide
        · rw [if_neg own]
      rw [List.map_cons,
        spends_funded_cons state next item.1 _ (staged_balance base state next witnesses item tx head applied)] at funded
      obtain ⟨spent, rest⟩ := ih next (fun other member => by rw [kept other member]; exact current other (by simp [member]))
        (apart.imp_of_mem fun member _ saturated same => by rw [kept _ member]; exact saturated same) funded.2
      exact ⟨spent, by rw [run_steps_cons_ok applyStaged state next tx tail applied, rest]⟩

theorem spends_iff (store : σ) (witnesses : List Witness) (items : List (TxBody × Nat)) (staged : List StagedTx)
    (all : List.Forall₂ (Staged store witnesses) items staged) :
    (∃ spent, runSteps applyStaged store staged = (spent, .ok ())) ↔ SpendsPass store (items.map Prod.fst) := by
  have ready := staged_ready store _ _ staged all
  have senders := staged_senders store witnesses items staged all
  have repeats : (staged.Pairwise fun a b => a.fromAccount = b.fromAccount →
      (Accounts.loadOrDefault store a.fromAccount).nonce = BitVec.allOnes 64) ↔
      (items.map Prod.fst).Pairwise fun a b => a.fromAccount = b.fromAccount →
        (Accounts.loadOrDefault store a.fromAccount).nonce = BitVec.allOnes 64 := by
    rw [← List.pairwise_map (f := StagedTx.fromAccount) (R := fun a b => a = b → (Accounts.loadOrDefault store a).nonce = _),
      senders, List.pairwise_map]
  constructor
  · rintro ⟨spent, spend⟩
    refine ⟨repeats.mp ((spends_repeat_saturated store spent staged spend).imp_of_mem ?_),
      spends_funded store store spent witnesses items staged all spend⟩
    intro a b first second saturated same
    rw [← (ready a first).current]
    apply saturated same
    rw [(ready a first).current, (ready b second).current, same]
  · intro pass
    exact spends_go_through store store witnesses items staged all (fun tx member => (ready tx member).current)
      (repeats.mpr pass.repeats) pass.funded

theorem applicable_validates (store : σ) (block : Block) (reward : U128) (applicable : Applicable store block reward) :
    ∃ fees staged, validateAll store block.body.witnesses 0 block.body.txs.zipIdx = .ok (fees, staged) := by
  have fits := applicable.coinbase
  obtain ⟨⟨fees, staged⟩, valid⟩ := (validate_all_iff store block.body.witnesses 0 block.body.txs.zipIdx).mpr
    ⟨applicable.checked, by rw [indexed_fees, show (0 : U128).toNat = 0 from rfl]; omega⟩
  exact ⟨fees, staged, valid⟩

theorem accepted_iff_applicable (store : σ) (block : Block) (reward : U128) :
    (applyBlock store block reward).2.isOk = true ↔ Applicable store block reward ∧ SpendsPass store block.body.txs := by
  have names : block.body.txs.zipIdx.map Prod.fst = block.body.txs := List.zipIdx_map_fst ..
  constructor
  · intro accepted
    have outcome := apply_block_outcome store block reward
    generalize applyBlock store block reward = result at outcome accepted
    cases outcome with
    | accepted fees minted staged spent affected paid valid spend effects coinbase =>
        obtain ⟨all, feesValue⟩ := validate_block_ok store block fees staged valid
        have pass := (spends_iff store _ _ staged all).mp ⟨spent, spend⟩
        rw [names] at pass
        have fits := (pay_coinbase_iff block.header affected reward fees).mp ⟨_, coinbase⟩
        have kept := effects_run_load block.header spent affected _ _ effects (.fromCoinbase block.header.coinbase)
        rw [kept, spends_balance store store spent _ _ staged all spend, names, feesValue] at fits
        refine ⟨⟨((validate_all_iff ..).mp ⟨_, valid⟩).1, ?_, fits⟩, pass⟩
        exact (effects_iff block.header store spent 0 _ (spends_metadata store spent staged spend)).mp ⟨affected, effects⟩
    | _ => cases accepted
  · rintro ⟨applicable, pass⟩
    obtain ⟨fees, staged, valid⟩ := applicable_validates store block reward applicable
    obtain ⟨all, feesValue⟩ := validate_block_ok store block fees staged valid
    rw [← names] at pass
    obtain ⟨spent, spend⟩ := (spends_iff store _ _ staged all).mpr pass
    obtain ⟨affected, effects⟩ :=
      (effects_iff block.header store spent 0 _ (spends_metadata store spent staged spend)).mpr applicable.effects
    have kept := effects_run_load block.header spent affected _ _ effects (.fromCoinbase block.header.coinbase)
    obtain ⟨⟨paid, minted⟩, coinbase⟩ := (pay_coinbase_iff block.header affected reward fees).mpr (by
      rw [kept, spends_balance store store spent _ _ staged all spend, names, feesValue]
      exact applicable.coinbase)
    rw [effects_through store spent block reward fees staged valid spend affected paid minted effects coinbase]
    rfl

theorem accepted_applicable (store : σ) (block : Block) (reward : U128)
    (accepted : (applyBlock store block reward).2.isOk = true) : Applicable store block reward :=
  ((accepted_iff_applicable store block reward).mp accepted).1

theorem applicable_accepted (store : σ) (block : Block) (reward : U128)
    (distinct : (block.body.txs.map TxBody.fromAccount).Nodup) (applicable : Applicable store block reward) :
    (applyBlock store block reward).2.isOk = true := by
  obtain ⟨fees, staged, valid⟩ := applicable_validates store block reward applicable
  obtain ⟨all, _⟩ := validate_block_ok store block fees staged valid
  have pass := (spends_iff store _ _ staged all).mp
    (distinct_senders_spend store staged (by rw [block_senders store block staged all]; exact distinct) (staged_ready store _ _ staged all))
  rw [List.zipIdx_map_fst] at pass
  exact (accepted_iff_applicable store block reward).mpr ⟨applicable, pass⟩

theorem accepted_repeat_saturated (store : σ) (block : Block) (reward : U128)
    (accepted : (applyBlock store block reward).2.isOk = true) :
    block.body.txs.Pairwise fun a b => a.fromAccount = b.fromAccount →
      (Accounts.loadOrDefault store a.fromAccount).nonce = BitVec.allOnes 64 :=
  ((accepted_iff_applicable store block reward).mp accepted).2.repeats

def FirstPass (store : σ) (block : Block) : Prop :=
  (∀ item ∈ block.body.txs.zipIdx, Checked store block.body.witnesses item) ∧
    (block.body.txs.map fun tx => tx.feeSat.toNat).sum < 2 ^ 128

theorem first_pass_iff (store : σ) (block : Block) :
    (∃ valid, validateAll store block.body.witnesses 0 block.body.txs.zipIdx = .ok valid) ↔ FirstPass store block := by
  rw [validate_all_iff, indexed_fees, show (0 : U128).toNat = 0 from rfl, Nat.zero_add]
  rfl

theorem late_failure_iff (store : σ) (block : Block) (reward : U128) :
    LateFailure store block reward ↔
      FirstPass store block ∧ ¬ (Applicable store block reward ∧ SpendsPass store block.body.txs) := by
  rw [← first_pass_iff, ← accepted_iff_applicable]
  constructor
  · intro late
    refine ⟨?_, fun accepted => ?_⟩
    · cases late with
      | spend fees staged spent e valid failed => exact ⟨_, valid⟩
      | effect fees staged spent affected e valid spend failed => exact ⟨_, valid⟩
      | coinbase fees staged spent affected e valid spend effects failed => exact ⟨_, valid⟩
    · obtain ⟨e, failed⟩ := late_failure_error store block reward late
      rw [failed] at accepted
      cases accepted
  · rintro ⟨⟨checked, valid⟩, refused⟩
    have outcome := apply_block_outcome store block reward
    generalize applyBlock store block reward = result at outcome refused
    cases outcome with
    | rejected e invalid => cases valid.symm.trans invalid
    | spendFailed fees staged spent e valid spend => exact .spend fees staged spent e valid spend
    | effectFailed fees staged spent affected e valid spend effects => exact .effect fees staged spent affected e valid spend effects
    | coinbaseFailed fees staged spent affected e valid spend effects coinbase =>
        exact .coinbase fees staged spent affected e valid spend effects coinbase
    | accepted fees minted staged spent affected paid valid spend effects coinbase => exact absurd rfl refused

def WritesSafely (store : σ) (block : Block) (reward : U128) : Prop :=
  block.body.txs = [] ∨ ¬ FirstPass store block ∨ (Applicable store block reward ∧ SpendsPass store block.body.txs)

-- A nonce at u64::MAX stays there, so a sender with 2^64 - 1 txs behind it
-- need not leave a trace; every other late failure does.
theorem atomic_iff_applicable (store : σ) (block : Block) (reward : U128) :
    (WritesSafely store block reward → Atomic store block reward) ∧
      ((∀ first ∈ block.body.txs.head?, (Accounts.loadOrDefault store first.fromAccount).nonce ≠ BitVec.allOnes 64) →
        (Atomic store block reward ↔ WritesSafely store block reward)) := by
  have safe : WritesSafely store block reward ↔ ¬ (block.body.txs ≠ [] ∧ LateFailure store block reward) := by
    rw [late_failure_iff, WritesSafely]
    tauto
  rw [safe]
  refine ⟨atomic_without_late_failure store block reward, fun unsaturated => ⟨?_, atomic_without_late_failure store block reward⟩⟩
  rintro atomic ⟨present, late⟩
  obtain ⟨first, rest, txs⟩ := List.exists_cons_of_ne_nil present
  obtain ⟨e, failed, changed⟩ := late_failure_writes store block reward first rest txs late
    (unsaturated first (by rw [txs]; rfl))
  apply changed
  rw [Accounts.loadOrDefault, Accounts.load, loadRecord, atomic e failed]
  rfl

end

open Sample in
theorem same_nonce_twice_not_atomic :
    let key := List.replicate 32 7
    let sender := AccountId.fromPubkey key
    let twice := block (header 1 (.replicate 32 0) 1000 0)
      [signedTx 0 (.transfer sender 0) 0 3 key (.inline key), signedTx 0 (.transfer sender 0) 0 3 key (.inline key)]
    ¬ Atomic MemState.new twice 0 := by
  intro key sender twice atomic
  have failed : (applyBlock MemState.new twice 0).2 = .error (.nonceMismatch 1 1 0) := by decide +kernel
  have kept := atomic _ failed .accounts sender.id.toList
  have written : (applyBlock MemState.new twice 0).1.get .accounts sender.id.toList ≠ none := by decide +kernel
  exact written (kept.trans (MemState.get_new ..))

end PyGrove.State
