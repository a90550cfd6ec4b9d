import Mathlib.Data.BitVec
import Mathlib.Data.List.Perm.Basic
import PyGrove.State.Acceptance
import PyGrove.State.Conservation
import PyGrove.State.HeaderBinding

set_option autoImplicit false

namespace PyGrove.State

open Words Steps PyGrove.Core Crypto

def spendAccount (id : AccountId) (acct : Account) (tx : StagedTx) : Account where
  balance := acct.balance - (if tx.fromAccount = id then tx.amount + tx.feeSat.setWidth 128 else 0) +
    (if tx.toAccount = id then tx.amount else 0)
  nonce := if tx.fromAccount = id then saturatingAdd acct.nonce 1 else acct.nonce
  pubkey := if tx.fromAccount = id ∧ acct.pubkey.isEmpty then tx.pubkeyBytes else acct.pubkey
  sigAlgo := if tx.fromAccount = id ∧ acct.pubkey.isEmpty then tx.sigAlgo else acct.sigAlgo

theorem spend_account_untouched (id : AccountId) (acct : Account) (tx : StagedTx) (sender : tx.fromAccount ≠ id)
    (receiver : tx.toAccount ≠ id) : spendAccount id acct tx = acct := by
  simp [spendAccount, sender, receiver]

theorem spend_account_comm (id : AccountId) (acct : Account) (a b : StagedTx) (apart : a.fromAccount ≠ b.fromAccount) :
    spendAccount id (spendAccount id acct a) b = spendAccount id (spendAccount id acct b) a := by
  have once : ¬ (a.fromAccount = id ∧ b.fromAccount = id) := fun both => apart (both.1.trans both.2.symm)
  simp only [spendAccount, Account.mk.injEq]
  refine ⟨by ring, ?_, ?_, ?_⟩ <;>
    by_cases first : a.fromAccount = id <;> by_cases second : b.fromAccount = id <;> simp_all

section
variable [StateCbor]

def entryAccount (entry : Option (List U8)) : Account :=
  (entry.bind fun bytes => (StateCbor.account.decode bytes).toOption).getD .empty

theorem entry_account_encode (acct : Account) : entryAccount (some (StateCbor.account.encode acct)) = acct := by
  simp [entryAccount, Except.toOption]

def entryStep (id : AccountId) (entry : Option (List U8)) (tx : StagedTx) : Option (List U8) :=
  if tx.fromAccount = id ∨ tx.toAccount = id then
    some (StateCbor.account.encode (spendAccount id (entryAccount entry) tx))
  else entry

theorem entry_account_step (id : AccountId) (entry : Option (List U8)) (tx : StagedTx) :
    entryAccount (entryStep id entry tx) = spendAccount id (entryAccount entry) tx := by
  rw [entryStep]
  by_cases touched : tx.fromAccount = id ∨ tx.toAccount = id
  · rw [if_pos touched, entry_account_encode]
  · obtain ⟨sender, receiver⟩ := not_or.mp touched
    rw [if_neg touched, spend_account_untouched id _ tx sender receiver]

theorem entry_step_comm (id : AccountId) (entry : Option (List U8)) (a b : StagedTx) (apart : a.fromAccount ≠ b.fromAccount) :
    entryStep id (entryStep id entry a) b = entryStep id (entryStep id entry b) a := by
  have accounts := spend_account_comm id (entryAccount entry) a b apart
  by_cases first : a.fromAccount = id ∨ a.toAccount = id
  · by_cases second : b.fromAccount = id ∨ b.toAccount = id
    · rw [entryStep, if_pos second, entry_account_step, accounts, ← entry_account_step,
        entryStep.eq_def id (entryStep id entry b), if_pos first]
    · have skip : ∀ held, entryStep id held b = held := fun held => if_neg second
      rw [skip, skip]
  · have skip : ∀ held, entryStep id held a = held := fun held => if_neg first
    rw [skip, skip]

theorem spend_fold_perm (id : AccountId) (entry : Option (List U8)) (a b : List StagedTx) (perm : a.Perm b)
    (distinct : (a.map StagedTx.fromAccount).Nodup) : a.foldl (entryStep id) entry = b.foldl (entryStep id) entry := by
  apply perm.foldl_eq'
  intro x memberX y memberY held
  by_cases same : x = y
  · rw [same]
  · have apart : x.fromAccount ≠ y.fromAccount := fun sender =>
      same (List.inj_on_of_nodup_map distinct memberX memberY sender)
    exact entry_step_comm id held x y apart

variable {σ : Type} [StateStore σ]

theorem account_entry (store : σ) (id : AccountId) :
    Accounts.loadOrDefault store id = entryAccount (StateStore.get store .accounts id.id.toList) := rfl

theorem get_save (store : σ) (id id' : AccountId) (acct : Account) :
    StateStore.get (Accounts.save store id acct) .accounts id'.id.toList =
      if id = id' then some (StateCbor.account.encode acct) else StateStore.get store .accounts id'.id.toList := by
  rw [Accounts.save, saveRecord, StateStore.get_put]
  by_cases same : id = id'
  · subst same
    simp
  · rw [if_neg same, if_neg fun both => same (account_key_inj id id' both.2)]

theorem total_save_le (store : σ) (id : AccountId) (acct : Account) :
    Ledger.total (balances (Accounts.save store id acct)) ≤ Ledger.total (balances store) + acct.balance.toNat :=
  Nat.le_of_add_right_le (Nat.le_of_eq (total_save store id acct))

theorem apply_staged_spends (store next : σ) (tx : StagedTx) (applied : applyStaged store tx = .ok next)
    (bounded : Ledger.total (balances store) < 2 ^ 128) (id : AccountId) :
    Accounts.loadOrDefault next id = spendAccount id (Accounts.loadOrDefault store id) tx := by
  obtain ⟨required, _, value, enough, debited, debitedEq, nextEq⟩ := apply_staged_ok store next tx applied
  have requiredEq : required = tx.amount + tx.feeSat.setWidth 128 := by
    have bound := required.isLt
    apply BitVec.eq_of_toNat_eq
    rw [BitVec.toNat_add, widened_fee, value, Nat.mod_eq_of_lt (by omega)]
  have debitValue := debit_sender_balances store tx required value enough
  rw [← debitedEq] at debitValue
  have room := credit_has_room store debited tx debitValue (value ▸ enough) bounded
  have credit : saturatingAdd (Accounts.loadOrDefault debited tx.toAccount).balance tx.amount =
      (Accounts.loadOrDefault debited tx.toAccount).balance + tx.amount := by
    rw [saturatingAdd, if_pos room]
  rw [nextEq, Accounts.load_or_default_save, credit, debitedEq, Accounts.load_or_default_save, Accounts.load_or_default_save,
    requiredEq]
  by_cases receiver : tx.toAccount = id
  · subst receiver
    by_cases sender : tx.fromAccount = tx.toAccount
    · rw [sender]
      simp [spendAccount, debitSender, sender]
    · simp [spendAccount, sender]
  · by_cases sender : tx.fromAccount = id
    · subst sender
      simp [spendAccount, debitSender, receiver]
    · simp [spendAccount, sender, receiver]

theorem apply_staged_touches (store next : σ) (tx : StagedTx) (applied : applyStaged store tx = .ok next) (id : AccountId) :
    StateStore.get next .accounts id.id.toList =
      if tx.fromAccount = id ∨ tx.toAccount = id then some (StateCbor.account.encode (Accounts.loadOrDefault next id))
      else StateStore.get store .accounts id.id.toList := by
  obtain ⟨required, _, _, _, debited, debitedEq, nextEq⟩ := apply_staged_ok store next tx applied
  rw [nextEq, get_save, Accounts.load_or_default_save, debitedEq, get_save, Accounts.load_or_default_save]
  by_cases receiver : tx.toAccount = id
  · rw [if_pos receiver, if_pos (Or.inr receiver), if_pos receiver]
  · by_cases sender : tx.fromAccount = id
    · rw [if_neg receiver, if_pos sender, if_pos (Or.inl sender), if_neg receiver, Accounts.load_or_default_save, if_pos sender]
    · rw [if_neg receiver, if_neg sender, if_neg (not_or.mpr ⟨sender, receiver⟩)]

theorem apply_staged_entry (store next : σ) (tx : StagedTx) (applied : applyStaged store tx = .ok next)
    (bounded : Ledger.total (balances store) < 2 ^ 128) (id : AccountId) :
    StateStore.get next .accounts id.id.toList = entryStep id (StateStore.get store .accounts id.id.toList) tx := by
  rw [apply_staged_touches store next tx applied id, apply_staged_spends store next tx applied bounded id, account_entry,
    entryStep]

theorem spends_entry (store spent : σ) (staged : List StagedTx) (finished : runSteps applyStaged store staged = (spent, .ok ()))
    (bounded : Ledger.total (balances store) < 2 ^ 128) (id : AccountId) :
    StateStore.get spent .accounts id.id.toList =
      staged.foldl (entryStep id) (StateStore.get store .accounts id.id.toList) := by
  induction staged generalizing store with
  | nil =>
      cases finished
      rfl
  | cons tx tail ih =>
      obtain ⟨next, applied, rest⟩ := run_steps_finished_cons applyStaged store spent tx tail finished
      obtain ⟨funded, moved⟩ := apply_staged_balances store next tx applied bounded
      have total := Ledger.total_transfer (balances store) tx.fromAccount tx.toAccount tx.amount.toNat tx.feeSat.toNat funded
      rw [← moved] at total
      rw [ih next rest (by omega), List.foldl_cons, apply_staged_entry store next tx applied bounded id]

theorem spends_elsewhere (store spent : σ) (staged : List StagedTx)
    (finished : runSteps applyStaged store staged = (spent, .ok ())) (sub : Subtree) (key : List U8)
    (apart : ¬ (sub = .accounts ∧ ∃ id : AccountId, id.id.toList = key)) :
    StateStore.get spent sub key = StateStore.get store sub key := by
  have other : ∀ id : AccountId, ¬ (Subtree.accounts = sub ∧ id.id.toList = key) := fun id both =>
    apart ⟨both.1.symm, id, both.2⟩
  have kept := run_steps_invariant applyStaged (fun state => StateStore.get state sub key = StateStore.get store sub key) staged
    store rfl fun tx _ state next kept applied => by
      obtain ⟨_, _, _, _, debited, debitedEq, nextEq⟩ := apply_staged_ok state next tx applied
      rw [nextEq, debitedEq, Accounts.save, saveRecord, get_put_apart _ _ _ _ _ _ (other tx.toAccount), Accounts.save, saveRecord,
        get_put_apart _ _ _ _ _ _ (other tx.fromAccount), kept]
  rwa [finished] at kept

end

def StagedTx.unplaced (tx : StagedTx) : StagedTx := { tx with idx := 0 }

section
variable {σ : Type} [StateStore σ] [StateCbor] [HashFns] [SigFns]

omit [StateStore σ] [StateCbor] [HashFns] [SigFns] in
theorem call_target_index (i j : Nat) (tx : TxBody) (target : AccountId × U128) (found : callTarget i tx = .ok target) :
    callTarget j tx = .ok target := by
  simp only [callTarget] at found ⊢
  generalize tx.call = call at found ⊢
  cases call with
  | deployContract codeRef initArgs => cases found
  | callContract contract method args => cases found
  | _ => exact found

omit [SigFns] in
theorem resolve_pubkey_index (i j : Nat) (store : σ) (tx : TxBody) (witness : Witness) (bytes : List U8)
    (found : resolvePubkey i store tx witness = .ok bytes) : resolvePubkey j store tx witness = .ok bytes := by
  simp only [resolvePubkey] at found ⊢
  generalize witness.pubkey = ref at found ⊢
  cases ref with
  | inline key =>
      dsimp only at found ⊢
      split at found
      · cases found
      · rename_i derived
        rw [if_neg derived, found]
  | known id =>
      dsimp only at found ⊢
      cases account : Accounts.load store tx.fromAccount with
      | none =>
          rw [account] at found
          cases found
      | some acct =>
          rw [account] at found
          dsimp only at found ⊢
          split at found
          · cases found
          · rename_i keyed
            split at found
            · cases found
            · rename_i algo
              rw [if_neg keyed, if_neg algo, found]

theorem validated_validates (store : σ) (tx : TxBody) (witness : Witness) (staged : StagedTx)
    (validated : Validated store tx witness staged) (j : Nat) :
    validateTx j store tx witness = .ok { staged with idx := j } := by
  have funded := validated.funded
  have bound := (Accounts.loadOrDefault store tx.fromAccount).balance.isLt
  have value : (BitVec.ofNat 128 (staged.amount.toNat + tx.feeSat.toNat)).toNat = staged.amount.toNat + tx.feeSat.toNat := by
    rw [BitVec.toNat_ofNat, Nat.mod_eq_of_lt (by omega)]
  have spend := fun mismatch => (check_spend_ok j (Accounts.loadOrDefault store tx.fromAccount) tx.nonce staged.amount tx.feeSat
    mismatch _).mpr ⟨validated.nonce.trans validated.current, value, by rwa [value]⟩
  rw [validateTx, call_target_index _ j tx _ validated.target]
  dsimp only
  rw [resolve_pubkey_index _ j store tx witness _ validated.key]
  dsimp only
  rw [validated.signed]
  dsimp only
  rw [spend, ← validated.current, ← validated.sender, ← validated.fee, ← validated.algo]

def stage (store : σ) (pair : TxBody × Witness) : Option StagedTx := (validateTx 0 store pair.1 pair.2).toOption

def PairChecked (store : σ) (pair : TxBody × Witness) : Prop :=
  pair.2.hash = pair.1.witnessHash ∧ ∃ staged, stage store pair = some staged

theorem stage_validated (store : σ) (tx : TxBody) (witness : Witness) (staged : StagedTx)
    (validated : Validated store tx witness staged) : stage store (tx, witness) = some staged.unplaced := by
  rw [stage, validated_validates store tx witness staged validated 0]
  rfl

theorem checked_pairs_iff (store : σ) (txs : List TxBody) (witnesses : List Witness) :
    (∀ item ∈ txs.zipIdx, Checked store witnesses item) ↔
      txs.length ≤ witnesses.length ∧ ∀ pair ∈ txs.zip witnesses, PairChecked store pair := by
  constructor
  · intro checked
    refine ⟨?_, ?_⟩
    · by_contra more
      have inside : witnesses.length < txs.length := Nat.not_le.mp more
      obtain ⟨witness, _, present, _⟩ := checked (txs[witnesses.length], witnesses.length)
        (List.mem_zipIdx_iff_getElem?.mpr (List.getElem?_eq_getElem inside))
      rw [List.getElem?_eq_none (Nat.le_refl _)] at present
      cases present
    · rintro ⟨tx, witness⟩ member
      obtain ⟨i, found⟩ := List.mem_iff_getElem?.mp member
      obtain ⟨foundTx, foundWitness⟩ := List.getElem?_zip_eq_some.mp found
      obtain ⟨other, staged, present, hashed, valid⟩ := checked (tx, i) (List.mem_zipIdx_iff_getElem?.mpr foundTx)
      obtain rfl := Option.some.inj (foundWitness.symm.trans present)
      exact ⟨hashed, _, stage_validated store tx witness staged (validate_tx_ok i store tx witness staged valid).2⟩
  · rintro ⟨enough, checked⟩ ⟨tx, i⟩ member
    have foundTx := List.mem_zipIdx_iff_getElem?.mp member
    dsimp only at foundTx
    have inside : i < witnesses.length := Nat.lt_of_lt_of_le (List.getElem?_eq_some_iff.mp foundTx).1 enough
    have foundWitness : witnesses[i]? = some witnesses[i] := List.getElem?_eq_getElem inside
    obtain ⟨hashed, staged, valid⟩ := checked (tx, witnesses[i])
      (List.mem_iff_getElem?.mpr ⟨i, List.getElem?_zip_eq_some.mpr ⟨foundTx, foundWitness⟩⟩)
    cases validated : validateTx 0 store tx witnesses[i] with
    | error e =>
        rw [stage, validated] at valid
        cases valid
    | ok placed =>
        refine ⟨witnesses[i], { placed with idx := i }, foundWitness, hashed, ?_⟩
        exact validated_validates store tx witnesses[i] placed (validate_tx_ok 0 store tx witnesses[i] placed validated).2 i

theorem staged_pairs (store : σ) (witnesses : List Witness) (txs : List TxBody) (start : Nat) (staged : List StagedTx)
    (all : List.Forall₂ (Staged store witnesses) (txs.zipIdx start) staged) :
    staged.map StagedTx.unplaced = (txs.zip (witnesses.drop start)).filterMap (stage store) := by
  induction txs generalizing start staged with
  | nil =>
      cases all
      rfl
  | cons tx tail ih =>
      rw [List.zipIdx_cons] at all
      cases all with
      | @cons _ first _ rest head others =>
          obtain ⟨_, witness, present, _, validated⟩ := head
          obtain ⟨inside, atStart⟩ := List.getElem?_eq_some_iff.mp present
          dsimp only at inside atStart validated
          rw [List.drop_eq_getElem_cons inside, atStart, List.zip_cons_cons,
            List.filterMap_cons_some (stage_validated store tx witness first validated), List.map_cons, ih (start + 1) rest others]

theorem transfers_write_nothing (header : BlockHeader) (store : σ) (txs : List TxBody) (start : Nat)
    (transfers : ∀ tx ∈ txs, ∃ toAccount amount, tx.call = .transfer toAccount amount) :
    runSteps (applyEffect header) store (txs.zipIdx start) = (store, .ok ()) := by
  induction txs generalizing start with
  | nil => rfl
  | cons tx tail ih =>
      obtain ⟨toAccount, amount, call⟩ := transfers tx List.mem_cons_self
      have idle : applyEffect header store (tx, start) = .ok store := by
        rw [applyEffect, call]
      rw [List.zipIdx_cons, run_steps_cons_ok _ store store _ _ idle]
      exact ih (start + 1) fun other member => transfers other (List.mem_cons_of_mem _ member)

def pairs (block : Block) : List (TxBody × Witness) := block.body.txs.zip block.body.witnesses

-- The same (tx, witness) pairs under the same header in another order. There
-- may be witnesses behind the last tx; nothing reads them.
structure Reordered (a b : Block) : Prop where
  header : b.header = a.header
  count : b.body.txs.length = a.body.txs.length
  pairs : (pairs b).Perm (pairs a)

omit [StateCbor] [HashFns] [SigFns] in
theorem reordered_txs (a b : Block) (reordered : Reordered a b) (enough : a.body.txs.length ≤ a.body.witnesses.length) :
    b.body.txs.length ≤ b.body.witnesses.length ∧ b.body.txs.Perm a.body.txs := by
  have sizes := reordered.pairs.length_eq
  have count := reordered.count
  rw [pairs, pairs, List.length_zip, List.length_zip] at sizes
  have room : b.body.txs.length ≤ b.body.witnesses.length := by omega
  have txs := reordered.pairs.map Prod.fst
  rw [pairs, pairs, List.map_fst_zip room, List.map_fst_zip enough] at txs
  exact ⟨room, txs⟩

omit [StateCbor] [HashFns] [SigFns] in
theorem reordered_reflection (a b : Block) (reordered : Reordered a b) (txs : b.body.txs.Perm a.body.txs) (fees minted : U128) :
    blockReflection b fees minted = blockReflection a fees minted := by
  rw [blockReflection, blockReflection, reordered.header, (txs.map TxBody.fromAccount).dedup.length_eq]

theorem reordered_validates (store : σ) (a b : Block) (reordered : Reordered a b) (fees : U128) (staged : List StagedTx)
    (valid : validateAll store a.body.witnesses 0 a.body.txs.zipIdx = .ok (fees, staged)) :
    ∃ other, validateAll store b.body.witnesses 0 b.body.txs.zipIdx = .ok (fees, other) ∧
      (other.map StagedTx.unplaced).Perm (staged.map StagedTx.unplaced) := by
  obtain ⟨all, feesValue⟩ := validate_block_ok store a fees staged valid
  obtain ⟨checked, _⟩ := (validate_all_iff ..).mp ⟨_, valid⟩
  obtain ⟨enough, checkedPairs⟩ := (checked_pairs_iff ..).mp checked
  obtain ⟨room, txs⟩ := reordered_txs a b reordered enough
  have sum : (b.body.txs.map fun tx => tx.feeSat.toNat).sum = (a.body.txs.map fun tx => tx.feeSat.toNat).sum :=
    (txs.map _).sum_eq
  have bound := fees.isLt
  obtain ⟨⟨otherFees, other⟩, otherValid⟩ := (validate_all_iff store b.body.witnesses 0 b.body.txs.zipIdx).mpr
    ⟨(checked_pairs_iff ..).mpr ⟨room, fun pair member => checkedPairs pair (reordered.pairs.mem_iff.mp member)⟩, by
      rw [indexed_fees, sum, show (0 : U128).toNat = 0 from rfl]
      omega⟩
  obtain ⟨otherAll, otherValue⟩ := validate_block_ok store b otherFees other otherValid
  have same : otherFees = fees := BitVec.eq_of_toNat_eq (by rw [otherValue, feesValue, sum])
  rw [same] at otherValid
  refine ⟨other, otherValid, ?_⟩
  rw [staged_pairs store _ _ 0 staged all, staged_pairs store _ _ 0 other otherAll, List.drop_zero, List.drop_zero]
  exact reordered.pairs.filterMap _

omit [HashFns] [SigFns] in
theorem reordered_spends (store spent other : σ) (staged stagedOther : List StagedTx)
    (perm : (stagedOther.map StagedTx.unplaced).Perm (staged.map StagedTx.unplaced))
    (distinct : (staged.map StagedTx.fromAccount).Nodup) (bounded : Ledger.total (balances store) < 2 ^ 128)
    (spend : runSteps applyStaged store staged = (spent, .ok ()))
    (spendOther : runSteps applyStaged store stagedOther = (other, .ok ())) : SameContents spent other := by
  intro sub key
  by_cases record : sub = .accounts ∧ ∃ id : AccountId, id.id.toList = key
  · obtain ⟨rfl, id, rfl⟩ := record
    have unplaced : ∀ (txs : List StagedTx) (held : Option (List U8)),
        (txs.map StagedTx.unplaced).foldl (entryStep id) held = txs.foldl (entryStep id) held := by
      intro txs held
      rw [List.foldl_map]
      rfl
    have senders : ((staged.map StagedTx.unplaced).map StagedTx.fromAccount).Nodup := by
      rw [List.map_map]
      exact distinct
    rw [spends_entry store spent staged spend bounded id, spends_entry store other stagedOther spendOther bounded id,
      ← unplaced staged, ← unplaced stagedOther, spend_fold_perm id _ _ _ perm.symm senders]
  · rw [spends_elsewhere store spent staged spend sub key record,
      spends_elsewhere store other stagedOther spendOther sub key record]

omit [StateCbor] [HashFns] [SigFns] in
theorem distinct_of_pairwise (txs : List TxBody) (saturated : AccountId → Prop)
    (repeats : txs.Pairwise fun a b => a.fromAccount = b.fromAccount → saturated a.fromAccount)
    (below : ∀ tx ∈ txs, ¬ saturated tx.fromAccount) : (txs.map TxBody.fromAccount).Nodup := by
  rw [List.Nodup, List.pairwise_map]
  refine repeats.imp_of_mem ?_
  intro a b member _ topped same
  exact below a member (topped same)

theorem transfer_order_irrelevant (store final : σ) (a : Block) (reward : U128) (out : ApplyOutput)
    (bounded : Ledger.total (balances store) + reward.toNat < 2 ^ 128)
    (below : ∀ tx ∈ a.body.txs, (Accounts.loadOrDefault store tx.fromAccount).nonce ≠ BitVec.allOnes 64)
    (transfers : ∀ tx ∈ a.body.txs, ∃ toAccount amount, tx.call = .transfer toAccount amount)
    (accepted : applyBlock store a reward = (final, .ok out)) :
    (a.body.txs.map TxBody.fromAccount).Nodup ∧
      ∀ b, Reordered a b → ∃ other, applyBlock store b reward = (other, .ok out) ∧ SameContents final other := by
  have ok : (applyBlock store a reward).2.isOk = true := by
    rw [accepted]
    rfl
  have distinct := distinct_of_pairwise a.body.txs (fun id => (Accounts.loadOrDefault store id).nonce = BitVec.allOnes 64)
    (accepted_repeat_saturated store a reward ok) below
  refine ⟨distinct, fun b reordered => ?_⟩
  have outcome := apply_block_outcome store a reward
  rw [accepted] at outcome
  cases outcome with
  | accepted fees minted staged spent affected paid valid spend effects coinbase =>
      obtain ⟨checked, _⟩ := (validate_all_iff ..).mp ⟨_, valid⟩
      obtain ⟨_, txs⟩ := reordered_txs a b reordered ((checked_pairs_iff ..).mp checked).1
      obtain ⟨all, _⟩ := validate_block_ok store a fees staged valid
      have senders := block_senders store a staged all
      obtain ⟨other, otherValid, perm⟩ := reordered_validates store a b reordered fees staged valid
      obtain ⟨otherAll, _⟩ := validate_block_ok store b fees other otherValid
      have otherSenders := block_senders store b other otherAll
      obtain ⟨otherSpent, otherSpend⟩ := distinct_senders_spend store other
        (by rw [otherSenders]; exact (txs.map _).nodup_iff.mpr distinct) (staged_ready store _ _ other otherAll)
      have same := reordered_spends store spent otherSpent staged other perm (by rw [senders]; exact distinct) (by omega) spend
        otherSpend
      rw [transfers_write_nothing a.header spent a.body.txs 0 transfers] at effects
      cases effects
      have otherEffects := transfers_write_nothing b.header otherSpent b.body.txs 0
        fun tx member => transfers tx (txs.mem_iff.mp member)
      obtain ⟨otherPaid, otherCoinbase, samePaid⟩ :=
        pay_coinbase_same a.header spent otherSpent paid reward fees minted same coinbase
      rw [← reordered.header] at otherCoinbase
      have finished := epilogue_same a.header paid otherPaid (blockReflection a fees minted) samePaid
      refine ⟨_, ?_, finished⟩
      rw [effects_through store otherSpent b reward fees other otherValid otherSpend otherSpent otherPaid minted otherEffects
        otherCoinbase, reordered_reflection a b reordered txs, reordered.header, reordered.count,
        StateStore.root_ext _ _ fun sub key => (finished sub key).symm]

end

end PyGrove.State

namespace PyGrove.Sample.Chained

open Words PyGrove.Core Crypto State

def payerKey : List U8 := List.replicate 32 7
def payer : AccountId := .fromPubkey payerKey
def relayKey : List U8 := List.replicate 32 8
def relay : AccountId := .fromPubkey relayKey

def funded : MemState :=
  Accounts.save (Accounts.save MemState.new payer ⟨100, 0, [], 0⟩) relay ⟨50, 0, [], 0⟩

def pays : TxBody × Witness := signedTx 0 (.transfer relay 60) 1 3 payerKey (.inline payerKey)

def passesOn : TxBody × Witness :=
  signedTx 0 (.transfer (.fromPubkey (List.replicate 32 9)) 40) 2 3 relayKey (.inline relayKey)

def mined : Block := block (header 1 (.replicate 32 0) 1000 0) [pays, passesOn]

def swapped : Block := { mined with body := { txs := [passesOn.1, pays.1], witnesses := [passesOn.2, pays.2] } }

theorem swapped_reordered : Reordered mined swapped := ⟨rfl, rfl, List.Perm.swap _ _ _⟩

theorem funded_total : Ledger.total (balances funded) ≤ 150 := by
  have first := total_save_le MemState.new payer ⟨100, 0, [], 0⟩
  have second := total_save_le (Accounts.save MemState.new payer ⟨100, 0, [], 0⟩) relay ⟨50, 0, [], 0⟩
  rw [empty_store_total] at first
  exact Nat.le_trans second (Nat.add_le_add_right first 50)

end PyGrove.Sample.Chained

namespace PyGrove.State

open Words PyGrove.Core Sample Sample.Chained

theorem chained_transfers_commute :
    ∃ final out other, applyBlock funded mined 2500000000 = (final, .ok out) ∧
      applyBlock funded swapped 2500000000 = (other, .ok out) ∧ SameContents final other := by
  have accepted : (applyBlock funded mined 2500000000).2.isOk = true := by decide +kernel
  cases outcome : applyBlock funded mined 2500000000 with
  | mk final result =>
      cases result with
      | error e =>
          rw [outcome] at accepted
          cases accepted
      | ok out =>
          have reward : (2500000000 : U128).toNat = 2500000000 := by decide
          have commutes := transfer_order_irrelevant funded final mined 2500000000 out
            (by have total := funded_total; omega) (by decide +kernel)
            (List.forall_mem_cons.mpr ⟨⟨_, _, rfl⟩, List.forall_mem_singleton.mpr ⟨_, _, rfl⟩⟩) outcome
          obtain ⟨other, applied, same⟩ := commutes.2 swapped swapped_reordered
          exact ⟨final, out, other, rfl, applied, same⟩

end PyGrove.State
