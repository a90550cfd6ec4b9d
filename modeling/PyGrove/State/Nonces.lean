import Mathlib.Data.List.Range
import PyGrove.State.Atomicity

set_option autoImplicit false

namespace PyGrove.State

open Words Steps PyGrove.Core Crypto

def acceptedTxs (run : List (Block × U128)) : List TxBody := run.flatMap fun call => call.1.body.txs

def sentBy (id : AccountId) (txs : List TxBody) : List TxBody := txs.filter fun tx => tx.fromAccount = id

def Consecutive (before after : Nat) (nonces : List Nat) : Prop :=
  after = before + nonces.length ∧ nonces = List.range' before nonces.length

theorem consecutive_append (before middle after : Nat) (a b : List Nat) (first : Consecutive before middle a)
    (second : Consecutive middle after b) : Consecutive before after (a ++ b) := by
  obtain ⟨firstEnd, firstRange⟩ := first
  obtain ⟨secondEnd, secondRange⟩ := second
  refine ⟨by rw [secondEnd, firstEnd, List.length_append, Nat.add_assoc], ?_⟩
  rw [List.length_append, ← List.range'_append_1, ← firstEnd, ← firstRange, ← secondRange]

section
variable {σ : Type} [StateStore σ] [StateCbor]

theorem spends_nonces (store spent : σ) (staged : List StagedTx) (id : AccountId)
    (finished : runSteps applyStaged store staged = (spent, .ok ()))
    (unsaturated : (Accounts.loadOrDefault spent id).nonce ≠ BitVec.allOnes 64) :
    Consecutive (Accounts.loadOrDefault store id).nonce.toNat (Accounts.loadOrDefault spent id).nonce.toNat
      ((staged.filter fun tx => tx.fromAccount = id).map fun tx => tx.expectedNonce.toNat) := by
  induction staged generalizing store with
  | nil =>
      cases finished
      exact ⟨rfl, rfl⟩
  | cons tx tail ih =>
      obtain ⟨next, applied, rest⟩ := run_steps_finished_cons applyStaged store spent tx tail finished
      have moved := apply_staged_nonce store next tx applied id
      have tailNonces := ih next rest
      by_cases own : tx.fromAccount = id
      · obtain ⟨_, current, _⟩ := apply_staged_ok store next tx applied
        have kept := spends_nonce_le next tail id
        have below := to_nat_lt_top (Accounts.loadOrDefault spent id).nonce unsaturated
        rw [rest] at kept
        rw [if_pos own] at moved
        rw [moved, to_nat_saturating_succ] at kept tailNonces
        dsimp only at kept
        rw [own] at current
        rw [List.filter_cons_of_pos (by simpa using own), List.map_cons, ← List.singleton_append]
        refine consecutive_append _ _ _ _ _ ⟨?_, ?_⟩ tailNonces
        · rw [List.length_singleton]
          omega
        · rw [current]
          rfl
      · rw [if_neg own] at moved
        rw [List.filter_cons_of_neg (by simpa using own), ← moved]
        exact tailNonces

theorem spends_nonce_count_le (store : σ) (staged : List StagedTx) (id : AccountId) :
    (Accounts.loadOrDefault (runSteps applyStaged store staged).1 id).nonce.toNat ≤
      (Accounts.loadOrDefault store id).nonce.toNat + staged.length := by
  induction staged generalizing store with
  | nil => exact Nat.le_refl _
  | cons tx tail ih =>
      cases taken : applyStaged store tx with
      | error e =>
          rw [run_steps_cons_error applyStaged store tx tail e taken]
          exact Nat.le_add_right ..
      | ok next =>
          have moved := apply_staged_nonce store next tx taken id
          have rest := ih next
          rw [run_steps_cons_ok applyStaged store next tx tail taken, List.length_cons]
          split at moved
          · rw [moved, to_nat_saturating_succ] at rest
            omega
          · rw [moved] at rest
            omega

end

section
variable {σ : Type} [StateStore σ] [StateCbor] [HashFns] [SigFns]

theorem staged_nonces (store : σ) (witnesses : List Witness) (id : AccountId) (items : List (TxBody × Nat))
    (staged : List StagedTx) (all : List.Forall₂ (Staged store witnesses) items staged) :
    (sentBy id (items.map Prod.fst)).map (fun tx => tx.nonce.toNat) =
      (staged.filter fun tx => tx.fromAccount = id).map fun tx => tx.expectedNonce.toNat := by
  induction all with
  | nil => rfl
  | @cons item stagedTx _ _ first _ ih =>
      obtain ⟨_, _, _, _, validated⟩ := first
      rw [sentBy] at ih ⊢
      rw [List.map_cons]
      by_cases own : item.1.fromAccount = id
      · rw [List.filter_cons_of_pos (by simpa using own),
          List.filter_cons_of_pos (by simpa [validated.sender] using own), List.map_cons, List.map_cons, ih,
          validated.nonce]
      · rw [List.filter_cons_of_neg (by simpa using own), List.filter_cons_of_neg (by simpa [validated.sender] using own), ih]

theorem accepted_block_spends (store : σ) (block : Block) (reward : U128)
    (accepted : (applyBlock store block reward).2.isOk = true) :
    ∃ fees staged spent, validateAll store block.body.witnesses 0 block.body.txs.zipIdx = .ok (fees, staged) ∧
      runSteps applyStaged store staged = (spent, .ok ()) ∧
      ∀ id, (Accounts.loadOrDefault (applyBlock store block reward).1 id).nonce = (Accounts.loadOrDefault spent id).nonce := by
  have outcome := apply_block_outcome store block reward
  generalize applyBlock store block reward = result at outcome accepted ⊢
  cases outcome with
  | accepted fees minted staged spent affected paid valid spend effects coinbase =>
      obtain ⟨_, balance, _, paidEq⟩ := pay_coinbase_ok block.header affected paid reward fees minted coinbase
      have kept := effects_run_load block.header spent affected _ _ effects
      refine ⟨fees, staged, spent, valid, spend, fun id => ?_⟩
      rw [epilogue_load, paidEq, Accounts.load_or_default_save]
      by_cases miner : AccountId.fromCoinbase block.header.coinbase = id
      · rw [if_pos miner, miner, kept]
      · rw [if_neg miner, kept]
  | _ => cases accepted

theorem accepted_block_nonces (store : σ) (block : Block) (reward : U128) (id : AccountId)
    (accepted : (applyBlock store block reward).2.isOk = true)
    (unsaturated : (Accounts.loadOrDefault (applyBlock store block reward).1 id).nonce ≠ BitVec.allOnes 64) :
    Consecutive (Accounts.loadOrDefault store id).nonce.toNat
      (Accounts.loadOrDefault (applyBlock store block reward).1 id).nonce.toNat
      ((sentBy id block.body.txs).map fun tx => tx.nonce.toNat) := by
  obtain ⟨fees, staged, spent, valid, spend, final⟩ := accepted_block_spends store block reward accepted
  obtain ⟨all, _⟩ := validate_block_ok store block fees staged valid
  have names : block.body.txs.zipIdx.map Prod.fst = block.body.txs := List.zipIdx_map_fst ..
  rw [final] at unsaturated ⊢
  have nonces := spends_nonces store spent staged id spend unsaturated
  rwa [← staged_nonces store block.body.witnesses id _ staged all, names] at nonces

theorem accepted_block_nonce_le (store : σ) (block : Block) (reward : U128) (id : AccountId)
    (accepted : (applyBlock store block reward).2.isOk = true) :
    (Accounts.loadOrDefault (applyBlock store block reward).1 id).nonce.toNat ≤
      (Accounts.loadOrDefault store id).nonce.toNat + block.body.txs.length := by
  obtain ⟨fees, staged, spent, valid, spend, final⟩ := accepted_block_spends store block reward accepted
  obtain ⟨all, _⟩ := validate_block_ok store block fees staged valid
  have count := spends_nonce_count_le store staged id
  rwa [spend, ← all.length_eq, List.length_zipIdx, ← final] at count

end

section
variable [StateCbor] [HashFns] [SigFns]

def NoncesBounded (start : MemState) (run : List (Block × U128)) : Prop :=
  Along applyCall (fun state call => ∀ id, (Accounts.loadOrDefault (applyCall state call).1 id).nonce ≠ BitVec.allOnes 64)
    start run

theorem run_nonces (start : MemState) (run : List (Block × U128)) (accepted : AllAccepted start run)
    (bounded : NoncesBounded start run) (id : AccountId) :
    Consecutive (Accounts.loadOrDefault start id).nonce.toNat
      (Accounts.loadOrDefault (runCalls applyCall start run) id).nonce.toNat
      ((sentBy id (acceptedTxs run)).map fun tx => tx.nonce.toNat) := by
  induction run generalizing start with
  | nil => exact ⟨rfl, rfl⟩
  | cons call tail ih =>
      obtain ⟨here, later⟩ := accepted
      obtain ⟨below, laterBelow⟩ := bounded
      have first := accepted_block_nonces start call.1 call.2 id here (below id)
      have rest := ih (applyCall start call).1 later laterBelow
      rw [acceptedTxs, List.flatMap_cons, sentBy, List.filter_append, List.map_append]
      exact consecutive_append _ _ _ _ _ first rest

theorem few_txs_bounded (start : MemState) (run : List (Block × U128)) (accepted : AllAccepted start run) (used : Nat)
    (low : ∀ id, (Accounts.loadOrDefault start id).nonce.toNat ≤ used)
    (few : used + (acceptedTxs run).length < 2 ^ 64 - 1) : NoncesBounded start run := by
  induction run generalizing start used with
  | nil => trivial
  | cons call tail ih =>
      obtain ⟨here, later⟩ := accepted
      rw [acceptedTxs, List.flatMap_cons, List.length_append, ← acceptedTxs] at few
      have reached : ∀ id, (Accounts.loadOrDefault (applyCall start call).1 id).nonce.toNat ≤
          used + call.1.body.txs.length := fun id =>
        (accepted_block_nonce_le start call.1 call.2 id here).trans (Nat.add_le_add_right (low id) _)
      refine ⟨fun id top => ?_, ih _ later _ reached (by omega)⟩
      have bound := reached id
      rw [top, BitVec.toNat_allOnes] at bound
      omega

omit [StateCbor] [HashFns] [SigFns] in
theorem sender_nonces_nodup (txs : List TxBody)
    (rising : ∀ id, ((sentBy id txs).map fun tx => tx.nonce.toNat).Nodup) :
    (txs.map fun tx => (tx.fromAccount, tx.nonce)).Nodup := by
  rw [List.nodup_iff_sublist]
  intro pair twice
  obtain ⟨picked, sublist, same⟩ := List.sublist_map_iff.mp twice
  obtain ⟨a, b, rfl⟩ := List.length_eq_two.mp (by simpa using (congrArg List.length same).symm)
  simp only [List.map_cons, List.map_nil, List.cons.injEq, and_true] at same
  obtain ⟨first, second⟩ := same
  have own : sentBy pair.1 [a, b] = [a, b] := by
    simp [sentBy, show a.fromAccount = pair.1 by rw [first], show b.fromAccount = pair.1 by rw [second]]
  have repeated := (sublist.filter fun tx => tx.fromAccount = pair.1).map fun tx => tx.nonce.toNat
  rw [← sentBy, ← sentBy, own, List.map_cons, List.map_cons, List.map_nil,
    show b.nonce = a.nonce from congrArg Prod.snd (second.symm.trans first)] at repeated
  exact List.nodup_iff_sublist.mp (rising pair.1) _ repeated

theorem run_nonces_unique (run : List (Block × U128)) (accepted : AllAccepted MemState.new run)
    (bounded : NoncesBounded MemState.new run) :
    (∀ id, (Accounts.loadOrDefault (runCalls applyCall MemState.new run) id).nonce.toNat =
          (sentBy id (acceptedTxs run)).length ∧
        (sentBy id (acceptedTxs run)).map (fun tx => tx.nonce.toNat) =
          List.range (sentBy id (acceptedTxs run)).length) ∧
      ((acceptedTxs run).map fun tx => (tx.fromAccount, tx.nonce)).Nodup := by
  have counted : ∀ id, Consecutive 0 (Accounts.loadOrDefault (runCalls applyCall MemState.new run) id).nonce.toNat
      ((sentBy id (acceptedTxs run)).map fun tx => tx.nonce.toNat) := by
    intro id
    have nonces := run_nonces MemState.new run accepted bounded id
    rwa [load_new] at nonces
  refine ⟨fun id => ?_, ?_⟩
  · obtain ⟨total, range⟩ := counted id
    rw [List.length_map] at total range
    exact ⟨by rw [total, Nat.zero_add], by rw [range, List.range_eq_range']⟩
  · apply sender_nonces_nodup
    intro id
    rw [(counted id).2]
    exact List.nodup_range'

end

open Sample in
theorem two_txs_nonces_unique :
    (∀ id, (Accounts.loadOrDefault (runCalls applyCall MemState.new (keyRun 3 3)) id).nonce.toNat =
          (sentBy id (acceptedTxs (keyRun 3 3))).length ∧
        (sentBy id (acceptedTxs (keyRun 3 3))).map (fun tx => tx.nonce.toNat) =
          List.range (sentBy id (acceptedTxs (keyRun 3 3))).length) ∧
      ((acceptedTxs (keyRun 3 3)).map fun tx => (tx.fromAccount, tx.nonce)).Nodup := by
  have accepted : AllAccepted MemState.new (keyRun 3 3) := by
    simp only [AllAccepted]
    decide +kernel
  have fresh : ∀ id, (Accounts.loadOrDefault MemState.new id).nonce.toNat ≤ 0 := fun id => by
    rw [load_new]
    exact Nat.le_refl 0
  exact run_nonces_unique (keyRun 3 3) accepted (few_txs_bounded _ _ accepted 0 fresh (by decide))

end PyGrove.State
