import PyGrove.State.Cbor
import PyGrove.State.Ownership

set_option autoImplicit false

namespace PyGrove.State

open Words Steps PyGrove.Core Crypto

section
variable {σ : Type} [StateStore σ] [StateCbor]

theorem apply_staged_nonce (store next : σ) (tx : StagedTx) (applied : applyStaged store tx = .ok next)
    (id : AccountId) :
    (Accounts.loadOrDefault next id).nonce =
      if tx.fromAccount = id then saturatingAdd (Accounts.loadOrDefault store id).nonce 1
      else (Accounts.loadOrDefault store id).nonce := by
  obtain ⟨required, _, middle, middleEq, nextEq⟩ := apply_staged_account store next tx applied
  have kept : (Accounts.loadOrDefault next id).nonce = (middle id).nonce := by
    rw [nextEq]
    split <;> rfl
  rw [kept, middleEq]
  split <;> rfl

theorem spends_nonce_le (store : σ) (staged : List StagedTx) (id : AccountId) :
    (Accounts.loadOrDefault store id).nonce.toNat ≤
      (Accounts.loadOrDefault (runSteps applyStaged store staged).1 id).nonce.toNat := by
  apply run_steps_relation applyStaged (fun a b =>
    (Accounts.loadOrDefault a id).nonce.toNat ≤ (Accounts.loadOrDefault b id).nonce.toNat)
  · exact fun _ => Nat.le_refl _
  · exact fun _ _ _ => Nat.le_trans
  · intro tx _ state next applied
    rw [apply_staged_nonce state next tx applied id]
    have bound := (Accounts.loadOrDefault state id).nonce.isLt
    split
    · rw [to_nat_saturating_succ]
      omega
    · exact Nat.le_refl _

structure Ready (store : σ) (tx : StagedTx) : Prop where
  current : tx.expectedNonce = (Accounts.loadOrDefault store tx.fromAccount).nonce
  funded : tx.amount.toNat + tx.feeSat.toNat ≤ (Accounts.loadOrDefault store tx.fromAccount).balance.toNat

theorem ready_applies (store : σ) (tx : StagedTx) (ready : Ready store tx) : ∃ next, applyStaged store tx = .ok next := by
  have funded := ready.funded
  have bound := (Accounts.loadOrDefault store tx.fromAccount).balance.isLt
  have value : (BitVec.ofNat 128 (tx.amount.toNat + tx.feeSat.toNat)).toNat = tx.amount.toNat + tx.feeSat.toNat := by
    rw [BitVec.toNat_ofNat, Nat.mod_eq_of_lt (by omega)]
  have checked := fun mismatch => (check_spend_ok tx.idx _ tx.expectedNonce tx.amount tx.feeSat mismatch _).mpr
    ⟨ready.current, value, by rwa [value]⟩
  unfold applyStaged
  dsimp only
  rw [checked]
  exact ⟨_, rfl⟩

end

section
variable {σ : Type} [StateStore σ] [StateCbor] [HashFns] [SigFns]

def Atomic (store : σ) (block : Block) (reward : U128) : Prop :=
  ∀ e, (applyBlock store block reward).2 = .error e →
    ∀ sub key, StateStore.get (applyBlock store block reward).1 sub key = StateStore.get store sub key

inductive LateFailure (store : σ) (block : Block) (reward : U128) : Prop where
  | spend (fees : U128) (staged : List StagedTx) (spent : σ) (e : ApplyError)
      (valid : validateAll store block.body.witnesses 0 block.body.txs.zipIdx = .ok (fees, staged))
      (failed : runSteps applyStaged store staged = (spent, .error e))
  | effect (fees : U128) (staged : List StagedTx) (spent affected : σ) (e : ApplyError)
      (valid : validateAll store block.body.witnesses 0 block.body.txs.zipIdx = .ok (fees, staged))
      (spend : runSteps applyStaged store staged = (spent, .ok ()))
      (failed : runSteps (applyEffect block.header) spent block.body.txs.zipIdx = (affected, .error e))
  | coinbase (fees : U128) (staged : List StagedTx) (spent affected : σ) (e : ApplyError)
      (valid : validateAll store block.body.witnesses 0 block.body.txs.zipIdx = .ok (fees, staged))
      (spend : runSteps applyStaged store staged = (spent, .ok ()))
      (effects : runSteps (applyEffect block.header) spent block.body.txs.zipIdx = (affected, .ok ()))
      (failed : payCoinbase block.header affected reward fees = .error e)

theorem late_failure_error (store : σ) (block : Block) (reward : U128) (late : LateFailure store block reward) :
    ∃ e, (applyBlock store block reward).2 = .error e := by
  cases late with
  | spend fees staged spent e valid failed =>
      rw [stopped_at_spends store spent block reward fees staged valid e failed]
      exact ⟨e, rfl⟩
  | effect fees staged spent affected e valid spend failed =>
      rw [stopped_at_effects store spent block reward fees staged valid spend affected e failed]
      exact ⟨e, rfl⟩
  | coinbase fees staged spent affected e valid spend effects failed =>
      rw [stopped_at_coinbase store spent block reward fees staged valid spend affected effects e failed]
      exact ⟨e, rfl⟩

theorem empty_block_staged (store : σ) (block : Block) (fees : U128) (staged : List StagedTx)
    (empty : block.body.txs = [])
    (valid : validateAll store block.body.witnesses 0 block.body.txs.zipIdx = .ok (fees, staged)) : staged = [] := by
  rw [empty] at valid
  cases valid
  rfl

theorem atomic_without_late_failure (store : σ) (block : Block) (reward : U128)
    (early : ¬ (block.body.txs ≠ [] ∧ LateFailure store block reward)) : Atomic store block reward := by
  have noTxs : LateFailure store block reward → block.body.txs = [] := fun late =>
    not_not.mp fun present => early ⟨present, late⟩
  intro e failed
  have outcome := apply_block_outcome store block reward
  generalize applyBlock store block reward = result at outcome failed
  cases outcome with
  | rejected e invalid => exact fun _ _ => rfl
  | spendFailed fees staged spent e valid spend =>
      have empty := noTxs (.spend fees staged spent e valid spend)
      rw [empty_block_staged store block fees staged empty valid] at spend
      cases spend
  | effectFailed fees staged spent affected e valid spend effects =>
      have empty := noTxs (.effect fees staged spent affected e valid spend effects)
      rw [empty] at effects
      cases effects
  | coinbaseFailed fees staged spent affected e valid spend effects coinbase =>
      have empty := noTxs (.coinbase fees staged spent affected e valid spend effects coinbase)
      rw [empty_block_staged store block fees staged empty valid] at spend
      rw [empty] at effects
      cases spend
      cases effects
      exact fun _ _ => rfl
  | accepted fees minted staged spent affected paid valid spend effects coinbase => cases failed

-- Pass 2 repeats the checks of pass 1 on the live store; on the store that
-- pass 1 read it makes them again with the same result.
theorem validated_ready (store : σ) (tx : TxBody) (witness : Witness) (staged : StagedTx)
    (validated : Validated store tx witness staged) : Ready store staged where
  current := by rw [validated.sender, validated.current]
  funded := by
    rw [validated.sender, validated.fee]
    exact validated.funded

theorem first_nonce_used (store : σ) (block : Block) (first : TxBody) (rest : List TxBody) (fees : U128)
    (staged : List StagedTx) (txs : block.body.txs = first :: rest)
    (valid : validateAll store block.body.witnesses 0 block.body.txs.zipIdx = .ok (fees, staged))
    (unsaturated : (Accounts.loadOrDefault store first.fromAccount).nonce ≠ BitVec.allOnes 64) :
    (Accounts.loadOrDefault store first.fromAccount).nonce.toNat <
      (Accounts.loadOrDefault (runSteps applyStaged store staged).1 first.fromAccount).nonce.toNat := by
  obtain ⟨all, _⟩ := validate_block_ok store block fees staged valid
  rw [txs, List.zipIdx_cons] at all
  cases all with
  | @cons _ stagedFirst _ stagedRest stagedOk restOk =>
      obtain ⟨_, witness, _, _, validated⟩ := stagedOk
      obtain ⟨next, applied⟩ := ready_applies store stagedFirst (validated_ready store first witness stagedFirst validated)
      rw [run_steps_cons_ok applyStaged store next stagedFirst stagedRest applied]
      have used := apply_staged_nonce store next stagedFirst applied first.fromAccount
      rw [if_pos validated.sender] at used
      have kept := spends_nonce_le next stagedRest first.fromAccount
      rw [used, to_nat_saturating_succ] at kept
      have below := to_nat_lt_top (Accounts.loadOrDefault store first.fromAccount).nonce unsaturated
      omega

theorem late_failure_writes (store : σ) (block : Block) (reward : U128) (first : TxBody) (rest : List TxBody)
    (txs : block.body.txs = first :: rest) (late : LateFailure store block reward)
    (unsaturated : (Accounts.loadOrDefault store first.fromAccount).nonce ≠ BitVec.allOnes 64) :
    ∃ e, (applyBlock store block reward).2 = .error e ∧
      (Accounts.loadOrDefault (applyBlock store block reward).1 first.fromAccount).nonce ≠
        (Accounts.loadOrDefault store first.fromAccount).nonce := by
  have moved : ∀ fees staged, validateAll store block.body.witnesses 0 block.body.txs.zipIdx = .ok (fees, staged) →
      (Accounts.loadOrDefault (runSteps applyStaged store staged).1 first.fromAccount).nonce ≠
        (Accounts.loadOrDefault store first.fromAccount).nonce := by
    intro fees staged valid same
    have used := first_nonce_used store block first rest fees staged txs valid unsaturated
    rw [same] at used
    exact Nat.lt_irrefl _ used
  cases late with
  | spend fees staged spent e valid failed =>
      have changed := moved fees staged valid
      rw [failed] at changed
      rw [stopped_at_spends store spent block reward fees staged valid e failed]
      exact ⟨e, rfl, changed⟩
  | effect fees staged spent affected e valid spend failed =>
      have changed := moved fees staged valid
      have kept := effects_run_load block.header spent affected _ _ failed first.fromAccount
      rw [spend] at changed
      rw [stopped_at_effects store spent block reward fees staged valid spend affected e failed]
      exact ⟨e, rfl, by rwa [kept]⟩
  | coinbase fees staged spent affected e valid spend effects failed =>
      have changed := moved fees staged valid
      have kept := effects_run_load block.header spent affected _ _ effects first.fromAccount
      rw [spend] at changed
      rw [stopped_at_coinbase store spent block reward fees staged valid spend affected effects e failed]
      exact ⟨e, rfl, by rwa [kept]⟩

end

end PyGrove.State
