import PyGrove.State.Conservation

set_option autoImplicit false

namespace PyGrove.State

open Words Steps PyGrove.Core Crypto

section
variable {σ : Type} [StateStore σ] [StateCbor] [HashFns] [SigFns]

-- A rejected block keeps the spends it got through: their fees leave the
-- senders and reach no miner. An accepted block pays all of them out.
def burntFees (store : σ) (block : Block) (reward : U128) : ℕ :=
  match validateAll store block.body.witnesses 0 block.body.txs.zipIdx, (applyBlock store block reward).2 with
  | .ok (_, staged), .error _ => ((taken applyStaged store staged).map fun tx => tx.feeSat.toNat).sum
  | _, _ => 0

omit [HashFns] [SigFns] in
theorem taken_total (store spent : σ) (staged : List StagedTx) (result : Except ApplyError Unit)
    (ran : runSteps applyStaged store staged = (spent, result)) (bounded : Ledger.total (balances store) < 2 ^ 128) :
    Ledger.total (balances spent) + ((taken applyStaged store staged).map fun tx => tx.feeSat.toNat).sum =
      Ledger.total (balances store) := by
  have through := run_steps_taken applyStaged store staged
  rw [ran] at through
  exact spend_total store spent _ through bounded

theorem affected_balances (header : BlockHeader) (spent affected : σ) (items : List (TxBody × Nat))
    (result : Except ApplyError Unit) (ran : runSteps (applyEffect header) spent items = (affected, result)) :
    balances affected = balances spent := by
  have kept := effects_balances header spent items
  rwa [ran] at kept

theorem rejected_total (store final : σ) (block : Block) (reward : U128) (e : ApplyError)
    (bounded : Ledger.total (balances store) + reward.toNat < 2 ^ 128)
    (rejected : applyBlock store block reward = (final, .error e)) :
    Ledger.total (balances final) + burntFees store block reward = Ledger.total (balances store) := by
  have outcome := apply_block_outcome store block reward
  rw [burntFees, rejected]
  rw [rejected] at outcome
  cases outcome with
  | rejected e invalid => rw [invalid, Nat.add_zero]
  | spendFailed fees staged spent e valid spend =>
      rw [valid]
      exact taken_total store final staged _ spend (by omega)
  | effectFailed fees staged spent affected e valid spend effects =>
      rw [valid, affected_balances block.header spent final _ _ effects]
      exact taken_total store spent staged _ spend (by omega)
  | coinbaseFailed fees staged spent affected e valid spend effects coinbase =>
      rw [valid, affected_balances block.header spent final _ _ effects]
      exact taken_total store spent staged _ spend (by omega)

theorem accepted_fees_funded (store final : σ) (block : Block) (reward : U128) (out : ApplyOutput)
    (bounded : Ledger.total (balances store) < 2 ^ 128) (accepted : applyBlock store block reward = (final, .ok out)) :
    (block.body.txs.map fun tx => tx.feeSat.toNat).sum ≤ Ledger.total (balances store) := by
  have outcome := apply_block_outcome store block reward
  rw [accepted] at outcome
  cases outcome with
  | accepted fees minted staged spent affected paid valid spend effects coinbase =>
      obtain ⟨stagedAll, _⟩ := validate_block_ok store block fees staged valid
      have spentTotal := spend_total store spent staged spend bounded
      rw [staged_fees _ _ _ _ stagedAll, indexed_fees] at spentTotal
      exact Nat.le.intro ((Nat.add_comm _ _).trans spentTotal)

theorem accepted_total (store final : σ) (block : Block) (reward : U128) (out : ApplyOutput)
    (bounded : Ledger.total (balances store) + reward.toNat < 2 ^ 128)
    (accepted : applyBlock store block reward = (final, .ok out)) :
    Ledger.total (balances final) = Ledger.total (balances store) + reward.toNat ∧ burntFees store block reward = 0 := by
  have outcome := apply_block_outcome store block reward
  rw [accepted] at outcome
  cases outcome with
  | accepted fees minted staged spent affected paid valid spend effects coinbase =>
      obtain ⟨stagedAll, feesValue⟩ := validate_block_ok store block fees staged valid
      have spentTotal := spend_total store spent staged spend (by omega)
      rw [staged_fees _ _ _ _ stagedAll, indexed_fees, ← feesValue] at spentTotal
      have paidTotal := coinbase_total block.header affected paid reward fees minted coinbase
      rw [affected_balances block.header spent affected _ _ effects] at paidTotal
      refine ⟨?_, by rw [burntFees, accepted, valid]⟩
      rw [epilogue_balances, paidTotal]
      omega

end

end PyGrove.State
