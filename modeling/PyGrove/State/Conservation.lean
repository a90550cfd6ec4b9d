import Mathlib.Data.Fintype.Vector
import PyGrove.Lib.Ledger
import PyGrove.State.Cbor
import PyGrove.State.ApplySteps

set_option autoImplicit false

namespace PyGrove.State

open Words Steps PyGrove.Core Crypto

theorem bytes_of_account_injective : Function.Injective AccountId.id := by
  intro left right same
  cases left
  cases right
  exact congrArg AccountId.mk same

instance : Finite U8 := .of_injective BitVec.toFin fun _ _ same => BitVec.toFin_inj.mp same
instance : Finite AccountId := .of_injective AccountId.id bytes_of_account_injective

-- Chosen classically: no proof may evaluate a sum over all 2^160 account ids.
noncomputable instance : Fintype AccountId := .ofFinite AccountId

section
variable {σ : Type} [StateStore σ] [StateCbor]

def balances (store : σ) : AccountId → ℕ := fun id => (Accounts.loadOrDefault store id).balance.toNat

theorem balances_save (store : σ) (id : AccountId) (account : Account) :
    balances (Accounts.save store id account) = Function.update (balances store) id account.balance.toNat := by
  funext other
  unfold balances
  rw [Accounts.load_or_default_save]
  by_cases same : id = other
  · subst same
    simp
  · rw [if_neg same, Function.update_of_ne (Ne.symm same)]

theorem total_save (store : σ) (id : AccountId) (account : Account) :
    Ledger.total (balances (Accounts.save store id account)) + balances store id =
      Ledger.total (balances store) + account.balance.toNat := by
  rw [balances_save]
  exact Ledger.total_update _ _ _

theorem debit_sender_balances (store : σ) (tx : StagedTx) (required : U128)
    (value : required.toNat = tx.amount.toNat + tx.feeSat.toNat)
    (enough : required.toNat ≤ (Accounts.loadOrDefault store tx.fromAccount).balance.toNat) :
    balances (Accounts.save store tx.fromAccount (debitSender (Accounts.loadOrDefault store tx.fromAccount) required tx)) =
      Ledger.debit (balances store) tx.fromAccount (tx.amount.toNat + tx.feeSat.toNat) := by
  rw [balances_save, Ledger.debit]
  congr 1
  rw [debitSender, BitVec.toNat_sub_of_le (by simpa [BitVec.le_def] using enough), value]
  rfl

theorem credit_has_room (store debited : σ) (tx : StagedTx)
    (debit : balances debited = Ledger.debit (balances store) tx.fromAccount (tx.amount.toNat + tx.feeSat.toNat))
    (funded : tx.amount.toNat + tx.feeSat.toNat ≤ balances store tx.fromAccount)
    (bounded : Ledger.total (balances store) < 2 ^ 128) :
    (Accounts.loadOrDefault debited tx.toAccount).balance.toNat + tx.amount.toNat < 2 ^ 128 := by
  have fits := Ledger.credited_le_total (balances store) tx.fromAccount tx.toAccount tx.amount.toNat tx.feeSat.toNat funded
  rw [← debit] at fits
  exact Nat.lt_of_le_of_lt fits bounded

theorem apply_staged_balances (store next : σ) (tx : StagedTx) (applied : applyStaged store tx = .ok next)
    (bounded : Ledger.total (balances store) < 2 ^ 128) :
    tx.amount.toNat + tx.feeSat.toNat ≤ balances store tx.fromAccount ∧
      balances next = Ledger.transfer (balances store) tx.fromAccount tx.toAccount tx.amount.toNat tx.feeSat.toNat := by
  obtain ⟨required, _, value, enough, debited, debitedEq, nextEq⟩ := apply_staged_ok store next tx applied
  have funded : tx.amount.toNat + tx.feeSat.toNat ≤ balances store tx.fromAccount := value ▸ enough
  have debitValue := debit_sender_balances store tx required value enough
  rw [← debitedEq] at debitValue
  have room := credit_has_room store debited tx debitValue funded bounded
  have held : (Accounts.loadOrDefault debited tx.toAccount).balance.toNat = balances debited tx.toAccount := rfl
  have credited : (saturatingAdd (Accounts.loadOrDefault debited tx.toAccount).balance tx.amount).toNat =
      balances debited tx.toAccount + tx.amount.toNat := by
    rw [to_nat_saturating_add, held]
    omega
  refine ⟨funded, ?_⟩
  rw [nextEq, balances_save, Ledger.transfer, Ledger.credit, ← debitValue, credited]

theorem spend_total (store spent : σ) (staged : List StagedTx)
    (finished : runSteps applyStaged store staged = (spent, .ok ()))
    (bounded : Ledger.total (balances store) < 2 ^ 128) :
    Ledger.total (balances spent) + (staged.map (fun tx => tx.feeSat.toNat)).sum = Ledger.total (balances store) := by
  induction staged generalizing store with
  | nil =>
      cases finished
      simp only [List.map_nil, List.sum_nil, Nat.add_zero]
  | cons tx tail ih =>
      obtain ⟨next, applied, rest⟩ := run_steps_finished_cons applyStaged store spent tx tail finished
      obtain ⟨funded, moved⟩ := apply_staged_balances store next tx applied bounded
      have total := Ledger.total_transfer (balances store) tx.fromAccount tx.toAccount tx.amount.toNat
        tx.feeSat.toNat funded
      rw [← moved] at total
      have remaining := ih next rest (by omega)
      rw [List.map_cons, List.sum_cons]
      omega

theorem coinbase_total (header : BlockHeader) (store paid : σ) (reward fees minted : U128)
    (credited : payCoinbase header store reward fees = .ok (paid, minted)) :
    Ledger.total (balances paid) = Ledger.total (balances store) + reward.toNat + fees.toNat := by
  obtain ⟨mintedValue, balance, balanceValue, paidEq⟩ := pay_coinbase_ok header store paid reward fees minted credited
  have updated := Ledger.total_update (balances store) (.fromCoinbase header.coinbase) balance.toNat
  rw [paidEq, balances_save]
  have held : (Accounts.loadOrDefault store (.fromCoinbase header.coinbase)).balance.toNat =
      balances store (.fromCoinbase header.coinbase) := rfl
  dsimp only
  omega

theorem epilogue_balances (header : BlockHeader) (store : σ) (reflection : Reflection) :
    balances (activateUpgrade header (writeReflection header store reflection)) = balances store := by
  funext id
  simp only [balances]
  rw [epilogue_load]

theorem epilogue_reflection (header : BlockHeader) (store : σ) (reflection : Reflection) :
    loadReflectionAt (activateUpgrade header (writeReflection header store reflection)) header.height =
      some reflection := by
  have written : loadReflectionAt (writeReflection header store reflection) header.height = some reflection := by
    have apart : ¬ (Subtree.reflect = Subtree.reflect ∧ latestKey = blockKey header.height) := by
      intro both
      have lengths := congrArg List.length both.2
      simp [latestKey, blockKey, ascii] at lengths
    simp only [loadReflectionAt, writeReflection]
    rw [load_record_save_other _ _ _ _ _ _ _ _ apart, load_record_save_self]
  rw [← written]
  simp only [activateUpgrade]
  split
  · rfl
  · split
    · exact load_record_save_other _ _ _ _ _ _ _ _ (by simp)
    · rfl

end

section
variable {σ : Type} [StateStore σ] [StateCbor] [HashFns] [SigFns]

theorem effects_balances (header : BlockHeader) (store : σ) (items : List (TxBody × Nat)) :
    balances (runSteps (applyEffect header) store items).1 = balances store := by
  funext id
  simp only [balances]
  rw [effects_load]

theorem staged_fees (store : σ) (witnesses : List Witness) (items : List (TxBody × Nat)) (staged : List StagedTx)
    (valid : List.Forall₂ (Staged store witnesses) items staged) :
    staged.map (fun tx => tx.feeSat.toNat) = items.map (fun item => item.1.feeSat.toNat) := by
  induction valid with
  | nil => rfl
  | cons head _ ih =>
      obtain ⟨_, _, _, _, validated⟩ := head
      rw [List.map_cons, List.map_cons, ih, validated.fee]

theorem apply_block_conserves (store final : σ) (block : Block) (reward : U128) (out : ApplyOutput)
    (bounded : Ledger.total (balances store) + reward.toNat < 2 ^ 128)
    (accepted : applyBlock store block reward = (final, .ok out)) :
    Ledger.total (balances final) = Ledger.total (balances store) + reward.toNat ∧
      ∃ record, loadReflectionAt final block.header.height = some record ∧
        record.emission.toNat = record.feeSum.toNat + reward.toNat ∧
        record.feeSum.toNat = (block.body.txs.map (fun tx => tx.feeSat.toNat)).sum := by
  have outcome := apply_block_outcome store block reward
  rw [accepted] at outcome
  cases outcome with
  | accepted fees minted staged spent affected paid valid spend effects coinbase =>
      obtain ⟨stagedAll, feesValue⟩ := validate_block_ok store block fees staged valid
      have spentTotal := spend_total store spent staged spend (by omega)
      rw [staged_fees _ _ _ _ stagedAll, indexed_fees, ← feesValue] at spentTotal
      have affectedBalances := effects_balances block.header spent block.body.txs.zipIdx
      rw [effects] at affectedBalances
      have paidTotal := coinbase_total block.header affected paid reward fees minted coinbase
      obtain ⟨mintedValue, _⟩ := pay_coinbase_ok block.header affected paid reward fees minted coinbase
      refine ⟨?_, blockReflection block fees minted, epilogue_reflection .., ?_, feesValue⟩
      · rw [epilogue_balances, paidTotal, affectedBalances]
        omega
      · show minted.toNat = fees.toNat + reward.toNat
        omega

end

theorem empty_store_total [HashFns] [StateCbor] : Ledger.total (balances MemState.new) = 0 := by
  apply Finset.sum_eq_zero
  intro id _
  rw [balances, load_new]
  rfl

open Sample in
theorem aliased_spends_conserve :
    let payer := List.replicate 32 7
    let miner := List.replicate 32 8
    let other := List.replicate 32 9
    let coinbase : Bytes 32 := ⟨(AccountId.fromPubkey miner).id.toList ++ List.replicate 12 0, by simp⟩
    let paid := Accounts.save MemState.new (.fromPubkey payer) ⟨100, 0, [], 0⟩
    let funded := Accounts.save (Accounts.save paid (.fromPubkey miner) ⟨50, 0, [], 0⟩) (.fromPubkey other) ⟨30, 0, [], 0⟩
    let mined := block { header 1 (.replicate 32 0) 1000 0 with coinbase }
      [signedTx 0 (.transfer (.fromPubkey payer) 60) 3 3 payer (.inline payer),
        signedTx 0 (.transfer (.fromPubkey payer) 20) 2 3 miner (.inline miner),
        signedTx 0 (.transfer (.fromPubkey miner) 10) 1 3 other (.inline other)]
    ∃ final out, applyBlock funded mined 2500000000 = (final, .ok out) ∧
      Ledger.total (balances final) = 180 + 2500000000 ∧
      ∃ record, loadReflectionAt final 1 = some record ∧ record.emission.toNat = 6 + 2500000000 := by
  intro payer miner other coinbase paid funded mined
  have total : Ledger.total (balances funded) = 180 := by
    have first := total_save MemState.new (.fromPubkey payer) ⟨100, 0, [], 0⟩
    have second := total_save paid (.fromPubkey miner) ⟨50, 0, [], 0⟩
    have third := total_save (Accounts.save paid (.fromPubkey miner) ⟨50, 0, [], 0⟩) (.fromPubkey other) ⟨30, 0, [], 0⟩
    have nothing : balances MemState.new (.fromPubkey payer) = 0 ∧ balances paid (.fromPubkey miner) = 0 ∧
        balances (Accounts.save paid (.fromPubkey miner) ⟨50, 0, [], 0⟩) (.fromPubkey other) = 0 := by decide +kernel
    rw [nothing.1, empty_store_total] at first
    rw [nothing.2.1, show Ledger.total (balances paid) = 100 from first] at second
    rw [nothing.2.2, show Ledger.total _ = 150 from second] at third
    exact third
  have accepted : (applyBlock funded mined 2500000000).2.isOk = true := by decide +kernel
  cases outcome : applyBlock funded mined 2500000000 with
  | mk final result =>
      cases result with
      | error e =>
          rw [outcome] at accepted
          cases accepted
      | ok out =>
          obtain ⟨conserved, record, loaded, emission, fees⟩ := apply_block_conserves funded final mined 2500000000 out
            (by rw [total]; decide) outcome
          rw [total] at conserved
          have paidOut : (mined.body.txs.map fun tx => tx.feeSat.toNat).sum = 6 := by decide +kernel
          exact ⟨final, out, rfl, conserved, record, loaded, by rw [emission, fees, paidOut]; rfl⟩

end PyGrove.State
