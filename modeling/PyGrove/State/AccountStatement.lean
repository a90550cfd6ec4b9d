import PyGrove.State.Conservation
import PyGrove.State.Nonces
import PyGrove.State.ReflectionHistory

set_option autoImplicit false

namespace PyGrove.State

open Words Steps PyGrove.Core Crypto

def movedTo (tx : TxBody) : Option AccountId × U128 :=
  match tx.call with
  | .transfer toAccount amount => (some toAccount, amount)
  | _ => (none, 0)

def balanceChange (id : AccountId) (tx : TxBody) : ℤ :=
  (if (movedTo tx).1 = some id then (movedTo tx).2.toNat else 0 : ℤ) -
    (if tx.fromAccount = id then (movedTo tx).2.toNat + tx.feeSat.toNat else 0 : ℤ)

def minerShare (id : AccountId) (block : Block) (reward : U128) : ℤ :=
  if AccountId.fromCoinbase block.header.coinbase = id then reward.toNat + bodyFees block else 0

def blockChange (id : AccountId) (block : Block) (reward : U128) : ℤ :=
  (block.body.txs.map (balanceChange id)).sum + minerShare id block reward

def StagedTx.change (id : AccountId) (tx : StagedTx) : ℤ :=
  (if tx.toAccount = id then tx.amount.toNat else 0 : ℤ) -
    (if tx.fromAccount = id then tx.amount.toNat + tx.feeSat.toNat else 0 : ℤ)

theorem staged_change (id : AccountId) (tx : TxBody) (staged : StagedTx) (sender : staged.fromAccount = tx.fromAccount)
    (fee : staged.feeSat = tx.feeSat) (target : callTarget staged.idx tx = .ok (staged.toAccount, staged.amount)) :
    staged.change id = balanceChange id tx := by
  rw [StagedTx.change, balanceChange, sender, fee]
  rw [callTarget] at target
  rw [movedTo]
  cases call : tx.call with
  | transfer toAccount sum =>
      rw [call] at target
      obtain ⟨credited, amount⟩ := Prod.mk.inj (Except.ok.inj target)
      rw [← credited, ← amount]
      simp only [Option.some.injEq]
  | deployContract =>
      rw [call] at target
      cases target
  | callContract =>
      rw [call] at target
      cases target
  | _ =>
      rw [call] at target
      obtain ⟨credited, amount⟩ := Prod.mk.inj (Except.ok.inj target)
      rw [← credited, ← amount]
      simp

section
variable {σ : Type} [StateStore σ] [StateCbor]

theorem spends_change (store spent : σ) (staged : List StagedTx) (id : AccountId)
    (finished : runSteps applyStaged store staged = (spent, .ok ()))
    (bounded : Ledger.total (balances store) < 2 ^ 128) :
    (balances spent id : ℤ) = balances store id + (staged.map (StagedTx.change id)).sum := by
  induction staged generalizing store with
  | nil =>
      cases finished
      rw [List.map_nil, List.sum_nil, add_zero]
  | cons tx tail ih =>
      obtain ⟨next, applied, rest⟩ := run_steps_finished_cons applyStaged store spent tx tail finished
      obtain ⟨funded, moved⟩ := apply_staged_balances store next tx applied bounded
      have total := Ledger.total_transfer (balances store) tx.fromAccount tx.toAccount tx.amount.toNat
        tx.feeSat.toNat funded
      have here := Ledger.transfer_at (balances store) tx.fromAccount tx.toAccount tx.amount.toNat tx.feeSat.toNat
        funded id
      rw [← moved] at total here
      have first : (balances next id : ℤ) = balances store id + tx.change id := by
        rw [StagedTx.change]
        have cast := congrArg (Nat.cast : ℕ → ℤ) here
        push_cast at cast
        linarith
      rw [ih next rest (by omega), first, List.map_cons, List.sum_cons, add_assoc]

theorem spends_count (store spent : σ) (staged : List StagedTx) (id : AccountId)
    (finished : runSteps applyStaged store staged = (spent, .ok ())) :
    (Accounts.loadOrDefault spent id).nonce.toNat =
      min ((Accounts.loadOrDefault store id).nonce.toNat + staged.countP (fun tx => tx.fromAccount = id)) (2 ^ 64 - 1) := by
  induction staged generalizing store with
  | nil =>
      cases finished
      have bound := (Accounts.loadOrDefault spent id).nonce.isLt
      rw [List.countP_nil, Nat.add_zero, Nat.min_eq_left (by omega)]
  | cons tx tail ih =>
      obtain ⟨next, applied, rest⟩ := run_steps_finished_cons applyStaged store spent tx tail finished
      have moved := apply_staged_nonce store next tx applied id
      rw [ih next rest, moved]
      by_cases own : tx.fromAccount = id
      · rw [if_pos own, to_nat_saturating_succ, List.countP_cons_of_pos (by simpa using own)]
        omega
      · rw [if_neg own, List.countP_cons_of_neg (by simpa using own)]

variable [HashFns] [SigFns]

theorem staged_changes (store : σ) (witnesses : List Witness) (id : AccountId) (items : List (TxBody × Nat))
    (staged : List StagedTx) (all : List.Forall₂ (Staged store witnesses) items staged) :
    staged.map (StagedTx.change id) = (items.map Prod.fst).map (balanceChange id) ∧
      staged.countP (fun tx => tx.fromAccount = id) = (sentBy id (items.map Prod.fst)).length := by
  induction all with
  | nil => exact ⟨rfl, rfl⟩
  | @cons item stagedTx _ _ first _ ih =>
      obtain ⟨_, _, _, _, validated⟩ := first
      obtain ⟨changes, count⟩ := ih
      refine ⟨?_, ?_⟩
      · rw [List.map_cons, List.map_cons, List.map_cons, changes,
          staged_change id item.1 stagedTx validated.sender validated.fee validated.target]
      · rw [sentBy] at count ⊢
        rw [List.map_cons]
        by_cases own : item.1.fromAccount = id
        · rw [List.countP_cons_of_pos (by simpa [validated.sender] using own),
            List.filter_cons_of_pos (by simpa using own), List.length_cons, count]
        · rw [List.countP_cons_of_neg (by simpa [validated.sender] using own),
            List.filter_cons_of_neg (by simpa using own), count]

theorem accepted_statement (store final : σ) (block : Block) (reward : U128) (out : ApplyOutput)
    (bounded : Ledger.total (balances store) + reward.toNat < 2 ^ 128)
    (accepted : applyBlock store block reward = (final, .ok out)) (id : AccountId) :
    (balances final id : ℤ) = balances store id + blockChange id block reward ∧
      (Accounts.loadOrDefault final id).nonce.toNat =
        min ((Accounts.loadOrDefault store id).nonce.toNat + (sentBy id block.body.txs).length) (2 ^ 64 - 1) := by
  have outcome := apply_block_outcome store block reward
  rw [accepted] at outcome
  have names : block.body.txs.zipIdx.map Prod.fst = block.body.txs := List.zipIdx_map_fst ..
  cases outcome with
  | accepted fees minted staged spent affected paid valid spend effects coinbase =>
      obtain ⟨all, feesValue⟩ := validate_block_ok store block fees staged valid
      obtain ⟨changes, count⟩ := staged_changes store _ id _ staged all
      rw [names] at changes count
      have spentChange := spends_change store spent staged id spend (by omega)
      have spentCount := spends_count store spent staged id spend
      rw [changes] at spentChange
      rw [count] at spentCount
      have kept := effects_run_load block.header spent affected _ _ effects
      obtain ⟨mintedValue, balance, balanceValue, paidEq⟩ :=
        pay_coinbase_ok block.header affected paid reward fees minted coinbase
      refine ⟨?_, ?_⟩
      · have share : (balances paid id : ℤ) = balances affected id + minerShare id block reward := by
          rw [paidEq, balances_save, minerShare, bodyFees, ← feesValue]
          by_cases miner : AccountId.fromCoinbase block.header.coinbase = id
          · rw [miner] at balanceValue ⊢
            rw [Function.update_self, if_pos rfl, balanceValue, mintedValue, balances]
            push_cast
            ring
          · rw [Function.update_of_ne (Ne.symm miner), if_neg miner, add_zero]
        rw [epilogue_balances, share, affected_balances block.header spent affected _ _ effects, spentChange, blockChange,
          add_assoc]
      · rw [epilogue_load, ← spentCount, ← kept id, paidEq, Accounts.load_or_default_save]
        by_cases miner : AccountId.fromCoinbase block.header.coinbase = id
        · rw [if_pos miner, miner]
        · rw [if_neg miner]

end

end PyGrove.State
