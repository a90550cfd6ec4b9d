import Mathlib.Algebra.BigOperators.Group.Finset.Piecewise
import Mathlib.Algebra.Order.BigOperators.Group.Finset
import Mathlib.Data.Fintype.BigOperators

set_option autoImplicit false

/- Balances over a finite set of holders. Coin moves by debits and credits of
   single holders; what a sequence of them does to the total is read off the
   total of each. -/
namespace Ledger

variable {ι : Type} [DecidableEq ι]

def debit (balance : ι → ℕ) (holder : ι) (amount : ℕ) : ι → ℕ :=
  Function.update balance holder (balance holder - amount)

def credit (balance : ι → ℕ) (holder : ι) (amount : ℕ) : ι → ℕ :=
  Function.update balance holder (balance holder + amount)

def transfer (balance : ι → ℕ) (sender receiver : ι) (amount fee : ℕ) : ι → ℕ :=
  credit (debit balance sender (amount + fee)) receiver amount

theorem transfer_at (balance : ι → ℕ) (sender receiver : ι) (amount fee : ℕ) (funded : amount + fee ≤ balance sender)
    (holder : ι) :
    transfer balance sender receiver amount fee holder + (if sender = holder then amount + fee else 0) =
      balance holder + if receiver = holder then amount else 0 := by
  have debited : debit balance sender (amount + fee) holder + (if sender = holder then amount + fee else 0) = balance holder := by
    by_cases paid : sender = holder
    · subst paid
      rw [debit, Function.update_self, if_pos rfl]
      omega
    · rw [debit, Function.update_of_ne (Ne.symm paid), if_neg paid, Nat.add_zero]
  by_cases took : receiver = holder
  · subst took
    rw [transfer, credit, Function.update_self, if_pos rfl]
    omega
  · rw [transfer, credit, Function.update_of_ne (Ne.symm took), if_neg took, Nat.add_zero, debited]

variable [Fintype ι]

def total (balance : ι → ℕ) : ℕ := ∑ holder, balance holder

theorem total_update (balance : ι → ℕ) (holder : ι) (value : ℕ) :
    total (Function.update balance holder value) + balance holder = total balance + value := by
  have member : holder ∈ Finset.univ := Finset.mem_univ holder
  simp only [total]
  rw [Finset.sum_update_of_mem member, ← Finset.add_sum_erase _ balance member, Finset.sdiff_singleton_eq_erase]
  omega

omit [DecidableEq ι] in
theorem balance_le_total (balance : ι → ℕ) (holder : ι) : balance holder ≤ total balance :=
  Finset.single_le_sum (fun _ _ => Nat.zero_le _) (Finset.mem_univ holder)

theorem total_credit (balance : ι → ℕ) (holder : ι) (amount : ℕ) :
    total (credit balance holder amount) = total balance + amount := by
  have updated := total_update balance holder (balance holder + amount)
  simp only [credit]
  omega

theorem total_debit (balance : ι → ℕ) (holder : ι) (amount : ℕ) (funded : amount ≤ balance holder) :
    total (debit balance holder amount) + amount = total balance := by
  have updated := total_update balance holder (balance holder - amount)
  simp only [debit]
  omega

theorem total_transfer (balance : ι → ℕ) (sender receiver : ι) (amount fee : ℕ)
    (funded : amount + fee ≤ balance sender) :
    total (transfer balance sender receiver amount fee) + fee = total balance := by
  have debited := total_debit balance sender (amount + fee) funded
  rw [transfer, total_credit]
  omega

theorem credited_le_total (balance : ι → ℕ) (sender receiver : ι) (amount fee : ℕ)
    (funded : amount + fee ≤ balance sender) :
    debit balance sender (amount + fee) receiver + amount ≤ total balance := by
  have debited := total_debit balance sender (amount + fee) funded
  have bounded := balance_le_total (debit balance sender (amount + fee)) receiver
  omega

end Ledger
