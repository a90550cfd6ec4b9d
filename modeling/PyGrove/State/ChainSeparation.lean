import PyGrove.State.Acceptance

set_option autoImplicit false

namespace PyGrove.State

open Words PyGrove.Core Crypto

-- A node's chain: the chain_id it is configured with, and its state. Pass 1 is
-- given the state only.
structure Chain (σ : Type) where
  chainId : String
  state : σ

theorem call_target_idx (idx other : Nat) (tx : TxBody) (target : AccountId × U128)
    (supported : callTarget idx tx = .ok target) : callTarget other tx = .ok target := by
  rw [callTarget] at supported ⊢
  generalize tx.call = call at supported ⊢
  cases call <;> first | exact supported | cases supported

section
variable {σ : Type} [StateStore σ] [StateCbor]

def Covers (store : σ) (tx : TxBody) : Prop :=
  tx.nonce = (Accounts.loadOrDefault store tx.fromAccount).nonce ∧
    (payment tx).2.toNat + tx.feeSat.toNat ≤ (Accounts.loadOrDefault store tx.fromAccount).balance.toNat

def KeyHeld [HashFns] [SigFns] (store : σ) (tx : TxBody) (witness : Witness) : Prop :=
  match witness.pubkey with
  | .inline _ => True
  | .known _ =>
      ∃ acct, Accounts.load store tx.fromAccount = some acct ∧ acct.pubkey ≠ [] ∧ acct.sigAlgo = witness.sigAlgo ∧
        SigFns.verify witness.sigAlgo acct.pubkey witness.sig tx.signingHash.toList = .ok ()

end

section
variable {σ τ : Type} [StateStore σ] [StateStore τ] [StateCbor] [HashFns] [SigFns]

theorem resolve_verified_iff (a : σ) (b : τ) (idx other : Nat) (tx : TxBody) (witness : Witness) (key : List U8)
    (resolved : resolvePubkey idx a tx witness = .ok key)
    (signed : SigFns.verify witness.sigAlgo key witness.sig tx.signingHash.toList = .ok ()) :
    (∃ found, resolvePubkey other b tx witness = .ok found ∧
      SigFns.verify witness.sigAlgo found witness.sig tx.signingHash.toList = .ok ()) ↔ KeyHeld b tx witness := by
  rw [resolvePubkey] at resolved ⊢
  rw [KeyHeld]
  cases carried : witness.pubkey with
  | inline bytes =>
      rw [carried] at resolved
      dsimp only at resolved ⊢
      split at resolved
      · cases resolved
      · rename_i derives
        cases resolved
        rw [if_neg derives]
        exact iff_of_true ⟨_, rfl, signed⟩ trivial
  | known ref =>
      dsimp only
      cases loaded : Accounts.load b tx.fromAccount with
      | none => simp
      | some acct =>
          dsimp only
          by_cases empty : acct.pubkey = []
          · simp [empty]
          · by_cases algo : acct.sigAlgo = witness.sigAlgo
            · simp [empty, algo]
            · simp [empty, algo]

theorem validate_elsewhere_iff (a : σ) (b : τ) (idx other : Nat) (tx : TxBody) (witness : Witness) (staged : StagedTx)
    (valid : validateTx idx a tx witness = .ok staged) :
    (∃ staged', validateTx other b tx witness = .ok staged') ↔ KeyHeld b tx witness ∧ Covers b tx := by
  obtain ⟨rfl, validated⟩ := validate_tx_ok idx a tx witness staged valid
  have target := call_target_idx _ other tx _ validated.target
  rw [← resolve_verified_iff a b _ other tx witness _ validated.key validated.signed]
  constructor
  · rintro ⟨staged', accepted⟩
    obtain ⟨rfl, there⟩ := validate_tx_ok other b tx witness staged' accepted
    refine ⟨⟨_, there.key, there.signed⟩, there.nonce.trans there.current, ?_⟩
    rw [← call_target_payment _ tx _ there.target]
    exact there.funded
  · rintro ⟨⟨key, resolved, signed⟩, nonce, funded⟩
    rw [← call_target_payment _ tx _ validated.target] at funded
    dsimp only at funded
    have bound := (Accounts.loadOrDefault b tx.fromAccount).balance.isLt
    have spend := (check_spend_ok other (Accounts.loadOrDefault b tx.fromAccount) tx.nonce staged.amount tx.feeSat
      (.nonceMismatch other tx.nonce (Accounts.loadOrDefault b tx.fromAccount).nonce)
      (BitVec.ofNat 128 (staged.amount.toNat + tx.feeSat.toNat))).mpr
        ⟨nonce, by rw [BitVec.toNat_ofNat, Nat.mod_eq_of_lt (by omega)], by
          rw [BitVec.toNat_ofNat, Nat.mod_eq_of_lt (by omega)]
          exact funded⟩
    rw [validateTx, target]
    dsimp only
    rw [resolved]
    dsimp only
    rw [signed]
    dsimp only
    rw [spend]
    exact ⟨_, rfl⟩

structure Crosses (a : Chain σ) (b : Chain τ) (tx : TxBody) (witness : Witness) : Prop where
  apart : a.chainId ≠ b.chainId
  accepted : ∃ idx staged, validateTx idx a.state tx witness = .ok staged

def Rejects (b : Chain τ) (tx : TxBody) (witness : Witness) : Prop :=
  ∀ idx, ∃ e, validateTx idx b.state tx witness = .error e

theorem crossing_rejected_iff (a : Chain σ) (b : Chain τ) (tx : TxBody) (witness : Witness)
    (crosses : Crosses a b tx witness) : Rejects b tx witness ↔ ¬ KeyHeld b.state tx witness ∨ ¬ Covers b.state tx := by
  obtain ⟨idx, staged, valid⟩ := crosses.accepted
  rw [← not_and_or]
  constructor
  · intro rejects both
    obtain ⟨e, refused⟩ := rejects 0
    obtain ⟨staged', accepted⟩ := (validate_elsewhere_iff a.state b.state idx 0 tx witness staged valid).mpr both
    rw [refused] at accepted
    cases accepted
  · intro lacking other
    cases result : validateTx other b.state tx witness with
    | error e => exact ⟨e, rfl⟩
    | ok staged' =>
        exact absurd ((validate_elsewhere_iff a.state b.state idx other tx witness staged valid).mp ⟨staged', result⟩) lacking

end

end PyGrove.State

namespace PyGrove.Sample.Testnet

open Words PyGrove.Core Crypto State

def spenderKey : List U8 := List.replicate 32 7

def spend : TxBody × Witness :=
  signedTx 0 (.transfer (.fromPubkey (List.replicate 32 8)) 5) 1 3 spenderKey (.known (.fromPubkey spenderKey))

scoped instance signer : SigFns where
  fips := false
  verify := fun algo pk sig msg =>
    if algo = 3 ∧ pk = spenderKey ∧ sig = spend.2.sig ∧ msg = spend.1.signingHash.toList then .ok ()
    else .error .badSignature

def funded : MemState :=
  Accounts.save MemState.new (.fromPubkey spenderKey) { balance := 100, nonce := 0, pubkey := spenderKey, sigAlgo := 3 }

def testnet : Chain MemState := ⟨"pygrove-testnet-3", funded⟩
def mainnet : Chain MemState := ⟨"pygrove-mainnet-1", funded⟩

theorem spend_crosses : Crosses testnet mainnet spend.1 spend.2 := by
  have valid : (validateTx 0 funded spend.1 spend.2).toOption.isSome := by decide +kernel
  cases result : validateTx 0 funded spend.1 spend.2 with
  | error e =>
      rw [result] at valid
      cases valid
  | ok staged => exact ⟨by decide, 0, staged, result⟩

end PyGrove.Sample.Testnet

namespace PyGrove.State

open Words PyGrove.Core Crypto Sample Sample.Testnet

theorem testnet_spend_rejected_iff :
    Rejects mainnet spend.1 spend.2 ↔ ¬ KeyHeld mainnet.state spend.1 spend.2 ∨ ¬ Covers mainnet.state spend.1 :=
  crossing_rejected_iff testnet mainnet spend.1 spend.2 spend_crosses

theorem testnet_spend_valid_on_mainnet :
    Crosses testnet mainnet spend.1 spend.2 ∧ ¬ Rejects mainnet spend.1 spend.2 := by
  refine ⟨spend_crosses, ?_⟩
  intro rejects
  obtain ⟨e, refused⟩ := rejects 0
  have valid : (validateTx 0 mainnet.state spend.1 spend.2).toOption.isSome := by decide +kernel
  rw [refused] at valid
  cases valid

end PyGrove.State
