import Mathlib.Data.List.Perm.Basic
import PyGrove.State.HeaderBinding

set_option autoImplicit false

namespace PyGrove.State

open Words Steps PyGrove.Core Crypto

theorem not_authority_subtree (sub : Subtree) (key : List U8) (apart : sub ≠ .metadata) : ¬ IsAuthorityKey sub key :=
  fun ⟨_, same, _⟩ => apart same

theorem not_authority_length (key : List U8) (length : key.length ≠ 37) : ¬ IsAuthorityKey .metadata key :=
  fun ⟨jobId, _, same⟩ => attest_auth_key_ne jobId key length same

def SameCoordinators (a b : CoordinatorAuthority) : Prop :=
  b = { a with coordinators := b.coordinators } ∧ a.coordinators.Perm b.coordinators

-- A relation of stores that no read of a block tells apart and every write
-- keeps. The order of the coordinators of a job is left open: it decides nothing.
structure Lockstep {σ τ : Type} [StateStore σ] [StateStore τ] [StateCbor] (rel : σ → τ → Prop) : Prop where
  elsewhere : ∀ a b, rel a b → ∀ sub key, ¬ IsAuthorityKey sub key → StateStore.get a sub key = StateStore.get b sub key
  registries : ∀ a b, rel a b → ∀ jobId,
    Option.Rel SameCoordinators (loadAttestAuthority a jobId) (loadAttestAuthority b jobId)
  put : ∀ a b, rel a b → ∀ sub key value, rel (StateStore.put a sub key value) (StateStore.put b sub key value)

theorem same_registry_refl (registry : Option CoordinatorAuthority) : Option.Rel SameCoordinators registry registry := by
  cases registry with
  | none => exact .none
  | some authority => exact .some ⟨rfl, .refl _⟩

namespace Lockstep

section
variable {σ τ : Type} [StateStore σ] [StateStore τ] [StateCbor] {rel : σ → τ → Prop} (lockstep : Lockstep rel)
include lockstep

theorem load {α : Type} (codec : Codec α) (a : σ) (b : τ) (related : rel a b) (sub : Subtree) (key : List U8)
    (elsewhere : ¬ IsAuthorityKey sub key) : loadRecord codec a sub key = loadRecord codec b sub key := by
  rw [loadRecord, loadRecord, lockstep.elsewhere a b related sub key elsewhere]

theorem account (a : σ) (b : τ) (related : rel a b) (id : AccountId) : Accounts.load a id = Accounts.load b id :=
  lockstep.load StateCbor.account a b related .accounts id.id.toList (not_authority_subtree _ _ (by decide))

theorem account_or_default (a : σ) (b : τ) (related : rel a b) (id : AccountId) :
    Accounts.loadOrDefault a id = Accounts.loadOrDefault b id := by
  rw [Accounts.loadOrDefault, lockstep.account a b related id]
  rfl

theorem save (a : σ) (b : τ) (related : rel a b) (id : AccountId) (account : Account) :
    rel (Accounts.save a id account) (Accounts.save b id account) :=
  lockstep.put a b related _ _ _

theorem applied_alike (a : σ) (b : τ) (tx : StagedTx) (related : rel a b) :
    Alike rel (applyStaged a tx) (applyStaged b tx) := by
  simp only [applyStaged]
  rw [lockstep.account_or_default a b related tx.fromAccount]
  split
  · exact .error _
  · rename_i required _
    have debited := lockstep.save a b related tx.fromAccount
      (debitSender (Accounts.loadOrDefault b tx.fromAccount) required tx)
    rw [lockstep.account_or_default _ _ debited tx.toAccount]
    exact .ok _ _ (lockstep.save _ _ debited tx.toAccount _)

theorem paid_alike (header : BlockHeader) (a : σ) (b : τ) (reward fees : U128) (related : rel a b) :
    Alike (fun paid paid' => rel paid.1 paid'.1 ∧ paid.2 = paid'.2) (payCoinbase header a reward fees)
      (payCoinbase header b reward fees) := by
  simp only [payCoinbase]
  rw [lockstep.account_or_default a b related]
  split
  · exact .error _
  · split
    · exact .error _
    · exact .ok _ _ ⟨lockstep.save a b related _ _, rfl⟩

theorem epilogue (header : BlockHeader) (a : σ) (b : τ) (reflection : Reflection) (related : rel a b) :
    rel (activateUpgrade header (writeReflection header a reflection))
      (activateUpgrade header (writeReflection header b reflection)) := by
  have written : rel (writeReflection header a reflection) (writeReflection header b reflection) :=
    lockstep.put _ _ (lockstep.put _ _ related _ _ _) _ _ _
  simp only [activateUpgrade]
  rw [lockstep.load StateCbor.pendingCryptoUpgrade _ _ written .metadata upgradeCryptoKey
    (not_authority_length _ (by decide))]
  split
  · exact written
  · split
    · exact lockstep.put _ _ written _ _ _
    · exact written

theorem write (a : σ) (b : τ) (related : rel a b) (write : Option (Subtree × List U8 × List U8)) :
    rel (writeTo a write) (writeTo b write) := by
  cases write with
  | none => exact related
  | some write => exact lockstep.put a b related _ _ _

theorem attest_authorized (i : Nat) (a : σ) (b : τ) (related : rel a b) (jobId : Bytes 32) (sender : AccountId) :
    attestAuthorized i a jobId sender = attestAuthorized i b jobId sender := by
  have registries := lockstep.registries a b related jobId
  rw [attestAuthorized, attestAuthorized]
  generalize loadAttestAuthority a jobId = x at registries
  generalize loadAttestAuthority b jobId = y at registries
  cases registries with
  | none => rfl
  | some listed =>
      dsimp only
      rw [listed.2.isEmpty_eq, listed.2.contains_eq]

variable [HashFns] [SigFns]

theorem validate_all (a : σ) (b : τ) (related : rel a b) (witnesses : List Witness) (fees : U128)
    (items : List (TxBody × Nat)) : validateAll a witnesses fees items = validateAll b witnesses fees items := by
  have each : ∀ i tx witness, validateTx i a tx witness = validateTx i b tx witness := by
    intro i tx witness
    simp only [validateTx, resolvePubkey]
    rw [lockstep.account a b related, lockstep.account_or_default a b related]
  induction items generalizing fees with
  | nil => rfl
  | cons item tail ih =>
      simp only [validateAll]
      simp only [each, ih]

omit [HashFns] in
theorem governance_gate (i : Nat) (a : σ) (b : τ) (related : rel a b) (govProof : List U8) (payload : Bytes 32) :
    governanceGate i a govProof payload = governanceGate i b govProof payload := by
  rw [governanceGate, loadGovernance, lockstep.load _ a b related _ _ (not_authority_length _ (by decide))]
  rfl

theorem effect_alike (header : BlockHeader) (a : σ) (b : τ) (item : TxBody × Nat) (related : rel a b) :
    Alike rel (applyEffect header a item) (applyEffect header b item) := by
  obtain ⟨tx, i⟩ := item
  have finished : ∀ next, applyEffect header a (tx, i) = .ok next → ∀ next', applyEffect header b (tx, i) = .ok next' →
      rel next next' := by
    intro next takenA next' takenB
    rw [apply_effect_ok header a next tx i takenA, apply_effect_ok header b next' tx i takenB]
    exact lockstep.write a b related _
  revert finished
  simp only [applyEffect]
  cases tx.call with
  | attestRound jobId roundId modelHash dpEpsilonMilli =>
      dsimp only
      rw [lockstep.attest_authorized i a b related]
      split
      · exact fun _ => .error _
      · exact fun finished => .ok _ _ (finished _ rfl _ rfl)
  | registerAttestCoordinator jobId coordinators govProof =>
      dsimp only
      rw [lockstep.governance_gate i a b related]
      split
      · exact fun _ => .error _
      · exact fun finished => .ok _ _ (finished _ rfl _ rfl)
  | attestPedigree jobId lotId supplier cageCode attestationAuthority =>
      dsimp only
      rw [lockstep.attest_authorized i a b related]
      split
      · exact fun _ => .error _
      · split
        · exact fun _ => .error _
        · exact fun finished => .ok _ _ (finished _ rfl _ rfl)
  | upgradeCrypto targetHeight sigAlgo hashAlgo govProof =>
      dsimp only
      rw [lockstep.governance_gate i a b related]
      split
      · exact fun _ => .error _
      · split
        · exact fun _ => .error _
        · split
          · exact fun _ => .error _
          · exact fun finished => .ok _ _ (finished _ rfl _ rfl)
  | setGovernance configCbor govProof =>
      dsimp only
      split
      · exact fun _ => .error _
      · split
        · exact fun _ => .error _
        · rw [lockstep.governance_gate i a b related]
          split
          · exact fun _ => .error _
          · exact fun finished => .ok _ _ (finished _ rfl _ rfl)
  | _ => exact fun finished => .ok _ _ (finished _ rfl _ rfl)

theorem block_alike (a : σ) (b : τ) (related : rel a b) (block : Block) (reward : U128) :
    Alike (fun out out' => out' = { out with stateRoot := out'.stateRoot }) (applyBlock a block reward).2
        (applyBlock b block reward).2 ∧
      rel (applyBlock a block reward).1 (applyBlock b block reward).1 := by
  simp only [applyBlock]
  rw [lockstep.validate_all a b related]
  cases validateAll b block.body.witnesses 0 block.body.txs.zipIdx with
  | error e => exact ⟨.error e, related⟩
  | ok checked =>
      obtain ⟨fees, staged⟩ := checked
      have spends := run_steps_alike applyStaged applyStaged rel lockstep.applied_alike a b related staged
      dsimp only
      generalize runSteps applyStaged a staged = spentA at spends
      generalize runSteps applyStaged b staged = spentB at spends
      obtain ⟨spentA, resultA⟩ := spentA
      obtain ⟨spentB, resultB⟩ := spentB
      obtain ⟨rfl, spents⟩ := spends
      cases resultA with
      | error e => exact ⟨.error e, spents⟩
      | ok done =>
          have effects := run_steps_alike (applyEffect block.header) (applyEffect block.header) rel
            (lockstep.effect_alike block.header) spentA spentB spents block.body.txs.zipIdx
          dsimp only
          generalize runSteps (applyEffect block.header) spentA block.body.txs.zipIdx = affectedA at effects
          generalize runSteps (applyEffect block.header) spentB block.body.txs.zipIdx = affectedB at effects
          obtain ⟨affectedA, resultA⟩ := affectedA
          obtain ⟨affectedB, resultB⟩ := affectedB
          obtain ⟨rfl, affecteds⟩ := effects
          cases resultA with
          | error e => exact ⟨.error e, affecteds⟩
          | ok done =>
              have coinbase := lockstep.paid_alike block.header affectedA affectedB reward fees affecteds
              dsimp only
              generalize payCoinbase block.header affectedA reward fees = paidA at coinbase
              generalize payCoinbase block.header affectedB reward fees = paidB at coinbase
              cases coinbase with
              | error e => exact ⟨.error e, affecteds⟩
              | ok paid paid' both =>
                  obtain ⟨paids, minted⟩ := both
                  dsimp only
                  rw [minted]
                  exact ⟨.ok _ _ rfl, lockstep.epilogue block.header _ _ _ paids⟩

end

end Lockstep

end PyGrove.State
