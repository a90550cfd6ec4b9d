import PyGrove.State.Lockstep

set_option autoImplicit false

namespace PyGrove.State

open Words Steps PyGrove.Core Crypto

section
variable {σ : Type} [StateStore σ] [StateCbor]

-- All that two stores hold, but for the order of the coordinators of a job,
-- which no header commits to.
structure SameLedger (a b : σ) : Prop where
  elsewhere : ∀ sub key, ¬ IsAuthorityKey sub key → StateStore.get a sub key = StateStore.get b sub key
  registries : ∀ jobId, Option.Rel SameCoordinators (loadAttestAuthority a jobId) (loadAttestAuthority b jobId)

theorem same_ledger_refl (store : σ) : SameLedger store store :=
  ⟨fun _ _ _ => rfl, fun _ => same_registry_refl _⟩

theorem same_ledger_lockstep : Lockstep (SameLedger : σ → σ → Prop) where
  elsewhere := fun _ _ same => same.elsewhere
  registries := fun _ _ same => same.registries
  put := by
    intro a b same sub key value
    refine ⟨fun sub' key' apart => ?_, fun jobId => ?_⟩
    · rw [StateStore.get_put, StateStore.get_put, same.elsewhere sub' key' apart]
    · rw [loadAttestAuthority, loadAttestAuthority, load_record_put, load_record_put]
      by_cases here : sub = .metadata ∧ key = attestAuthKey jobId
      · rw [if_pos here, if_pos here]
        exact same_registry_refl _
      · rw [if_neg here, if_neg here]
        exact same.registries jobId

theorem same_ledger_register (header : BlockHeader) (a b : σ) (jobId : Bytes 32) (xs ys : List AccountId)
    (perm : xs.Perm ys) (same : SameLedger a b) :
    SameLedger (StateStore.put a .metadata (attestAuthKey jobId) (authorityBytes header jobId xs))
      (StateStore.put b .metadata (attestAuthKey jobId) (authorityBytes header jobId ys)) where
  elsewhere := by
    intro sub key elsewhere
    have apart : ¬ (Subtree.metadata = sub ∧ attestAuthKey jobId = key) := fun here =>
      elsewhere ⟨jobId, here.1.symm, here.2.symm⟩
    rw [StateStore.get_put, StateStore.get_put, if_neg apart, if_neg apart, same.elsewhere sub key elsewhere]
  registries := by
    intro job
    rw [loadAttestAuthority, loadAttestAuthority, load_record_put, load_record_put]
    by_cases here : Subtree.metadata = .metadata ∧ attestAuthKey jobId = attestAuthKey job
    · rw [if_pos here, if_pos here, authorityBytes, authorityBytes, Codec.decode_encode, Codec.decode_encode]
      exact .some ⟨rfl, perm.map AccountId.id⟩
    · rw [if_neg here, if_neg here]
      exact same.registries job

def SameAccounts (a b : σ) : Prop := ∀ id, Accounts.loadOrDefault a id = Accounts.loadOrDefault b id

theorem same_ledger_accounts (a b : σ) (same : SameLedger a b) : SameAccounts a b :=
  same_ledger_lockstep.account_or_default a b same

theorem same_ledger_effect (header : BlockHeader) (a b : σ) (x y : TxBody) (tx : SameTx x y) (same : SameLedger a b) :
    SameLedger (writeTo a (effectWrite header x)) (writeTo b (effectWrite header y)) := by
  obtain ⟨fields, call⟩ := tx
  have committed := same_committed_of_hash_call x.call y.call call
  have sender : x.fromAccount = y.fromAccount := by rw [fields]
  simp only [effectWrite]
  rw [sender]
  generalize x.call = callX at committed
  generalize y.call = callY at committed
  cases committed with
  | registerAttestCoordinator jobId coordinators coordinators' govProof govProof' perm sorted =>
      exact same_ledger_register header a b jobId coordinators coordinators' perm same
  | _ => exact same_ledger_lockstep.write a b same _

theorem same_ledger_writes (header : BlockHeader) (a b : σ) (xs ys : List TxBody) (txs : List.Forall₂ SameTx xs ys)
    (same : SameLedger a b) :
    SameLedger ((xs.map (effectWrite header)).foldl writeTo a) ((ys.map (effectWrite header)).foldl writeTo b) := by
  induction txs generalizing a b with
  | nil => exact same
  | cons head _ ih => exact ih _ _ (same_ledger_effect header a b _ _ head same)

variable [HashFns] [SigFns]

theorem accepted_same_ledger (a b a' b' : σ) (x y : Block) (reward : U128) (outA outB : ApplyOutput) (same : SameLedger a b)
    (blocks : SameBlocks x y) (appliedA : applyBlock a x reward = (a', .ok outA))
    (appliedB : applyBlock b y reward = (b', .ok outB)) : SameLedger a' b' := by
  have outcomeA := apply_block_outcome a x reward
  have outcomeB := apply_block_outcome b y reward
  rw [appliedA] at outcomeA
  rw [appliedB] at outcomeB
  cases outcomeA with
  | accepted fees minted staged spent affected paid valid spend effects coinbase =>
      cases outcomeB with
      | accepted fees' minted' staged' spent' affected' paid' valid' spend' effects' coinbase' =>
          rw [validate_same_blocks a x y blocks, same_ledger_lockstep.validate_all a b same, valid'] at valid
          obtain ⟨rfl, rfl⟩ := Prod.mk.inj (Except.ok.inj valid)
          have spents := (run_steps_alike applyStaged applyStaged SameLedger same_ledger_lockstep.applied_alike a b same
            staged').2
          rw [spend, spend'] at spents
          have affecteds : SameLedger affected affected' := by
            rw [effects_finished x.header spent affected x.body.txs 0 effects,
              effects_finished y.header spent' affected' y.body.txs 0 effects', blocks.header]
            exact same_ledger_writes y.header spent spent' _ _ blocks.txs spents
          have paids := same_ledger_lockstep.paid_alike x.header affected affected' reward fees' affecteds
          rw [coinbase, blocks.header, coinbase'] at paids
          cases paids with
          | ok _ _ both =>
              obtain ⟨paids, rfl⟩ := both
              rw [blocks.header, block_reflection_same x y fees' minted blocks]
              exact same_ledger_lockstep.epilogue y.header paid paid' _ paids

end

end PyGrove.State
