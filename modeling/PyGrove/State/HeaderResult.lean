import PyGrove.State.Acceptance
import PyGrove.State.GovernanceGate
import PyGrove.State.LedgerBinding

set_option autoImplicit false

namespace PyGrove.State

open Words Steps PyGrove.Core Crypto

section
variable {σ : Type} [StateStore σ] [StateCbor] [HashFns] [SigFns]

def SameResult (store : σ) (a b : Block) (reward : U128) : Prop :=
  (∃ e e', (applyBlock store a reward).2 = .error e ∧ (applyBlock store b reward).2 = .error e') ∨
    ∃ out, (applyBlock store a reward).2 = .ok out ∧ (applyBlock store b reward).2 = .ok out ∧
      SameContents (applyBlock store a reward).1 (applyBlock store b reward).1

def PlainChecks (store : σ) (tx : TxBody) (i : Nat) : Prop :=
  match tx.call with
  | .attestRound jobId .. => attestAuthorized i store jobId tx.fromAccount = .ok ()
  | .attestPedigree jobId _ _ cageCode _ => isValidCage cageCode ∧ attestAuthorized i store jobId tx.fromAccount = .ok ()
  | .upgradeCrypto _ sigAlgo hashAlgo _ => allowedSig sigAlgo ∧ allowedHash hashAlgo
  | .setGovernance configCbor _ =>
      ∃ newCfg, StateCbor.governanceConfig.decode configCbor = .ok newCfg ∧ newCfg.validate = .ok ()
  | _ => True

def ProofPasses (store : σ) (tx : TxBody) : Prop :=
  ∀ action, governanceAction tx = some action → ∀ cfg, loadGovernance store = some cfg →
    action.govProof ≠ [] ∧ PassesGate cfg action

omit [HashFns] in
theorem governance_gate_iff (i : Nat) (store : σ) (key govProof : List U8) (payload : Bytes 32) :
    governanceGate i store govProof payload = .ok () ↔
      ∀ cfg, loadGovernance store = some cfg → govProof ≠ [] ∧ PassesGate cfg ⟨key, govProof, payload⟩ := by
  constructor
  · intro passed cfg loaded
    refine ⟨fun empty => ?_, governance_gate_ok i store govProof payload key cfg loaded passed⟩
    rw [governanceGate, loaded, empty] at passed
    cases passed
  · intro passes
    rw [governanceGate]
    cases loaded : loadGovernance store with
    | none => rfl
    | some cfg =>
        obtain ⟨present, proof, decoded, verified⟩ := passes cfg loaded
        dsimp only at decoded verified ⊢
        rw [if_neg (fun empty => present (List.isEmpty_iff.mp empty)), decoded]
        dsimp only
        rw [verified]

theorem effect_checks_split (store : σ) (tx : TxBody) (i : Nat) :
    EffectChecks store tx i ↔ PlainChecks store tx i ∧ ProofPasses store tx := by
  rw [EffectChecks, PlainChecks, ProofPasses, governanceAction]
  cases tx.call with
  | upgradeCrypto targetHeight sigAlgo hashAlgo govProof =>
      simp only [governance_gate_iff i store upgradeCryptoKey, Option.some.injEq, forall_eq', and_assoc]
  | registerAttestCoordinator jobId coordinators govProof =>
      simp only [governance_gate_iff i store (attestAuthKey jobId), Option.some.injEq, forall_eq', true_and]
  | setGovernance configCbor govProof =>
      dsimp only
      cases StateCbor.governanceConfig.decode configCbor with
      | error e => simp only [reduceCtorEq, false_and, exists_false]
      | ok newCfg =>
          simp only [governance_gate_iff i store governanceKey, Except.ok.injEq, exists_eq_left', Option.some.injEq, forall_eq']
  | _ => simp only [reduceCtorEq, false_implies, implies_true, and_true]

def PlainAllowed (header : BlockHeader) (store : σ) (txs : List TxBody) : Prop :=
  ∀ (i : Nat) (tx : TxBody), txs[i]? = some tx → PlainChecks (effectsWritten header store (txs.take i)) tx i

-- Each proof is read against the config that the txs before it leave in force.
def ProofsPass (header : BlockHeader) (store : σ) (txs : List TxBody) : Prop :=
  ∀ (i : Nat) (tx : TxBody), txs[i]? = some tx → ProofPasses (effectsWritten header store (txs.take i)) tx

theorem effects_allowed_split (header : BlockHeader) (store : σ) (txs : List TxBody) :
    EffectsAllowed header store 0 txs ↔ PlainAllowed header store txs ∧ ProofsPass header store txs := by
  simp only [EffectsAllowed, effect_checks_split, Nat.zero_add]
  constructor
  · exact fun all => ⟨fun i tx found => (all i tx found).1, fun i tx found => (all i tx found).2⟩
  · exact fun ⟨plain, proofs⟩ i tx found => ⟨plain i tx found, proofs i tx found⟩

structure PassesBut (store : σ) (block : Block) (reward : U128) : Prop where
  first : FirstPass store block
  spends : SpendsPass store block.body.txs
  plain : PlainAllowed block.header store block.body.txs
  coinbase : balanceAfter store (.fromCoinbase block.header.coinbase) block.body.txs + reward.toNat +
    (block.body.txs.map fun tx => tx.feeSat.toNat).sum < 2 ^ 128

theorem accepted_iff_proofs (store : σ) (block : Block) (reward : U128) :
    (applyBlock store block reward).2.isOk = true ↔
      PassesBut store block reward ∧ ProofsPass block.header store block.body.txs := by
  rw [accepted_iff_applicable]
  constructor
  · rintro ⟨⟨checked, effects, coinbase⟩, spends⟩
    obtain ⟨plain, proofs⟩ := (effects_allowed_split ..).mp effects
    exact ⟨⟨⟨checked, by omega⟩, spends, plain, coinbase⟩, proofs⟩
  · rintro ⟨⟨first, spends, plain, coinbase⟩, proofs⟩
    exact ⟨⟨first.1, (effects_allowed_split ..).mpr ⟨plain, proofs⟩, coinbase⟩, spends⟩

theorem passes_but_iff_runs (store : σ) (block : Block) (reward : U128) :
    PassesBut store block reward ↔
      PlainAllowed block.header store block.body.txs ∧
        ∃ fees staged spent, validateAll store block.body.witnesses 0 block.body.txs.zipIdx = .ok (fees, staged) ∧
          runSteps applyStaged store staged = (spent, .ok ()) ∧
          (Accounts.loadOrDefault spent (.fromCoinbase block.header.coinbase)).balance.toNat + reward.toNat +
            fees.toNat < 2 ^ 128 := by
  have names : block.body.txs.zipIdx.map Prod.fst = block.body.txs := List.zipIdx_map_fst ..
  constructor
  · rintro ⟨first, spends, plain, coinbase⟩
    obtain ⟨⟨fees, staged⟩, valid⟩ := (first_pass_iff store block).mpr first
    obtain ⟨all, feesValue⟩ := validate_block_ok store block fees staged valid
    rw [← names] at spends
    obtain ⟨spent, spend⟩ := (spends_iff store _ _ staged all).mpr spends
    refine ⟨plain, fees, staged, spent, valid, spend, ?_⟩
    rwa [spends_balance store store spent _ _ staged all spend, names, feesValue]
  · rintro ⟨plain, fees, staged, spent, valid, spend, coinbase⟩
    obtain ⟨all, feesValue⟩ := validate_block_ok store block fees staged valid
    have spends := (spends_iff store _ _ staged all).mp ⟨spent, spend⟩
    rw [spends_balance store store spent _ _ staged all spend, feesValue] at coinbase
    rw [names] at spends coinbase
    exact ⟨(first_pass_iff store block).mp ⟨_, valid⟩, spends, plain, coinbase⟩

omit [HashFns] in
theorem plain_checks_same (a b : σ) (x y : TxBody) (i : Nat) (tx : SameTx x y) (same : SameLedger a b) :
    PlainChecks a x i ↔ PlainChecks b y i := by
  obtain ⟨fields, call⟩ := tx
  have committed := same_committed_of_hash_call x.call y.call call
  have sender : x.fromAccount = y.fromAccount := by rw [fields]
  have authorized : ∀ jobId, attestAuthorized i a jobId y.fromAccount = attestAuthorized i b jobId y.fromAccount := fun jobId =>
    same_ledger_lockstep.attest_authorized i a b same jobId y.fromAccount
  rw [PlainChecks, PlainChecks, sender]
  generalize x.call = callX at committed
  generalize y.call = callY at committed
  cases committed with
  | attestRound jobId roundId modelHash dpEpsilonMilli => simp only [authorized]
  | attestPedigree jobId lotId supplier cageCode attestationAuthority => simp only [authorized]
  | _ => rfl

omit [HashFns] [SigFns] in
theorem written_same (header : BlockHeader) (store : σ) (xs ys : List TxBody) (txs : List.Forall₂ SameTx xs ys) :
    SameLedger (effectsWritten header store xs) (effectsWritten header store ys) := by
  have written := same_ledger_writes header store store xs ys txs (same_ledger_refl store)
  rwa [List.foldl_map, List.foldl_map] at written

omit [HashFns] in
theorem plain_allowed_same (header : BlockHeader) (store : σ) (xs ys : List TxBody) (txs : List.Forall₂ SameTx xs ys) :
    PlainAllowed header store xs ↔ PlainAllowed header store ys := by
  refine forall_congr' fun i => ?_
  by_cases inside : i < xs.length
  · have insideY : i < ys.length := txs.length_eq ▸ inside
    have earlier := written_same header store (xs.take i) (ys.take i) (List.forall₂_take i txs)
    rw [List.getElem?_eq_getElem inside, List.getElem?_eq_getElem insideY]
    simp only [Option.some.injEq, forall_eq']
    exact plain_checks_same _ _ _ _ i (txs.get inside insideY) earlier
  · rw [List.getElem?_eq_none (Nat.not_lt.mp inside), List.getElem?_eq_none (txs.length_eq ▸ Nat.not_lt.mp inside)]
    simp only [reduceCtorEq, false_implies, implies_true]

theorem passes_but_same (store : σ) (a b : Block) (reward : U128) (same : SameBlocks a b) :
    PassesBut store a reward ↔ PassesBut store b reward := by
  rw [passes_but_iff_runs, passes_but_iff_runs, validate_same_blocks store a b same, same.header,
    plain_allowed_same b.header store a.body.txs b.body.txs same.txs]

theorem accepted_same_result_iff (store finalA finalB : σ) (a b : Block) (reward : U128) (outA outB : ApplyOutput)
    (same : SameBlocks a b) (appliedA : applyBlock store a reward = (finalA, .ok outA))
    (appliedB : applyBlock store b reward = (finalB, .ok outB)) :
    outA = outB ∧ SameContents finalA finalB ↔ ∀ jobId, lastRegistered jobId a.body.txs = lastRegistered jobId b.body.txs := by
  have outcomeA := apply_block_outcome store a reward
  have outcomeB := apply_block_outcome store b reward
  rw [appliedA] at outcomeA
  rw [appliedB] at outcomeB
  cases outcomeA with
  | accepted fees minted staged spent affected paid valid spend effects coinbase =>
      cases outcomeB with
      | accepted fees' minted' staged' spent' affected' paid' valid' spend' effects' coinbase' =>
          rw [validate_same_blocks store a b same, valid'] at valid
          obtain ⟨rfl, rfl⟩ := Prod.mk.inj (Except.ok.inj valid)
          obtain rfl := (Prod.mk.inj (spend'.symm.trans spend)).1
          constructor
          · rintro ⟨_, contents⟩ jobId
            have read := contents .metadata (attestAuthKey jobId)
            rw [epilogue_authority a.header affected paid reward fees' minted _ coinbase,
              epilogue_authority b.header affected' paid' reward fees' minted' _ coinbase'] at read
            exact orders_of_registries _ affected affected' a b same effects effects' jobId read
          · intro orders
            have contents := contents_of_orders _ affected affected' a b same effects effects' orders
            obtain ⟨paidB, coinbaseB, paidContents⟩ := pay_coinbase_same a.header affected affected' paid reward fees'
              minted contents coinbase
            rw [same.header, coinbase'] at coinbaseB
            obtain ⟨rfl, rfl⟩ := Prod.mk.inj (Except.ok.inj coinbaseB)
            have final := epilogue_same a.header paid paid' (blockReflection a fees' minted') paidContents
            rw [block_reflection_same a b fees' minted' same, same.header] at final
            rw [block_reflection_same a b fees' minted' same, same.header, same.txs.length_eq, StateStore.root_ext _ _ final]
            exact ⟨rfl, final⟩

def SameEffects (store : σ) (a b : Block) (reward : U128) : Prop :=
  PassesBut store a reward →
    (ProofsPass a.header store a.body.txs ↔ ProofsPass b.header store b.body.txs) ∧
      (ProofsPass a.header store a.body.txs → ∀ jobId, lastRegistered jobId a.body.txs = lastRegistered jobId b.body.txs)

theorem same_effects_of_result (store : σ) (a b : Block) (reward : U128) (same : SameBlocks a b)
    (result : SameResult store a b reward) : SameEffects store a b reward := by
  intro passesA
  have passesB := (passes_but_same store a b reward same).mp passesA
  have acceptedA := accepted_iff_proofs store a reward
  have acceptedB := accepted_iff_proofs store b reward
  rcases result with ⟨e, e', failedA, failedB⟩ | ⟨out, okA, okB, contents⟩
  · rw [failedA] at acceptedA
    rw [failedB] at acceptedB
    have blockedA : ¬ ProofsPass a.header store a.body.txs := fun proofs => by cases acceptedA.mpr ⟨passesA, proofs⟩
    have blockedB : ¬ ProofsPass b.header store b.body.txs := fun proofs => by cases acceptedB.mpr ⟨passesB, proofs⟩
    exact ⟨iff_of_false blockedA blockedB, fun proofs => absurd proofs blockedA⟩
  · rw [okA] at acceptedA
    rw [okB] at acceptedB
    refine ⟨iff_of_true (acceptedA.mp rfl).2 (acceptedB.mp rfl).2, fun _ => ?_⟩
    exact (accepted_same_result_iff store _ _ a b reward out out same (Prod.ext rfl okA) (Prod.ext rfl okB)).mp ⟨rfl, contents⟩

theorem same_result_of_effects (store : σ) (a b : Block) (reward : U128) (same : SameBlocks a b)
    (effects : SameEffects store a b reward) : SameResult store a b reward := by
  have acceptedA := accepted_iff_proofs store a reward
  have acceptedB := accepted_iff_proofs store b reward
  rw [← passes_but_same store a b reward same] at acceptedB
  by_cases passes : PassesBut store a reward
  · obtain ⟨agree, orders⟩ := effects passes
    by_cases proofs : ProofsPass a.header store a.body.txs
    · cases resultA : applyBlock store a reward with
      | mk finalA outcomeA =>
          cases resultB : applyBlock store b reward with
          | mk finalB outcomeB =>
              have okA := acceptedA.mpr ⟨passes, proofs⟩
              have okB := acceptedB.mpr ⟨passes, agree.mp proofs⟩
              rw [resultA] at okA
              rw [resultB] at okB
              cases outcomeA with
              | error e => cases okA
              | ok outA =>
                  cases outcomeB with
                  | error e => cases okB
                  | ok outB =>
                      obtain ⟨rfl, contents⟩ :=
                        (accepted_same_result_iff store finalA finalB a b reward outA outB same resultA resultB).mpr (orders proofs)
                      rw [SameResult, resultA, resultB]
                      exact .inr ⟨outA, rfl, rfl, contents⟩
    · obtain ⟨e, failed⟩ := error_of_not_ok _ fun ok => proofs (acceptedA.mp ok).2
      obtain ⟨e', failed'⟩ := error_of_not_ok _ fun ok => proofs (agree.mpr (acceptedB.mp ok).2)
      exact .inl ⟨e, e', failed, failed'⟩
  · obtain ⟨e, failed⟩ := error_of_not_ok _ fun ok => passes (acceptedA.mp ok).1
    obtain ⟨e', failed'⟩ := error_of_not_ok _ fun ok => passes (acceptedB.mp ok).1
    exact .inl ⟨e, e', failed, failed'⟩

-- The length of a signature is hashed as a u32; below 2^32 bytes the witnesses
-- are read back from their root as well.
theorem header_determines_result_iff (store : σ) (a b : Block) (reward : U128) (sameHeader : a.header = b.header)
    (txRootA : a.header.txRoot = a.body.txRoot) (txRootB : b.header.txRoot = b.body.txRoot)
    (witnessRootA : a.header.witnessRoot = a.body.witnessRoot) (witnessRootB : b.header.witnessRoot = b.body.witnessRoot)
    (collisionFree : CollisionFree (a.body.preimages ++ b.body.preimages))
    (shortA : a.body.ShortSigs) (shortB : b.body.ShortSigs) :
    SameResult store a b reward ↔ SameEffects store a b reward := by
  have same := same_blocks_of_roots a b sameHeader txRootA txRootB witnessRootA witnessRootB collisionFree shortA shortB
  exact ⟨same_effects_of_result store a b reward same, same_result_of_effects store a b reward same⟩

end

open Sample in
theorem stripped_proof_compared :
    let upgrade := fun govProof => (oneTx 1 0 (List.replicate 32 7) (.upgradeCrypto 9 3 1 govProof)).1
    let approved := upgrade (approve (upgradeCryptoGovPayload 9 3 1))
    PassesBut governed approved 0 ∧ ¬ SameEffects governed approved (upgrade []) 0 := by
  intro upgrade approved
  have taken : (applyBlock governed approved 0).2.isOk = true := by decide +kernel
  have refused : (applyBlock governed (upgrade []) 0).2.isOk = false := by decide +kernel
  refine ⟨((accepted_iff_proofs governed approved 0).mp taken).1, fun effects => ?_⟩
  have compared := header_determines_result_iff governed approved (upgrade []) 0 (by decide +kernel) (by decide +kernel)
    (by decide +kernel) (by decide +kernel) (by decide +kernel) (by decide +kernel)
    (by unfold BlockBody.ShortSigs; decide +kernel) (by unfold BlockBody.ShortSigs; decide +kernel)
  rcases compared.mpr effects with ⟨e, _, failed, _⟩ | ⟨out, _, succeeded, _⟩
  · rw [failed] at taken
    cases taken
  · rw [succeeded] at refused
    cases refused

open Sample in
theorem coordinator_order_not_in_header :
    let key := List.replicate 32 7
    let sender := AccountId.fromPubkey key
    let other := AccountId.fromPubkey (List.replicate 32 8)
    let jobId : Bytes 32 := .replicate 32 1
    let registration := fun coordinators => block (header 1 (.replicate 32 0) 1000 0)
      [signedTx 0 (.registerAttestCoordinator jobId coordinators []) 0 3 key (.inline key)]
    let a := registration [sender, other]
    let b := registration [other, sender]
    a.header = b.header ∧ a.header.txRoot = a.body.txRoot ∧ b.header.txRoot = b.body.txRoot ∧
      a.header.witnessRoot = a.body.witnessRoot ∧ b.header.witnessRoot = b.body.witnessRoot ∧
      CollisionFree (a.body.preimages ++ b.body.preimages) ∧ ¬ SameResult MemState.new a b 0 := by
  intro key sender other jobId registration a b
  refine ⟨by decide +kernel, by decide +kernel, by decide +kernel, by decide +kernel, by decide +kernel, by decide +kernel, ?_⟩
  · have okA : (applyBlock MemState.new a 0).2.toOption.isSome = true := by decide +kernel
    have apart : (applyBlock MemState.new a 0).1.get .metadata (attestAuthKey jobId) ≠
        (applyBlock MemState.new b 0).1.get .metadata (attestAuthKey jobId) := by decide +kernel
    intro same
    rcases same with ⟨e, e', failed, _⟩ | ⟨out, _, _, contents⟩
    · rw [failed] at okA
      cases okA
    · exact apart (contents .metadata (attestAuthKey jobId))

end PyGrove.State
