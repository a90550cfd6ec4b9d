import PyGrove.State.BurntFees
import PyGrove.State.EffectRuns

set_option autoImplicit false

namespace PyGrove.State

open Words Steps PyGrove.Core Crypto

def bodyFees (block : Block) : ℕ := (block.body.txs.map fun tx => tx.feeSat.toNat).sum

def distinctSenders (block : Block) : ℕ := (block.body.txs.map TxBody.fromAccount).dedup.length

def blockRecord (block : Block) (reward : U128) : Reflection :=
  blockReflection block (BitVec.ofNat 128 (bodyFees block)) (BitVec.ofNat 128 (bodyFees block) + reward)

theorem block_key_inj (a b : U64) (same : blockKey a = blockKey b) : a = b :=
  le_bytes_word_inj a b (by decide) (List.reverse_injective (List.append_cancel_left same))

theorem latest_key_apart (height : U64) : latestKey ≠ blockKey height := by
  intro same
  have lengths := congrArg List.length same
  simp [latestKey, blockKey, ascii] at lengths

section
variable {σ : Type} [StateStore σ]

def SameReflections (a b : σ) : Prop := ∀ key, StateStore.get a .reflect key = StateStore.get b .reflect key

variable [StateCbor]

theorem same_reflections_load (a b : σ) (same : SameReflections a b) (height : U64) :
    loadReflectionAt a height = loadReflectionAt b height ∧ loadLatestReflection a = loadLatestReflection b := by
  simp only [loadReflectionAt, loadLatestReflection, loadRecord]
  rw [same, same]
  exact ⟨rfl, rfl⟩

theorem account_save_reflections (store : σ) (id : AccountId) (account : Account) :
    SameReflections (Accounts.save store id account) store := by
  intro key
  rw [Accounts.save, saveRecord, get_put_apart _ _ _ _ _ _ fun both => absurd both.1 (by decide)]

theorem activation_reflections (header : BlockHeader) (store : σ) : SameReflections (activateUpgrade header store) store := by
  intro key
  rw [activateUpgrade]
  split
  · rfl
  · split
    · rw [saveRecord, get_put_apart _ _ _ _ _ _ fun both => absurd both.1 (by decide)]
    · rfl

theorem write_reflection_load (header : BlockHeader) (store : σ) (reflection : Reflection) :
    loadLatestReflection (writeReflection header store reflection) = some reflection ∧
      ∀ height, loadReflectionAt (writeReflection header store reflection) height =
        if header.height = height then some reflection else loadReflectionAt store height := by
  have latest : loadLatestReflection (writeReflection header store reflection) = some reflection := by
    rw [loadLatestReflection, writeReflection, load_record_save_self]
  refine ⟨latest, ?_⟩
  intro height
  have off : ¬ (Subtree.reflect = Subtree.reflect ∧ latestKey = blockKey height) := fun both => latest_key_apart height both.2
  simp only [loadReflectionAt, writeReflection]
  rw [load_record_save_other _ _ _ _ _ _ _ _ off]
  by_cases here : header.height = height
  · rw [if_pos here, here, load_record_save_self]
  · rw [if_neg here, load_record_save_other _ _ _ _ _ _ _ _ fun both => here (block_key_inj _ _ both.2)]

variable [HashFns] [SigFns]

omit [HashFns] [SigFns] in
theorem effect_write_off_reflect (header : BlockHeader) (tx : TxBody) (sub : Subtree) (key value : List U8)
    (writes : effectWrite header tx = some (sub, key, value)) : sub ≠ .reflect := by
  simp only [effectWrite] at writes
  generalize tx.call = call at writes
  cases call with
  | setGovernance configCbor govProof =>
      dsimp only at writes
      split at writes
      · cases writes
      · cases writes
        decide
  | _ =>
      cases writes
      try decide

theorem effects_reflections (header : BlockHeader) (store : σ) (items : List (TxBody × Nat)) :
    SameReflections (runSteps (applyEffect header) store items).1 store := by
  apply run_steps_invariant (applyEffect header) (fun state => SameReflections state store)
  · exact fun _ => rfl
  · intro item _ state next kept applied key
    rw [apply_effect_ok header state next item.1 item.2 applied, ← kept key]
    cases writes : effectWrite header item.1 with
    | none => rfl
    | some write =>
        obtain ⟨sub, written, value⟩ := write
        exact get_put_apart _ _ _ _ _ _ fun both => effect_write_off_reflect header item.1 sub written value writes both.1

theorem rejected_reflections (store final : σ) (block : Block) (reward : U128) (e : ApplyError)
    (rejected : applyBlock store block reward = (final, .error e)) : SameReflections final store := by
  have outcome := apply_block_outcome store block reward
  rw [rejected] at outcome
  have spends : ∀ staged spent result, runSteps applyStaged store staged = (spent, result) → SameReflections spent store := by
    intro staged spent result ran key
    have kept := spends_get store staged .reflect key (by decide)
    rwa [ran] at kept
  have effects : ∀ spent result, runSteps (applyEffect block.header) spent block.body.txs.zipIdx = (final, result) →
      SameReflections final spent := by
    intro spent result ran
    have kept := effects_reflections block.header spent block.body.txs.zipIdx
    rwa [ran] at kept
  cases outcome with
  | rejected e invalid => exact fun _ => rfl
  | spendFailed fees staged spent e valid spend => exact spends staged final _ spend
  | effectFailed fees staged spent affected e valid spend failed =>
      exact fun key => (effects spent _ failed key).trans (spends staged spent _ spend key)
  | coinbaseFailed fees staged spent affected e valid spend ran coinbase =>
      exact fun key => (effects spent _ ran key).trans (spends staged spent _ spend key)

structure Recorded (before after : σ) (block : Block) (reward : U128) : Prop where
  written : loadReflectionAt after block.header.height = some (blockRecord block reward)
  latest : loadLatestReflection after = some (blockRecord block reward)
  others : ∀ height, block.header.height ≠ height → loadReflectionAt after height = loadReflectionAt before height
  fees : bodyFees block + reward.toNat < 2 ^ 128

theorem accepted_recorded (store final : σ) (block : Block) (reward : U128) (out : ApplyOutput)
    (accepted : applyBlock store block reward = (final, .ok out)) : Recorded store final block reward := by
  have outcome := apply_block_outcome store block reward
  rw [accepted] at outcome
  cases outcome with
  | accepted fees minted staged spent affected paid valid spend effects coinbase =>
      obtain ⟨_, feesValue⟩ := validate_block_ok store block fees staged valid
      obtain ⟨mintedValue, _, _, paidEq⟩ := pay_coinbase_ok block.header affected paid reward fees minted coinbase
      have bound := minted.isLt
      have feesEq : BitVec.ofNat 128 (bodyFees block) = fees := by
        apply BitVec.eq_of_toNat_eq
        rw [BitVec.toNat_ofNat, bodyFees, ← feesValue, Nat.mod_eq_of_lt fees.isLt]
      have mintedEq : fees + reward = minted := by
        apply BitVec.eq_of_toNat_eq
        rw [BitVec.toNat_add, Nat.mod_eq_of_lt (by omega)]
        omega
      have record : blockReflection block fees minted = blockRecord block reward := by rw [blockRecord, feesEq, mintedEq]
      have before : SameReflections paid store := by
        intro key
        have spentKept := spends_get store staged .reflect key (by decide)
        have affectedKept := effects_reflections block.header spent block.body.txs.zipIdx key
        rw [spend] at spentKept
        rw [effects] at affectedKept
        rw [paidEq, account_save_reflections]
        exact affectedKept.trans spentKept
      have activated := same_reflections_load _ _
        (activation_reflections block.header (writeReflection block.header paid (blockReflection block fees minted)))
      obtain ⟨latest, heights⟩ := write_reflection_load block.header paid (blockReflection block fees minted)
      refine ⟨?_, ?_, ?_, ?_⟩
      · rw [(activated _).1, heights, if_pos rfl, record]
      · rw [(activated 0).2, latest, record]
      · intro height apart
        rw [(activated _).1, heights, if_neg apart, (same_reflections_load paid store before height).1]
      · rw [bodyFees, ← feesValue]
        omega

end

end PyGrove.State
