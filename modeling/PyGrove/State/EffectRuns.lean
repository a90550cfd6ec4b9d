import PyGrove.Lib.Events
import PyGrove.State.Ownership

set_option autoImplicit false

namespace PyGrove.State

open Words Steps Events PyGrove.Core Crypto

-- The entries that only the effects of txs write. The activation of an upgrade
-- writes beside them, everything else writes to other subtrees.
def EffectKey (sub : Subtree) (key : List U8) : Prop := sub = .attest ∨ sub = .metadata ∧ key ≠ activeCryptoKey

structure TxEvent where
  block : Block
  index : Nat
  tx : TxBody

def blockEvents (call : Block × U128) : List TxEvent :=
  call.1.body.txs.zipIdx.map fun item => ⟨call.1, item.2, item.1⟩

def runEvents (run : List (Block × U128)) : List TxEvent := eventsOf blockEvents run

theorem length_block_events (call : Block × U128) : (blockEvents call).length = call.1.body.txs.length := by
  rw [blockEvents, List.length_map, List.length_zipIdx]

theorem block_events_get (call : Block × U128) (p : Nat) (event : TxEvent) (found : (blockEvents call)[p]? = some event) :
    event.block = call.1 ∧ event.index = p ∧ call.1.body.txs[p]? = some event.tx := by
  rw [blockEvents, List.getElem?_map, Option.map_eq_some_iff] at found
  obtain ⟨item, present, rfl⟩ := found
  rw [List.getElem?_zipIdx, Option.map_eq_some_iff] at present
  obtain ⟨tx, atPosition, rfl⟩ := present
  exact ⟨rfl, Nat.zero_add p, atPosition⟩

section
variable {σ : Type} [StateStore σ]

def SameEntries (a b : σ) : Prop := ∀ sub key, EffectKey sub key → StateStore.get a sub key = StateStore.get b sub key

theorem same_entries_refl (store : σ) : SameEntries store store := fun _ _ _ => rfl

theorem same_entries_trans (a b c : σ) (first : SameEntries a b) (second : SameEntries b c) : SameEntries a c :=
  fun sub key entry => (first sub key entry).trans (second sub key entry)

theorem effect_key_off_accounts (sub : Subtree) (key : List U8) (entry : EffectKey sub key) : sub ≠ .accounts := by
  rcases entry with rfl | ⟨rfl, _⟩ <;> decide

theorem effect_key_off_reflect (sub : Subtree) (key : List U8) (entry : EffectKey sub key) : sub ≠ .reflect := by
  rcases entry with rfl | ⟨rfl, _⟩ <;> decide

theorem get_put_apart (store : σ) (sub sub' : Subtree) (key key' value : List U8) (apart : ¬ (sub = sub' ∧ key = key')) :
    StateStore.get (StateStore.put store sub key value) sub' key' = StateStore.get store sub' key' := by
  rw [StateStore.get_put, if_neg apart]

variable [StateCbor]

theorem spends_get (store : σ) (staged : List StagedTx) (sub : Subtree) (key : List U8) (apart : sub ≠ .accounts) :
    StateStore.get (runSteps applyStaged store staged).1 sub key = StateStore.get store sub key := by
  apply run_steps_invariant applyStaged (fun state => StateStore.get state sub key = StateStore.get store sub key)
  · rfl
  · intro tx _ state next kept applied
    obtain ⟨required, _, _, _, debited, debitedEq, nextEq⟩ := apply_staged_ok state next tx applied
    rw [nextEq, debitedEq, Accounts.save, saveRecord, get_put_apart _ _ _ _ _ _ fun both => apart both.1.symm,
      Accounts.save, saveRecord, get_put_apart _ _ _ _ _ _ fun both => apart both.1.symm, kept]

theorem finish_same_entries (header : BlockHeader) (store paid : σ) (reward fees minted : U128) (reflection : Reflection)
    (coinbase : payCoinbase header store reward fees = .ok (paid, minted)) :
    SameEntries store (activateUpgrade header (writeReflection header paid reflection)) := by
  intro sub key entry
  obtain ⟨_, balance, _, paidEq⟩ := pay_coinbase_ok header store paid reward fees minted coinbase
  have offAccounts := effect_key_off_accounts sub key entry
  have offReflect := effect_key_off_reflect sub key entry
  have written : StateStore.get (writeReflection header paid reflection) sub key = StateStore.get store sub key := by
    rw [writeReflection, saveRecord, saveRecord, get_put_apart _ _ _ _ _ _ fun both => offReflect both.1.symm,
      get_put_apart _ _ _ _ _ _ fun both => offReflect both.1.symm, paidEq, Accounts.save, saveRecord,
      get_put_apart _ _ _ _ _ _ fun both => offAccounts both.1.symm]
  rw [← written, activateUpgrade]
  split
  · rfl
  · split
    · rw [saveRecord, get_put_apart]
      rintro ⟨rfl, rfl⟩
      rcases entry with other | ⟨_, other⟩
      · cases other
      · exact other rfl
    · rfl

variable [HashFns] [SigFns]

def spentState (store : σ) (block : Block) : σ :=
  match validateAll store block.body.witnesses 0 block.body.txs.zipIdx with
  | .error _ => store
  | .ok (_, staged) => (runSteps applyStaged store staged).1

def effectState (store : σ) (block : Block) (p : Nat) : σ :=
  (runSteps (applyEffect block.header) (spentState store block) (block.body.txs.zipIdx.take p)).1

def EffectStep (event : TxEvent) (before after : σ) : Prop :=
  applyEffect event.block.header before (event.tx, event.index) = .ok after

theorem accepted_block_effects (store : σ) (block : Block) (reward : U128)
    (accepted : (applyBlock store block reward).2.isOk = true) :
    SameEntries store (effectState store block 0) ∧
      (∀ (p : Nat) (tx : TxBody), block.body.txs[p]? = some tx →
        applyEffect block.header (effectState store block p) (tx, p) = .ok (effectState store block (p + 1))) ∧
      SameEntries (effectState store block block.body.txs.length) (applyBlock store block reward).1 := by
  have outcome := apply_block_outcome store block reward
  generalize applyBlock store block reward = result at outcome accepted
  cases outcome with
  | accepted fees minted staged spent affected paid valid spend effects coinbase =>
      have spentEq : spentState store block = spent := by
        rw [spentState, valid]
        dsimp only
        rw [spend]
      have affectedEq : effectState store block block.body.txs.length = affected := by
        rw [effectState, spentEq, List.take_of_length_le (by rw [List.length_zipIdx]), effects]
      refine ⟨?_, ?_, ?_⟩
      · intro sub key entry
        have kept := spends_get store staged sub key (effect_key_off_accounts sub key entry)
        rw [spend] at kept
        rw [effectState, spentEq]
        exact kept.symm
      · intro p tx found
        rw [effectState, effectState, spentEq]
        apply run_steps_finished_at (applyEffect block.header) spent affected _ p (tx, p) effects
        rw [List.getElem?_zipIdx, found, Option.map_some, Nat.zero_add]
      · rw [affectedEq]
        exact finish_same_entries block.header affected paid reward fees minted _ coinbase
  | _ => cases accepted

end

section
variable [StateCbor] [HashFns] [SigFns]

def effectStateAt (start : MemState) (run : List (Block × U128)) (p : Nat) : MemState :=
  stateAt applyCall blockEvents (fun state call => effectState state call.1) start run p

theorem accepted_decomposes (start : MemState) (run : List (Block × U128)) (accepted : AllAccepted start run) :
    Along applyCall (Decomposes applyCall blockEvents (fun state call => effectState state call.1) SameEntries EffectStep)
      start run := by
  refine along_mono applyCall _ _ start run ?_ accepted
  intro state call _ ok
  obtain ⟨enter, step, leave⟩ := accepted_block_effects state call.1 call.2 ok
  refine ⟨enter, ?_, ?_⟩
  · intro p event found
    obtain ⟨blockEq, indexEq, position⟩ := block_events_get call p event found
    rw [EffectStep, blockEq, indexEq]
    exact step p event.tx position
  · rw [length_block_events]
    exact leave

theorem effect_state_at_end (start : MemState) (run : List (Block × U128)) :
    effectStateAt start run (runEvents run).length = runCalls applyCall start run :=
  state_at_end start run

theorem effect_state_at_start (start : MemState) (run : List (Block × U128)) (accepted : AllAccepted start run) :
    SameEntries start (effectStateAt start run 0) :=
  state_at_start same_entries_refl same_entries_trans start run (accepted_decomposes start run accepted)

theorem effect_state_at_step (start : MemState) (run : List (Block × U128)) (accepted : AllAccepted start run) (p : Nat)
    (event : TxEvent) (found : (runEvents run)[p]? = some event) :
    ∃ next, EffectStep event (effectStateAt start run p) next ∧ SameEntries next (effectStateAt start run (p + 1)) :=
  state_at_step same_entries_refl same_entries_trans start run (accepted_decomposes start run accepted) p event found

theorem effect_state_at_invariant (inv : MemState → Prop) (respects : ∀ a b, SameEntries a b → inv a → inv b)
    (start : MemState) (run : List (Block × U128)) (accepted : AllAccepted start run) (first : Nat)
    (initial : inv (effectStateAt start run first)) (last : Nat) (ordered : first ≤ last)
    (inside : last ≤ (runEvents run).length)
    (preserved : ∀ p event, first ≤ p → p < last → (runEvents run)[p]? = some event →
      ∀ next, inv (effectStateAt start run p) → EffectStep event (effectStateAt start run p) next → inv next) :
    inv (effectStateAt start run last) :=
  state_at_invariant same_entries_refl same_entries_trans inv respects start run (accepted_decomposes start run accepted)
    first initial last ordered inside preserved

theorem event_position (start : MemState) (run : List (Block × U128)) (p : Nat) (event : TxEvent)
    (found : (runEvents run)[p]? = some event) :
    ∃ k call, run[k]? = some call ∧ event.block = call.1 ∧ call.1.body.txs[event.index]? = some event.tx ∧
      effectStateAt start run p = effectState (runCalls applyCall start (run.take k)) call.1 event.index := by
  obtain ⟨k, call, i, atK, atI, same⟩ := state_at_position applyCall blockEvents
    (fun state call => effectState state call.1) start run p event found
  obtain ⟨blockEq, rfl, position⟩ := block_events_get call i event atI
  exact ⟨k, call, atK, blockEq, position, same⟩

theorem entry_origin (start : MemState) (run : List (Block × U128)) (accepted : AllAccepted start run) (sub : Subtree)
    (key : List U8) (entry : EffectKey sub key) (p : Nat) (inside : p ≤ (runEvents run).length) :
    StateStore.get (effectStateAt start run p) sub key = StateStore.get start sub key ∨
      ∃ q event value, q < p ∧ (runEvents run)[q]? = some event ∧
        effectWrite event.block.header event.tx = some (sub, key, value) ∧
        StateStore.get (effectStateAt start run p) sub key = some value := by
  induction p with
  | zero => exact .inl (effect_state_at_start start run accepted sub key entry).symm
  | succ p ih =>
      have found : (runEvents run)[p]? = some (runEvents run)[p] := List.getElem?_eq_getElem inside
      obtain ⟨next, stepped, seen⟩ := effect_state_at_step start run accepted p _ found
      have written := apply_effect_ok _ _ next _ _ stepped
      rw [← seen sub key entry, written]
      by_cases same : StateStore.get (writeTo (effectStateAt start run p)
          (effectWrite (runEvents run)[p].block.header (runEvents run)[p].tx)) sub key =
          StateStore.get (effectStateAt start run p) sub key
      · rw [same]
        rcases ih (Nat.le_of_succ_le inside) with untouched | ⟨q, event, value, less, atQ, writes, held⟩
        · exact .inl untouched
        · exact .inr ⟨q, event, value, Nat.lt_succ_of_lt less, atQ, writes, held⟩
      · obtain ⟨value, writes⟩ := changed_by_write _ _ _ sub key same
        refine .inr ⟨p, _, value, Nat.lt_succ_self p, found, writes, ?_⟩
        rw [writes, writeTo, StateStore.get_put, if_pos ⟨rfl, rfl⟩]

end

end PyGrove.State
