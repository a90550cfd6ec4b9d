import PyGrove.State.GovernanceGate

set_option autoImplicit false

namespace PyGrove.State

open Words Steps Events PyGrove.Core Crypto

structure Announcement where
  targetHeight : U64
  sigAlgo : U8
  hashAlgo : U8
deriving DecidableEq

def announcement (tx : TxBody) : Option Announcement :=
  match tx.call with
  | .upgradeCrypto targetHeight sigAlgo hashAlgo _ => some ⟨targetHeight, sigAlgo, hashAlgo⟩
  | _ => none

def Announcement.pending (asked : Announcement) (height : U64) : PendingCryptoUpgrade :=
  ⟨asked.targetHeight, asked.sigAlgo, asked.hashAlgo, height⟩

def Announcement.active (asked : Announcement) : ActiveCrypto := ⟨asked.sigAlgo, asked.hashAlgo, asked.targetHeight⟩

def NextHeight (a b : Block × U128) : Prop := b.1.header.height.toNat = a.1.header.height.toNat + 1

theorem heights_increase (run : List (Block × U128)) (consecutive : run.IsChain NextHeight) :
    run.Pairwise fun a b => a.1.header.height < b.1.header.height := by
  have increasing : run.IsChain fun a b => a.1.header.height.toNat < b.1.header.height.toNat :=
    consecutive.imp fun a b next => by
      rw [next]
      exact Nat.lt_succ_self _
  have trans : IsTrans (Block × U128) fun a b => a.1.header.height.toNat < b.1.header.height.toNat :=
    ⟨fun _ _ _ => Nat.lt_trans⟩
  exact increasing.pairwise.imp fun less => BitVec.lt_def.mpr less

theorem event_in_block (run : List (Block × U128)) (event : TxEvent) (member : event ∈ runEvents run) :
    ∃ call ∈ run, event.block = call.1 := by
  obtain ⟨call, inRun, inBlock⟩ := List.mem_flatMap.mp member
  obtain ⟨item, _, rfl⟩ := List.mem_map.mp inBlock
  exact ⟨call, inRun, rfl⟩

theorem heights_split (run : List (Block × U128)) (consecutive : run.IsChain NextHeight) (k : Nat) (call : Block × U128)
    (found : run[k]? = some call) :
    (∀ event ∈ runEvents (run.take (k + 1)), event.block.header.height ≤ call.1.header.height) ∧
      ∀ event ∈ runEvents (run.drop (k + 1)), call.1.header.height < event.block.header.height := by
  have increase := heights_increase run consecutive
  have split : run = run.take k ++ call :: run.drop (k + 1) := by
    obtain ⟨bound, atIndex⟩ := List.getElem?_eq_some_iff.mp found
    rw [← atIndex, List.getElem_cons_drop, List.take_append_drop]
  rw [split, List.pairwise_append, List.pairwise_cons] at increase
  obtain ⟨_, ⟨above, _⟩, below⟩ := increase
  constructor
  · intro event member
    obtain ⟨other, inRun, blockEq⟩ := event_in_block _ event member
    rw [List.take_add_one, found, Option.toList_some, List.mem_append, List.mem_singleton] at inRun
    rw [blockEq]
    rcases inRun with earlier | rfl
    · exact BitVec.le_of_lt (below other earlier call List.mem_cons_self)
    · exact BitVec.le_refl _
  · intro event member
    obtain ⟨other, inRun, blockEq⟩ := event_in_block _ event member
    rw [blockEq]
    exact above other inRun

section
variable {σ : Type} [StateStore σ] [StateCbor]

def loadPending (store : σ) : Option PendingCryptoUpgrade :=
  loadRecord StateCbor.pendingCryptoUpgrade store .metadata upgradeCryptoKey

theorem load_pending_same (a b : σ) (same : SameEntries a b) : loadPending a = loadPending b := by
  rw [loadPending, loadPending, loadRecord, loadRecord, same _ _ (governed_effect_key _ .upgradeCrypto)]

theorem announcement_write (header : BlockHeader) (tx : TxBody) (asked : Announcement) (announced : announcement tx = some asked) :
    effectWrite header tx =
      some (.metadata, upgradeCryptoKey, StateCbor.pendingCryptoUpgrade.encode (asked.pending header.height)) := by
  rw [announcement] at announced
  rw [effectWrite]
  generalize tx.call = call at announced ⊢
  cases call with
  | upgradeCrypto targetHeight sigAlgo hashAlgo govProof =>
      cases announced
      rfl
  | _ => cases announced

theorem pending_write_announces (header : BlockHeader) (tx : TxBody) (value : List U8)
    (writes : effectWrite header tx = some (.metadata, upgradeCryptoKey, value)) : (announcement tx).isSome = true := by
  rw [effectWrite] at writes
  rw [announcement]
  generalize tx.call = call at writes ⊢
  cases call with
  | upgradeCrypto targetHeight sigAlgo hashAlgo govProof => rfl
  | registerAttestCoordinator jobId coordinators govProof =>
      simp only [Option.some.injEq, Prod.mk.injEq, true_and] at writes
      exact absurd writes.1.symm (attest_auth_key_ne jobId upgradeCryptoKey (by decide))
  | setGovernance configCbor govProof =>
      dsimp only at writes
      split at writes
      · cases writes
      · simp only [Option.some.injEq, Prod.mk.injEq, true_and] at writes
        exact absurd writes.1 (by decide)
  | _ => cases writes

variable [HashFns] [SigFns]

theorem announced_pending (header : BlockHeader) (store next : σ) (tx : TxBody) (i : Nat) (asked : Announcement)
    (announced : announcement tx = some asked) (applied : applyEffect header store (tx, i) = .ok next) :
    loadPending next = some (asked.pending header.height) := by
  obtain ⟨_, rfl⟩ := (apply_effect_iff header store next tx i).mp applied
  rw [announcement_write header tx asked announced]
  exact load_record_save_self StateCbor.pendingCryptoUpgrade store .metadata upgradeCryptoKey _

theorem effect_keeps_pending (header : BlockHeader) (store next : σ) (tx : TxBody) (i : Nat)
    (other : announcement tx = none) (applied : applyEffect header store (tx, i) = .ok next) :
    loadPending next = loadPending store := by
  obtain ⟨_, rfl⟩ := (apply_effect_iff header store next tx i).mp applied
  have same : StateStore.get (writeTo store (effectWrite header tx)) .metadata upgradeCryptoKey =
      StateStore.get store .metadata upgradeCryptoKey := by
    by_contra changed
    obtain ⟨value, writes⟩ := changed_by_write header store tx .metadata upgradeCryptoKey changed
    have announces := pending_write_announces header tx value writes
    rw [other] at announces
    cases announces
  rw [loadPending, loadPending, loadRecord, loadRecord, same]

theorem due_activated (store : σ) (block : Block) (reward : U128) (asked : Announcement) (height : U64)
    (accepted : (applyBlock store block reward).2.isOk = true)
    (pending : loadPending (applyBlock store block reward).1 = some (asked.pending height))
    (due : block.header.height = asked.targetHeight) :
    loadActiveCrypto (applyBlock store block reward).1 = some asked.active := by
  have outcome := apply_block_outcome store block reward
  generalize applyBlock store block reward = result at outcome accepted pending ⊢
  cases outcome with
  | accepted fees minted staged spent affected paid valid spend effects coinbase =>
      generalize writeReflection block.header paid (blockReflection block fees minted) = written at pending ⊢
      dsimp only at pending ⊢
      have slot : loadPending written = some (asked.pending height) := by
        rw [← pending, activateUpgrade]
        split
        · rfl
        · split
          · rw [loadPending, loadPending, load_record_save_other]
            intro both
            exact absurd both.2 (by decide)
          · rfl
      have reached : (asked.pending height).targetHeight = block.header.height := due.symm
      rw [loadPending] at slot
      rw [activateUpgrade, slot]
      dsimp only
      rw [if_pos reached, loadActiveCrypto, load_record_save_self, due]
      rfl
  | _ => cases accepted

end

section
variable [StateCbor] [HashFns] [SigFns]

def RotationKept (start : MemState) (run : List (Block × U128)) : Prop :=
  ∀ (p : Nat) (event : TxEvent) (asked : Announcement), (runEvents run)[p]? = some event →
    announcement event.tx = some asked →
      ¬ asked.targetHeight < event.block.header.height ∧
        ((∃ q later, p < q ∧ (runEvents run)[q]? = some later ∧ (announcement later.tx).isSome = true ∧
            later.block.header.height ≤ asked.targetHeight) ∨
          ∀ k call, run[k]? = some call → call.1.header.height = asked.targetHeight →
            loadActiveCrypto (runCalls applyCall start (run.take (k + 1))) = some asked.active)

def TargetsAhead (run : List (Block × U128)) : Prop :=
  ∀ event ∈ runEvents run, ∀ asked, announcement event.tx = some asked →
    event.block.header.height ≤ asked.targetHeight

theorem pending_since (start : MemState) (run : List (Block × U128)) (accepted : AllAccepted start run) (p : Nat)
    (event : TxEvent) (asked : Announcement) (found : (runEvents run)[p]? = some event)
    (announced : announcement event.tx = some asked)
    (last : ∀ q later, p < q → (runEvents run)[q]? = some later → announcement later.tx = none) :
    loadPending (runCalls applyCall start run) = some (asked.pending event.block.header.height) := by
  have inside := (List.getElem?_eq_some_iff.mp found).1
  obtain ⟨next, stepped, seen⟩ := effect_state_at_step start run accepted p event found
  rw [← effect_state_at_end start run]
  refine effect_state_at_invariant (fun state => loadPending state = some (asked.pending event.block.header.height))
    (fun a b same held => (load_pending_same a b same).symm.trans held) start run accepted (p + 1) ?_ _ inside
    (Nat.le_refl _) ?_
  · exact (load_pending_same _ _ seen).symm.trans (announced_pending _ _ next event.tx event.index asked announced stepped)
  · intro q later after _ laterFound afterwards held applied
    have other := last q later after laterFound
    exact (effect_keeps_pending _ _ afterwards later.tx later.index other applied).trans held

theorem rotation_kept_iff (start : MemState) (run : List (Block × U128)) (accepted : AllAccepted start run)
    (consecutive : run.IsChain NextHeight) : RotationKept start run ↔ TargetsAhead run := by
  constructor
  · intro kept event member asked announced
    obtain ⟨p, found⟩ := List.getElem?_of_mem member
    exact BitVec.not_lt.mp (kept p event asked found announced).1
  · intro ahead p event asked found announced
    have inTime := ahead event (List.mem_of_getElem? found) asked announced
    refine ⟨BitVec.not_lt.mpr inTime, ?_⟩
    by_cases replaced : ∃ q later, p < q ∧ (runEvents run)[q]? = some later ∧ (announcement later.tx).isSome = true ∧
        later.block.header.height ≤ asked.targetHeight
    · exact .inl replaced
    · refine .inr fun k call atK due => ?_
      obtain ⟨upTo, beyond⟩ := heights_split run consecutive k call atK
      have events : runEvents run = runEvents (run.take (k + 1)) ++ runEvents (run.drop (k + 1)) := by
        rw [runEvents, runEvents, runEvents, eventsOf, eventsOf, eventsOf, ← List.flatMap_append, List.take_append_drop]
      have early : p < (runEvents (run.take (k + 1))).length := by
        by_contra late
        rw [events, List.getElem?_append_right (by omega)] at found
        have above := beyond event (List.mem_of_getElem? found)
        rw [due] at above
        exact absurd above (BitVec.not_lt.mpr inTime)
      have acceptedThen : AllAccepted start (run.take (k + 1)) := along_take applyCall _ start run (k + 1) accepted
      have pending : loadPending (runCalls applyCall start (run.take (k + 1))) =
          some (asked.pending event.block.header.height) := by
        refine pending_since start _ acceptedThen p event asked ?_ announced ?_
        · rw [← found, events, List.getElem?_append_left early]
        · intro q later after laterFound
          rw [← Option.not_isSome_iff_eq_none]
          intro announces
          have bound := (List.getElem?_eq_some_iff.mp laterFound).1
          refine replaced ⟨q, later, after, ?_, announces, ?_⟩
          · rw [events, List.getElem?_append_left bound, laterFound]
          · rw [← due]
            exact upTo later (List.mem_of_getElem? laterFound)
      have ok := along_at applyCall _ start run k call accepted atK
      rw [run_calls_take_succ applyCall start run k call atK] at pending ⊢
      exact due_activated _ call.1 call.2 asked event.block.header.height ok pending due

end

open Sample in
def upgradeRun (targetHeight : U64) : List (Block × U128) :=
  [(block (header 1 (.replicate 32 0) 1000 0) [], 0), oneTx 2 0 (List.replicate 32 7) (.upgradeCrypto targetHeight 3 1 []),
    (block (header 3 (.replicate 32 0) 3000 0) [], 0)]

open Sample in
theorem upgrade_in_time_kept : RotationKept MemState.new (upgradeRun 3) :=
  (rotation_kept_iff MemState.new (upgradeRun 3) (by unfold AllAccepted; decide +kernel)
    (by unfold NextHeight; decide)).mpr (by unfold TargetsAhead; decide +kernel)

open Sample in
theorem past_target_lost :
    AllAccepted MemState.new (upgradeRun 1) ∧ (upgradeRun 1).IsChain NextHeight ∧
      loadActiveCrypto (runCalls applyCall MemState.new (upgradeRun 1)) = none ∧
      ¬ RotationKept MemState.new (upgradeRun 1) := by
  refine ⟨by unfold AllAccepted; decide +kernel, by unfold NextHeight; decide, by decide +kernel, ?_⟩
  intro kept
  exact (kept 0 _ _ rfl rfl).1 (by decide)

end PyGrove.State
