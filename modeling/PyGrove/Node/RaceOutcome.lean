import PyGrove.Node.LinearChain

set_option autoImplicit false

namespace PyGrove.Node

open Words Steps Frames Interleave PyGrove.Core Crypto PyGrove.Consensus PyGrove.State

def Appendable (call : Submission) : Prop := call.write = .done ∧ (blockCodec.encode call.block).length < 2 ^ 32

inductive StepEffect (call : Submission) (node : NodeState) (phase : Phase) : NodeState × Phase → Prop where
  | quiet (after : NodeState) (next : Phase) (sameStore : after.store = node.store)
      (kept : phase.holding = true → next.holding = true) (owed : phase.owed ≤ next.owed) :
      StepEffect call node phase (after, next)
  | logged (tip : Option Block) (reward : U128) (after : NodeState) (appending : phase = .appending tip reward)
      (store : after.store = (node.store.append call.block .done).1) : StepEffect call node phase (after, .appended reward)

def Settled (race : Race NodeState Phase) : Prop := race.left.holding = false ∧ race.right.holding = false

theorem settled_of_returned (race : Race NodeState Phase) (left : race.left.result.isSome)
    (right : race.right.result.isSome) : Settled race := by
  have idle : ∀ phase : Phase, phase.result.isSome → phase.holding = false := by
    intro phase returned
    cases phase <;> first | rfl | cases returned
  exact ⟨idle race.left left, idle race.right right⟩

section
variable [HashFns]

-- A block in hand that can no longer end up one above the tip, a log that is
-- already broken, or rewards that the counter cannot hold.
inductive Doomed (base : Nat) (a : Submission) (k : Phase) (b : Submission) (l : Phase) (log : List Block) : Prop where
  | unlinked (broken : ¬ Linear log)
  | lateLeft (tip : Block) (inHand : k.holding = true) (last : log.getLast? = some tip)
      (late : a.block.header.height.toNat ≤ tip.header.height.toNat)
  | lateRight (tip : Block) (inHand : l.holding = true) (last : log.getLast? = some tip)
      (late : b.block.header.height.toNat ≤ tip.header.height.toNat)
  | twins (leftInHand : k.holding = true) (rightInHand : l.holding = true)
      (same : a.block.header.height = b.block.header.height)
  | overflow (tooMuch : 2 ^ 128 ≤ base + k.owed + l.owed)

theorem doomed_swap (base : Nat) (a b : Submission) (k l : Phase) (log : List Block) (doomed : Doomed base a k b l log) :
    Doomed base b l a k log := by
  cases doomed with
  | unlinked broken => exact .unlinked broken
  | lateLeft tip inHand last late => exact .lateRight tip inHand last late
  | lateRight tip inHand last late => exact .lateLeft tip inHand last late
  | twins left right same => exact .twins right left same.symm
  | overflow tooMuch => exact .overflow (by omega)

theorem disturbed_doomed (config : NodeConfig) (start : List Block) (base : Nat) (a b : Submission) (tip : Option Block)
    (minted reward : U128) (l : Phase) (node : NodeState) (log : List Block)
    (calm : Calm config start base a (.applying tip minted reward) b l node log) (appendable : Appendable a)
    (disturbed : ¬ Undisturbed node a l tip minted reward) :
    Doomed base a (.writeMinted tip minted reward) b l log := by
  obtain ⟨_, height⟩ := calm.left.passed tip rfl
  by_cases current : log.getLast? = tip
  · by_cases rival : l.holding = true
    · -- Both blocks were checked against the tip that is still there.
      obtain ⟨read, _, _⟩ := calm.right.current rival
      have rivalHeight := (calm.right.passed log.getLast? read).2
      rw [current, ← height] at rivalHeight
      exact .twins rfl rival rivalHeight.symm
    · by_cases room : minted.toNat + reward.toNat < 2 ^ 128
      · -- What is left is the height that wraps to zero.
        have wraps : ∃ parent, tip = some parent ∧ parent.header.height = BitVec.allOnes 64 := by
          by_contra none
          apply disturbed
          refine ⟨⟨by rw [calm.holds.tip, current], by simpa using rival⟩, room, appendable, fun parent member top => ?_⟩
          exact none ⟨parent, member, top⟩
        obtain ⟨parent, isTip, top⟩ := wraps
        rw [isTip, tipView, top] at height
        have zero : a.block.header.height = 0 := by
          dsimp only at height
          rw [height]
          decide
        exact .lateLeft parent rfl (by rw [current, isTip]) (by rw [zero]; exact Nat.zero_le _)
      · have latest : minted = node.mintedSoFar := by
          rcases calm.left.fresh minted rfl (by rw [current]; rfl) with held | same
          · exact absurd held rival
          · exact same
        have counted := calm.counted
        have owed : (Phase.writeMinted tip minted reward).owed = reward.toNat := rfl
        have none : (Phase.applying tip minted reward).credited = 0 := rfl
        have rivalOwed := l.credited_le_owed
        rw [← latest, none] at counted
        exact .overflow (by rw [owed]; omega)
  · -- The log has grown since the check, so the height is taken.
    cases last : log.getLast? with
    | none =>
        have empty := List.getLast?_eq_none_iff.mp last
        cases tip with
        | none => exact absurd last current
        | some parent =>
            have member := calm.left.known (some parent) rfl parent rfl
            rw [empty] at member
            cases member
    | some top =>
        refine .lateLeft top rfl last ?_
        cases tip with
        | none =>
            have zero : a.block.header.height = 0 := height
            rw [zero]
            exact Nat.zero_le _
        | some parent =>
            have member := calm.left.known (some parent) rfl parent rfl
            have above := view_height_le config parent a.block height
            rcases linear_below_tip log top parent calm.linear last member with same | lower
            · exact absurd (by rw [last, same]) current
            · omega

theorem doomed_logged (base : Nat) (a b : Submission) (tip : Option Block) (reward : U128) (l : Phase) (log : List Block)
    (doomed : Doomed base a (.appending tip reward) b l log) :
    Doomed base a (.appended reward) b l (log ++ [a.block]) := by
  by_cases linear : Linear (log ++ [a.block])
  · have parts := (linear_snoc log a.block).mp linear
    have last : (log ++ [a.block]).getLast? = some a.block := List.getLast?_concat
    cases doomed with
    | unlinked broken => exact absurd parts.1 broken
    | lateLeft top inHand found late =>
        have above := (parts.2 top found).1
        omega
    | lateRight top inHand found late =>
        have above := (parts.2 top found).1
        exact .lateRight a.block inHand last (by omega)
    | twins left right same => exact .lateRight a.block right last (by rw [same])
    | overflow tooMuch => exact .overflow tooMuch
  · exact .unlinked linear

theorem doomed_quiet (base : Nat) (a b : Submission) (k next l : Phase) (log : List Block)
    (doomed : Doomed base a k b l log) (kept : k.holding = true → next.holding = true) (owed : k.owed ≤ next.owed) :
    Doomed base a next b l log := by
  cases doomed with
  | unlinked broken => exact .unlinked broken
  | lateLeft tip inHand last late => exact .lateLeft tip (kept inHand) last late
  | lateRight tip inHand last late => exact .lateRight tip inHand last late
  | twins left right same => exact .twins (kept left) right same
  | overflow tooMuch => exact .overflow (by omega)

def LinearOutcome (start : List Block) (base : Nat) (a b : Submission) (race : Race NodeState Phase) : Prop :=
  ∃ log, race.shared.store.Holds log ∧ Linear log ∧
    (∃ added, log = start ++ added ∧ added.Perm (race.left.logged a ++ race.right.logged b)) ∧
    race.shared.mintedSoFar.toNat = base + race.left.paid + race.right.paid

theorem calm_outcome (config : NodeConfig) (start : List Block) (base : Nat) (a b : Submission)
    (race : Race NodeState Phase) (log : List Block)
    (calm : Calm config start base a race.left b race.right race.shared log) (settled : Settled race) :
    LinearOutcome start base a b race := by
  refine ⟨log, calm.holds, calm.linear, calm.added, ?_⟩
  rw [calm.counted, (race.left.paid_settled settled.1).1, (race.right.paid_settled settled.2).1]

theorem doomed_outcome (start : List Block) (base : Nat) (a b : Submission) (race : Race NodeState Phase)
    (log : List Block) (holds : race.shared.store.Holds log) (doomed : Doomed base a race.left b race.right log)
    (settled : Settled race) : ¬ LinearOutcome start base a b race := by
  intro ⟨found, foundHolds, linear, _, counted⟩
  have same := ChainStore.holds_unique race.shared.store found log foundHolds holds
  cases doomed with
  | unlinked broken => exact broken (by rw [← same]; exact linear)
  | lateLeft tip inHand last late =>
      rw [settled.1] at inHand
      cases inHand
  | lateRight tip inHand last late =>
      rw [settled.2] at inHand
      cases inHand
  | twins left right height =>
      rw [settled.1] at left
      cases left
  | overflow tooMuch =>
      have bound := race.shared.mintedSoFar.isLt
      rw [(race.left.paid_settled settled.1).2, (race.right.paid_settled settled.2).2] at tooMuch
      omega

end

section
variable [HashFns] [SigFns] [StateCbor]

theorem submit_step_effect (config : NodeConfig) (call : Submission) (node : NodeState) (phase : Phase)
    (written : call.write = .done) : StepEffect call node phase (submitStep config call node phase) := by
  cases phase with
  | start =>
      rw [submitStep]
      cases checkBlock config call.nowMs node.store.tip call.block with
      | error e => exact .quiet node _ rfl (fun held => by cases held) (Nat.le_refl _)
      | ok passed => exact .quiet node _ rfl (fun held => by cases held) (Nat.le_refl _)
  | readParentTime tip => exact .quiet node _ rfl (fun held => by cases held) (Nat.le_refl _)
  | readMinted tip parentTs => exact .quiet node _ rfl (fun held => by cases held) (Nat.le_refl _)
  | readPrevReward tip parentTs minted => exact .quiet node _ rfl (fun held => by cases held) (Nat.le_refl _)
  | applying tip minted reward =>
      rw [submitStep]
      rcases applyBlock node.state call.block reward with ⟨state, e | out⟩
      · exact .quiet _ _ rfl (fun held => by cases held) (Nat.le_refl _)
      · exact .quiet _ _ rfl (fun _ => rfl) (Nat.zero_le _)
  | writeMinted tip minted reward => exact .quiet _ _ rfl (fun _ => rfl) (Nat.le_refl _)
  | writePrevReward tip reward => exact .quiet _ _ rfl (fun _ => rfl) (Nat.le_refl _)
  | confirming tip reward => exact .quiet _ _ rfl (fun _ => rfl) (Nat.le_refl _)
  | appending tip reward =>
      rw [submitStep, written]
      exact .logged tip reward _ rfl rfl
  | refused e => exact .quiet node _ rfl (fun held => held) (Nat.le_refl _)
  | unlogged e => exact .quiet node _ rfl (fun held => held) (Nat.le_refl _)
  | appended reward => exact .quiet node _ rfl (fun held => held) (Nat.le_refl _)

def DoomedRace (base : Nat) (a : Submission) (k : Phase) (b : Submission) (l : Phase) (node : NodeState) : Prop :=
  (Appendable a ∧ Appendable b) ∧ ∃ log, node.store.Holds log ∧ Doomed base a k b l log

theorem doomed_step (config : NodeConfig) (base : Nat) (a b : Submission) (k l : Phase) (node : NodeState)
    (lost : DoomedRace base a k b l node) :
    DoomedRace base a (submitStep config a node k).2 b l (submitStep config a node k).1 := by
  obtain ⟨appendable, log, holds, doomed⟩ := lost
  have effect := submit_step_effect config a node k appendable.1.1
  generalize submitStep config a node k = result at effect
  refine ⟨appendable, ?_⟩
  cases effect with
  | quiet after next sameStore kept owed =>
      exact ⟨log, by rw [sameStore]; exact holds, doomed_quiet base a b k next l log doomed kept owed⟩
  | logged tip reward after appending store =>
      rw [appending] at doomed
      exact ⟨log ++ [a.block], by rw [store]; exact ChainStore.holds_append node.store log a.block holds appendable.1.2,
        doomed_logged base a b tip reward l log doomed⟩

theorem unclean_doomed (config : NodeConfig) (start : List Block) (base : Nat) (a b : Submission) (k l : Phase)
    (node : NodeState) (log : List Block) (appendable : Appendable a ∧ Appendable b)
    (calm : Calm config start base a k b l node log) (unclean : ¬ CleanStep a k b l node) :
    DoomedRace base a (submitStep config a node k).2 b l (submitStep config a node k).1 := by
  simp only [CleanStep] at unclean
  push Not at unclean
  obtain ⟨⟨tip, minted, reward⟩, applies, taken, disturbed⟩ := unclean
  have phase : k = .applying tip minted reward := by
    cases k <;> cases applies
    rfl
  rw [phase] at calm ⊢
  dsimp only at taken disturbed
  rw [submitStep]
  generalize applyBlock node.state a.block reward = result at taken
  rcases result with ⟨state, e | out⟩
  · cases taken
  · exact ⟨appendable, log, calm.holds,
      disturbed_doomed config start base a b tip minted reward l node log calm appendable.1 disturbed⟩

theorem clean_race_calm (config : NodeConfig) (a b : Submission) (node : NodeState) (log : List Block)
    (schedule : List Thread) (holds : node.store.Holds log) (linear : Linear log)
    (clean : Along (move (submitStep config) a b) (Mover CleanStep a b) ⟨node, .start, .start⟩ schedule) :
    let race := runCalls (move (submitStep config) a b) ⟨node, .start, .start⟩ schedule
    ∃ after, Calm config log node.mintedSoFar.toNat a race.left b race.right race.shared after := by
  apply race_invariant (submitStep config)
    (fun a k b l node' => ∃ after, Calm config log node.mintedSoFar.toNat a k b l node' after) CleanStep
  · intro a k b l node' ⟨after, calm⟩
    exact ⟨after, calm_swap config log _ a b k l node' after calm⟩
  · intro a k b l node' ⟨after, calm⟩ step
    exact calm_step config log _ a b k l node' after calm step
  · exact ⟨log, calm_start config a b node log holds linear⟩
  · exact clean

theorem race_clean_or_lost (config : NodeConfig) (a b : Submission) (node : NodeState) (log : List Block)
    (schedule : List Thread) (holds : node.store.Holds log) (linear : Linear log)
    (appendable : Appendable a ∧ Appendable b) :
    let race := runCalls (move (submitStep config) a b) ⟨node, .start, .start⟩ schedule
    Along (move (submitStep config) a b) (Mover CleanStep a b) ⟨node, .start, .start⟩ schedule ∨
      DoomedRace node.mintedSoFar.toNat a race.left b race.right race.shared := by
  apply race_clean_or_doomed (submitStep config)
    (fun a k b l node' => (Appendable a ∧ Appendable b) ∧
      ∃ after, Calm config log node.mintedSoFar.toNat a k b l node' after) CleanStep
    (DoomedRace node.mintedSoFar.toNat)
  · intro a k b l node' ⟨both, after, calm⟩
    exact ⟨both.symm, after, calm_swap config log _ a b k l node' after calm⟩
  · intro a k b l node' ⟨both, after, found, doomed⟩
    exact ⟨both.symm, after, found, doomed_swap _ a b k l after doomed⟩
  · intro a k b l node' ⟨both, after, calm⟩ step
    exact ⟨both, calm_step config log _ a b k l node' after calm step⟩
  · intro a k b l node' ⟨both, after, calm⟩ unclean
    exact unclean_doomed config log _ a b k l node' after both calm unclean
  · intro a k b l node' lost
    exact doomed_step config _ a b k l node' lost
  · exact ⟨appendable, log, calm_start config a b node log holds linear⟩

theorem interleaving_linear_iff (config : NodeConfig) (node : NodeState) (a b : Submission) (schedule : List Thread)
    (log : List Block) (holds : node.store.Holds log) (linear : Linear log) :
    let race := runCalls (move (submitStep config) a b) ⟨node, .start, .start⟩ schedule
    let clean := Along (move (submitStep config) a b) (Mover CleanStep a b) ⟨node, .start, .start⟩ schedule
    (clean → (∃ after, race.shared.store.Holds after ∧ Linear after) ∧
      (Settled race → LinearOutcome log node.mintedSoFar.toNat a b race)) ∧
    (Appendable a ∧ Appendable b → Settled race →
      (LinearOutcome log node.mintedSoFar.toNat a b race ↔ clean)) := by
  intro race clean
  have outcome : clean → Settled race → LinearOutcome log node.mintedSoFar.toNat a b race := by
    intro along settled
    obtain ⟨after, calm⟩ := clean_race_calm config a b node log schedule holds linear along
    exact calm_outcome config log _ a b race after calm settled
  refine ⟨fun along => ⟨?_, outcome along⟩, fun appendable settled => ⟨fun result => ?_, fun along => outcome along settled⟩⟩
  · obtain ⟨after, calm⟩ := clean_race_calm config a b node log schedule holds linear along
    exact ⟨after, calm.holds, calm.linear⟩
  · rcases race_clean_or_lost config a b node log schedule holds linear appendable with along | ⟨_, after, found, doomed⟩
    · exact along
    · exact absurd result (doomed_outcome log _ a b race after found doomed settled)

end

open Sample in
theorem rejected_rival_stays_linear :
    let schedule := (List.replicate 9 [Thread.left, Thread.right]).flatten
    let race := runCalls (move (submitStep Genesis.shipped.nodeConfig) pokeOnce pokeTwice) ⟨freshNode, .start, .start⟩ schedule
    LinearOutcome [genesisBlock] 0 pokeOnce pokeTwice race := by
  intro schedule race
  have clean : Along (move (submitStep Genesis.shipped.nodeConfig) pokeOnce pokeTwice) (Mover CleanStep pokeOnce pokeTwice)
      ⟨freshNode, .start, .start⟩ schedule := by decide +kernel
  have holds : freshNode.store.Holds [genesisBlock] := ⟨genesis_log, rfl, rfl⟩
  have proved := interleaving_linear_iff Genesis.shipped.nodeConfig freshNode pokeOnce pokeTwice schedule [genesisBlock]
    holds (.singleton _)
  exact (proved.1 clean).2 (settled_of_returned race (by decide +kernel) (by decide +kernel))

open Sample in
theorem same_tip_raced :
    let call := onGenesis 988 []
    let schedule := List.replicate 4 Thread.left ++ List.replicate 4 Thread.right ++ List.replicate 5 Thread.left ++
      List.replicate 5 Thread.right
    let race := runCalls (move (submitStep Genesis.shipped.nodeConfig) call call) ⟨freshNode, .start, .start⟩ schedule
    race.left.result = some (.ok ()) ∧ race.right.result = some (.ok ()) ∧
      race.shared.store.Holds [genesisBlock, call.block, call.block] ∧
      race.shared.mintedSoFar.toNat < race.left.paid + race.right.paid ∧
      ¬ LinearOutcome [genesisBlock] 0 call call race := by
  intro call schedule race
  have store : race.shared.store = ((freshNode.store.append call.block .done).1.append call.block .done).1 := by
    decide +kernel
  have sized : (blockCodec.encode call.block).length < 2 ^ 32 := by decide +kernel
  have holds : race.shared.store.Holds [genesisBlock, call.block, call.block] := by
    rw [store]
    exact ChainStore.holds_append _ _ _ (ChainStore.holds_append _ _ _ ⟨genesis_log, rfl, rfl⟩ sized) sized
  refine ⟨by decide +kernel, by decide +kernel, holds, by decide +kernel, ?_⟩
  intro ⟨log, found, linear, _⟩
  have same := ChainStore.holds_unique _ _ _ found holds
  rw [same] at linear
  have twice := ((linear_snoc [genesisBlock, call.block] call.block).mp linear).2 call.block rfl
  exact absurd twice.1 (by omega)

end PyGrove.Node
