import PyGrove.Node.Race

set_option autoImplicit false

namespace PyGrove.Node

open Words Steps Frames Interleave PyGrove.Core Crypto PyGrove.Consensus PyGrove.State

section
variable [HashFns]

def Follows (parent block : Block) : Prop :=
  block.header.height.toNat = parent.header.height.toNat + 1 ∧ block.header.parent = hashHeader parent.header

def Linear (log : List Block) : Prop := log.IsChain Follows

theorem linear_snoc (log : List Block) (block : Block) :
    Linear (log ++ [block]) ↔ Linear log ∧ ∀ tip ∈ log.getLast?, Follows tip block := by
  simp only [Linear]
  rw [List.isChain_append]
  simp

theorem linear_below_tip (log : List Block) (tip block : Block) (linear : Linear log) (last : log.getLast? = some tip)
    (member : block ∈ log) : block = tip ∨ block.header.height.toNat < tip.header.height.toNat := by
  induction log using List.reverseRecOn generalizing tip with
  | nil => cases member
  | append_singleton log top ih =>
      rw [List.getLast?_concat] at last
      cases last
      rw [linear_snoc] at linear
      rcases List.mem_append.mp member with earlier | here
      · right
        obtain ⟨below, found⟩ : ∃ below, log.getLast? = some below :=
          ⟨_, List.getLast?_eq_some_getLast (List.ne_nil_of_mem earlier)⟩
        have step := (linear.2 below found).1
        rcases ih below linear.1 found earlier with same | lower
        · rw [same]
          omega
        · omega
      · exact .inl (List.mem_singleton.mp here)

theorem follows_of_view (config : NodeConfig) (tip block : Block)
    (parent : block.header.parent = (tipView config (some tip)).expectedParent)
    (height : block.header.height = (tipView config (some tip)).expectedHeight)
    (room : tip.header.height ≠ BitVec.allOnes 64) : Follows tip block := by
  refine ⟨?_, parent⟩
  rw [height, tipView, to_nat_succ tip.header.height (to_nat_lt_top tip.header.height room)]

theorem view_height_le (config : NodeConfig) (tip block : Block)
    (height : block.header.height = (tipView config (some tip)).expectedHeight) :
    block.header.height.toNat ≤ tip.header.height.toNat + 1 := by
  rw [height, tipView, BitVec.toNat_add]
  exact Nat.mod_le _ _

end

section
variable [HashFns]

def Undisturbed (node : NodeState) (call : Submission) (other : Phase) (tip : Option Block) (minted reward : U128) : Prop :=
  (node.store.tip = tip ∧ other.holding = false) ∧
    minted.toNat + reward.toNat < 2 ^ 128 ∧
      (call.write = .done ∧ (blockCodec.encode call.block).length < 2 ^ 32) ∧
        ∀ parent ∈ tip, parent.header.height ≠ BitVec.allOnes 64

instance (node : NodeState) (call : Submission) (other : Phase) (tip : Option Block) (minted reward : U128) :
    Decidable (Undisturbed node call other tip minted reward) :=
  inferInstanceAs (Decidable ((node.store.tip = tip ∧ other.holding = false) ∧
    minted.toNat + reward.toNat < 2 ^ 128 ∧
      (call.write = .done ∧ (blockCodec.encode call.block).length < 2 ^ 32) ∧
        ∀ parent ∈ tip, parent.header.height ≠ BitVec.allOnes 64))

structure Side (config : NodeConfig) (call : Submission) (phase : Phase) (otherHolds : Bool) (minted : U128)
    (log : List Block) : Prop where
  passed : ∀ tip, phase.tipRead = some tip → call.block.header.parent = (tipView config tip).expectedParent ∧
    call.block.header.height = (tipView config tip).expectedHeight
  known : ∀ tip, phase.tipRead = some tip → ∀ block ∈ tip, block ∈ log
  current : phase.holding = true → phase.tipRead = some log.getLast? ∧
    (call.write = .done ∧ (blockCodec.encode call.block).length < 2 ^ 32) ∧
      ∀ tip ∈ log.getLast?, tip.header.height ≠ BitVec.allOnes 64
  fresh : ∀ seen, phase.mintedRead = some seen → phase.tipRead = some log.getLast? →
    otherHolds = true ∨ seen = minted
  room : ∀ tip seen reward, phase = .writeMinted tip seen reward → seen.toNat + reward.toNat < 2 ^ 128

theorem side_idle (config : NodeConfig) (call : Submission) (phase : Phase) (otherHolds : Bool) (minted : U128)
    (log : List Block) (unread : phase.tipRead = none) (settled : phase.holding = false) :
    Side config call phase otherHolds minted log := by
  refine ⟨?_, ?_, ?_, ?_, ?_⟩
  · intro tip read
    rw [unread] at read
    cases read
  · intro tip read
    rw [unread] at read
    cases read
  · intro held
    rw [settled] at held
    cases held
  · intro seen _ read
    rw [unread] at read
    cases read
  · intro tip seen reward same
    rw [same] at unread
    cases unread

-- The invariant of a clean run: at most one block is in hand, it follows the
-- tip, and the counter has every block that is logged or was counted.
structure Calm (config : NodeConfig) (start : List Block) (base : Nat) (a : Submission) (k : Phase) (b : Submission)
    (l : Phase) (node : NodeState) (log : List Block) : Prop where
  holds : node.store.Holds log
  linear : Linear log
  added : ∃ added, log = start ++ added ∧ added.Perm (k.logged a ++ l.logged b)
  left : Side config a k l.holding node.mintedSoFar log
  right : Side config b l k.holding node.mintedSoFar log
  exclusive : ¬ (k.holding = true ∧ l.holding = true)
  counted : node.mintedSoFar.toNat = base + k.credited + l.credited

theorem calm_swap (config : NodeConfig) (start : List Block) (base : Nat) (a b : Submission) (k l : Phase)
    (node : NodeState) (log : List Block) (calm : Calm config start base a k b l node log) :
    Calm config start base b l a k node log := by
  obtain ⟨added, logEq, perm⟩ := calm.added
  exact
    { holds := calm.holds
      linear := calm.linear
      added := ⟨added, logEq, perm.trans List.perm_append_comm⟩
      left := calm.right
      right := calm.left
      exclusive := fun both => calm.exclusive ⟨both.2, both.1⟩
      counted := by rw [calm.counted]; omega }

theorem calm_start (config : NodeConfig) (a b : Submission) (node : NodeState) (log : List Block)
    (holds : node.store.Holds log) (linear : Linear log) :
    Calm config log node.mintedSoFar.toNat a .start b .start node log where
  holds := holds
  linear := linear
  added := ⟨[], (List.append_nil log).symm, .refl _⟩
  left := side_idle config a _ _ _ log rfl rfl
  right := side_idle config b _ _ _ log rfl rfl
  exclusive := fun both => by cases both.1
  counted := rfl

theorem calm_quiet (config : NodeConfig) (start : List Block) (base : Nat) (a b : Submission) (k next l : Phase)
    (node after : NodeState) (log : List Block) (calm : Calm config start base a k b l node log)
    (sameStore : after.store = node.store) (sameMinted : after.mintedSoFar = node.mintedSoFar)
    (sameHolding : next.holding = k.holding) (sameCredit : next.credited = k.credited)
    (sameLogged : next.logged a = k.logged a) (side : Side config a next l.holding node.mintedSoFar log) :
    Calm config start base a next b l after log where
  holds := by rw [sameStore]; exact calm.holds
  linear := calm.linear
  added := by rw [sameLogged]; exact calm.added
  left := by rw [sameMinted]; exact side
  right := by rw [sameMinted, sameHolding]; exact calm.right
  exclusive := by rw [sameHolding]; exact calm.exclusive
  counted := by rw [sameMinted, sameCredit]; exact calm.counted

theorem calm_takes (config : NodeConfig) (start : List Block) (base : Nat) (a b : Submission) (tip : Option Block)
    (minted reward : U128) (l : Phase) (node after : NodeState) (log : List Block)
    (calm : Calm config start base a (.applying tip minted reward) b l node log) (sameStore : after.store = node.store)
    (sameMinted : after.mintedSoFar = node.mintedSoFar) (undisturbed : Undisturbed node a l tip minted reward) :
    Calm config start base a (.writeMinted tip minted reward) b l after log := by
  obtain ⟨⟨current, free⟩, room, appendable, height⟩ := undisturbed
  rw [calm.holds.tip] at current
  exact
    { holds := by rw [sameStore]; exact calm.holds
      linear := calm.linear
      added := calm.added
      left :=
        { passed := calm.left.passed
          known := calm.left.known
          current := fun _ => ⟨by rw [current]; rfl, appendable, by rwa [current]⟩
          fresh := by rw [sameMinted]; exact calm.left.fresh
          room := by
            intro _ _ _ same
            cases same
            exact room }
      right :=
        { passed := calm.right.passed
          known := calm.right.known
          current := calm.right.current
          fresh := fun _ _ _ => .inl rfl
          room := calm.right.room }
      exclusive := by
        intro both
        rw [free] at both
        cases both.2
      counted := by rw [sameMinted]; exact calm.counted }

theorem calm_counts (config : NodeConfig) (start : List Block) (base : Nat) (a b : Submission) (tip : Option Block)
    (seen reward : U128) (l : Phase) (node : NodeState) (log : List Block)
    (calm : Calm config start base a (.writeMinted tip seen reward) b l node log) :
    Calm config start base a (.writePrevReward tip reward) b l
      { node with mintedSoFar := saturatingAdd seen reward } log := by
  obtain ⟨current, appendable, height⟩ := calm.left.current rfl
  have latest : seen = node.mintedSoFar := by
    rcases calm.left.fresh seen rfl current with held | same
    · exact absurd ⟨rfl, held⟩ calm.exclusive
    · exact same
  have room := calm.left.room tip seen reward rfl
  have counted := calm.counted
  exact
    { holds := calm.holds
      linear := calm.linear
      added := calm.added
      left :=
        { passed := calm.left.passed
          known := calm.left.known
          current := fun _ => ⟨current, appendable, height⟩
          fresh := by
            intro _ read
            cases read
          room := by
            intro _ _ _ same
            cases same }
      right :=
        { passed := calm.right.passed
          known := calm.right.known
          current := calm.right.current
          fresh := fun _ _ _ => .inl rfl
          room := calm.right.room }
      exclusive := calm.exclusive
      counted := by
        have before : (Phase.writeMinted tip seen reward).credited = 0 := rfl
        have now : (Phase.writePrevReward tip reward).credited = reward.toNat := rfl
        rw [← latest, before] at counted
        rw [to_nat_saturating_add, now]
        omega }

theorem calm_logs (config : NodeConfig) (start : List Block) (base : Nat) (a b : Submission) (tip : Option Block)
    (reward : U128) (l : Phase) (node : NodeState) (log : List Block)
    (calm : Calm config start base a (.appending tip reward) b l node log) :
    Calm config start base a (.appended reward) b l
      { node with store := (node.store.append a.block .done).1 } (log ++ [a.block]) := by
  obtain ⟨current, ⟨_, sized⟩, room⟩ := calm.left.current rfl
  obtain ⟨parent, height⟩ := calm.left.passed log.getLast? current
  have follows : ∀ top ∈ log.getLast?, Follows top a.block := by
    intro top last
    rw [Option.mem_def.mp last] at parent height
    exact follows_of_view config top a.block parent height (room top last)
  have unseen : a.block ∉ log := by
    intro member
    obtain ⟨top, last⟩ : ∃ top, log.getLast? = some top := ⟨_, List.getLast?_eq_some_getLast (List.ne_nil_of_mem member)⟩
    have above := (follows top last).1
    rcases linear_below_tip log top a.block calm.linear last member with same | lower
    · rw [same] at above
      omega
    · omega
  obtain ⟨added, logEq, perm⟩ := calm.added
  exact
    { holds := ChainStore.holds_append node.store log a.block calm.holds sized
      linear := (linear_snoc log a.block).mpr ⟨calm.linear, follows⟩
      added := ⟨added ++ [a.block], by rw [logEq, List.append_assoc], (perm.append_right [a.block]).trans List.perm_append_comm⟩
      left := side_idle config a _ _ _ _ rfl rfl
      right :=
        { passed := calm.right.passed
          known := fun read reading block member => List.mem_append_left _ (calm.right.known read reading block member)
          current := fun held => absurd ⟨rfl, held⟩ calm.exclusive
          fresh := by
            intro seen _ reading
            rw [List.getLast?_concat] at reading
            exact absurd (calm.right.known _ reading a.block rfl) unseen
          room := calm.right.room }
      exclusive := by
        intro both
        cases both.1
      counted := calm.counted }

end

section
variable [HashFns] [SigFns] [StateCbor]

def CleanStep (call : Submission) (phase : Phase) (_ : Submission) (other : Phase) (node : NodeState) : Prop :=
  ∀ locals ∈ phase.applies, (applyBlock node.state call.block locals.2.2).2.toOption.isSome →
    Undisturbed node call other locals.1 locals.2.1 locals.2.2

instance (call : Submission) (phase : Phase) (rival : Submission) (other : Phase) (node : NodeState) :
    Decidable (CleanStep call phase rival other node) :=
  inferInstanceAs (Decidable (∀ locals ∈ phase.applies,
    (applyBlock node.state call.block locals.2.2).2.toOption.isSome →
      Undisturbed node call other locals.1 locals.2.1 locals.2.2))

theorem calm_step (config : NodeConfig) (start : List Block) (base : Nat) (a b : Submission) (k l : Phase)
    (node : NodeState) (log : List Block) (calm : Calm config start base a k b l node log)
    (clean : CleanStep a k b l node) :
    ∃ after, Calm config start base a (submitStep config a node k).2 b l (submitStep config a node k).1 after := by
  have side := calm.left
  cases k with
  | start =>
      refine ⟨log, ?_⟩
      rw [submitStep]
      cases checked : checkBlock config a.nowMs node.store.tip a.block with
      | error e =>
          exact calm_quiet config start base a b _ _ l node node log calm rfl rfl rfl rfl rfl
            (side_idle config a _ _ _ log rfl rfl)
      | ok passed =>
          have acceptable := (check_block_iff config a.nowMs node.store.tip a.block).mp checked
          dsimp only
          refine calm_quiet config start base a b _ _ l node node log calm rfl rfl rfl rfl rfl ⟨?_, ?_, ?_, ?_, ?_⟩
          · intro tip read
            cases read
            exact ⟨acceptable.parent, acceptable.height⟩
          · intro tip read block member
            cases read
            rw [calm.holds.tip] at member
            exact List.mem_of_getLast? member
          · intro held
            cases held
          · intro _ read
            cases read
          · intro _ _ _ same
            cases same
  | readParentTime tip =>
      exact ⟨log, calm_quiet config start base a b _ _ l node node log calm rfl rfl rfl rfl rfl
        ⟨side.passed, side.known, side.current, side.fresh, fun _ _ _ same => by cases same⟩⟩
  | readMinted tip parentTs =>
      refine ⟨log, calm_quiet config start base a b _ _ l node node log calm rfl rfl rfl rfl rfl
        ⟨side.passed, side.known, side.current, ?_, fun _ _ _ same => by cases same⟩⟩
      intro seen read _
      cases read
      exact .inr rfl
  | readPrevReward tip parentTs minted =>
      exact ⟨log, calm_quiet config start base a b _ _ l node node log calm rfl rfl rfl rfl rfl
        ⟨side.passed, side.known, side.current, side.fresh, fun _ _ _ same => by cases same⟩⟩
  | applying tip minted reward =>
      refine ⟨log, ?_⟩
      have undisturbed := clean (tip, minted, reward) rfl
      dsimp only at undisturbed
      rw [submitStep]
      generalize applyBlock node.state a.block reward = result at undisturbed
      rcases result with ⟨state, e | out⟩
      · exact calm_quiet config start base a b _ _ l node _ log calm rfl rfl rfl rfl rfl
          (side_idle config a _ _ _ log rfl rfl)
      · exact calm_takes config start base a b tip minted reward l node _ log calm rfl rfl (undisturbed rfl)
  | writeMinted tip minted reward => exact ⟨log, calm_counts config start base a b tip minted reward l node log calm⟩
  | writePrevReward tip reward =>
      exact ⟨log, calm_quiet config start base a b _ _ l node _ log calm rfl rfl rfl rfl rfl
        ⟨side.passed, side.known, side.current, side.fresh, fun _ _ _ same => by cases same⟩⟩
  | confirming tip reward =>
      exact ⟨log, calm_quiet config start base a b _ _ l node _ log calm rfl rfl rfl rfl rfl
        ⟨side.passed, side.known, side.current, side.fresh, fun _ _ _ same => by cases same⟩⟩
  | appending tip reward =>
      refine ⟨log ++ [a.block], ?_⟩
      rw [submitStep, (side.current rfl).2.1.1]
      exact calm_logs config start base a b tip reward l node log calm
  | refused e => exact ⟨log, calm⟩
  | unlogged e => exact ⟨log, calm⟩
  | appended reward => exact ⟨log, calm⟩

end

end PyGrove.Node
