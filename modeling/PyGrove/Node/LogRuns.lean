import PyGrove.Node.CrashLog

set_option autoImplicit false

namespace PyGrove.Node

open Words Steps Frames PyGrove.Core

inductive LogOp where
  | append (block : Block)
  | reopen
deriving DecidableEq

def appended (ops : List LogOp) : List Block :=
  ops.filterMap fun
    | .append block => some block
    | .reopen => none

namespace ChainStore

def logStep (store : ChainStore) : LogOp → Except ReadError ChainStore
  | .append block => .ok (store.append block .done).1
  | .reopen => openLog store.log

theorem log_step_holds (store : ChainStore) (blocks : List Block) (op : LogOp) (holds : store.Holds blocks)
    (encodable : ∀ block ∈ appended [op], Encodable block) :
    ∃ next, store.logStep op = .ok next ∧ next.Holds (blocks ++ appended [op]) := by
  cases op with
  | append block => exact ⟨_, rfl, holds_append store blocks block holds (encodable block List.mem_cons_self)⟩
  | reopen =>
      refine ⟨store, open_holds store blocks holds, ?_⟩
      simpa only [appended, List.filterMap_cons_none, List.filterMap_nil, List.append_nil] using holds

theorem log_run_holds (start : ChainStore) (before : List Block) (ops : List LogOp) (holds : start.Holds before)
    (encodable : ∀ block ∈ appended ops, Encodable block) :
    ∃ store, runSteps logStep start ops = (store, .ok ()) ∧ store.Holds (before ++ appended ops) := by
  induction ops generalizing start before with
  | nil => exact ⟨start, rfl, by rwa [appended, List.filterMap_nil, List.append_nil]⟩
  | cons op tail ih =>
      have split : appended (op :: tail) = appended [op] ++ appended tail := List.filterMap_append (l := [op])
      rw [split] at encodable ⊢
      obtain ⟨next, taken, held⟩ := log_step_holds start before op holds fun block member =>
        encodable block (List.mem_append_left _ member)
      obtain ⟨store, finished, reached⟩ := ih next _ held fun block member =>
        encodable block (List.mem_append_right _ member)
      rw [run_steps_cons_ok logStep start next op tail taken, ← List.append_assoc]
      exact ⟨store, finished, reached⟩

theorem find_height (blocks : List Block) (ordered : InOrder blocks) (height : U64) :
    blocks.find? (fun block => block.header.height == height) = blocks[height.toNat]? := by
  cases found : blocks[height.toNat]? with
  | none =>
      rw [List.find?_eq_none]
      intro block member same
      obtain ⟨i, position⟩ := List.mem_iff_getElem?.mp member
      rw [← eq_of_beq same, ordered i block position, position] at found
      cases found
  | some block =>
      obtain ⟨inside, position⟩ := List.getElem?_eq_some_iff.mp found
      have own := ordered height.toNat block found
      rw [List.find?_eq_some_iff_getElem]
      refine ⟨beq_of_eq (BitVec.eq_of_toNat_eq own), height.toNat, inside, position, ?_⟩
      intro j below
      rw [Bool.not_eq_true', beq_eq_false_iff_ne]
      intro same
      have other := ordered j _ (List.getElem?_eq_getElem (Nat.lt_trans below inside))
      rw [same] at other
      omega

theorem holds_recent (store : ChainStore) (blocks : List Block) (holds : store.Holds blocks) (n : Nat) :
    store.recent n = .ok (blocks.reverse.take n) := by
  rw [recent, holds_load store blocks holds, List.take_reverse]

theorem holds_by_height (store : ChainStore) (blocks : List Block) (holds : store.Holds blocks) (ordered : InOrder blocks)
    (height : U64) : store.getByHeight height = .ok blocks[height.toNat]? := by
  rw [getByHeight, holds_load store blocks holds]
  exact congrArg Except.ok (find_height blocks ordered height)

structure Answers (store : ChainStore) (blocks : List Block) : Prop where
  all : store.loadAll = .ok blocks
  last : store.tip = blocks.getLast?
  len : store.len = BitVec.ofNat 64 blocks.length
  count : blocks.length < 2 ^ 64 → store.len.toNat = blocks.length
  byHeight : ∀ height : U64, store.getByHeight height = .ok blocks[height.toNat]?
  recent : ∀ n, store.recent n = .ok (blocks.reverse.take n)

theorem holds_answers (store : ChainStore) (blocks : List Block) (holds : store.Holds blocks) (ordered : InOrder blocks) :
    store.Answers blocks where
  all := holds_load store blocks holds
  last := holds.tip
  len := holds.count
  count := by
    intro fits
    rw [ChainStore.len, holds.count, BitVec.toNat_ofNat, Nat.mod_eq_of_lt fits]
  byHeight := holds_by_height store blocks holds ordered
  recent := holds_recent store blocks holds

end ChainStore

open ChainStore

theorem log_round_trip (ops : List LogOp) (ordered : InOrder (appended ops))
    (encodable : ∀ block ∈ appended ops, Encodable block) :
    ∃ store, runSteps logStep fresh ops = (store, .ok ()) ∧ store.Answers (appended ops) ∧ openLog store.log = .ok store := by
  obtain ⟨store, finished, holds⟩ := log_run_holds fresh [] ops fresh_holds encodable
  rw [List.nil_append] at holds
  exact ⟨store, finished, holds_answers store _ holds ordered, open_holds store _ holds⟩

theorem reopened_log_round_trip :
    ∃ store, runSteps logStep fresh [.append Sample.genesisBlock, .reopen, .append Sample.pokeNext.block] = (store, .ok ()) ∧
      store.Answers [Sample.genesisBlock, Sample.pokeNext.block] ∧ openLog store.log = .ok store :=
  log_round_trip [.append Sample.genesisBlock, .reopen, .append Sample.pokeNext.block]
    ((in_order_snoc [Sample.genesisBlock] Sample.pokeNext.block).mpr ⟨Sample.genesis_in_order, by decide⟩)
    (List.forall_mem_cons.mpr ⟨genesis_encodable, List.forall_mem_singleton.mpr poke_encodable⟩)

end PyGrove.Node
