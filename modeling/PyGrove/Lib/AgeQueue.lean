import Mathlib.Data.List.Sort

set_option autoImplicit false

/- A bounded collection of keyed items that lets its eldest go to make room.
   The list is kept eldest first, under any order that compares all items. -/
namespace AgeQueue

variable {κ α : Type} [DecidableEq κ] (key : α → κ) (older : α → α → Prop) [DecidableRel older]

def makeRoom (cap : ℕ) (queue : List α) : List α := if cap ≤ queue.length then queue.tail else queue

def arrive (cap : ℕ) (queue : List α) (item : α) : List α := (makeRoom cap queue).orderedInsert older item

def leave (queue : List α) (keys : List κ) : List α := queue.filter fun item => key item ∉ keys

omit [DecidableEq κ] [DecidableRel older] in
structure Ordered (queue : List α) : Prop where
  eldestFirst : queue.Pairwise older
  distinct : (queue.map key).Nodup

theorem make_room_sublist (cap : ℕ) (queue : List α) : (makeRoom cap queue).Sublist queue := by
  rw [makeRoom]
  split
  · exact List.tail_sublist queue
  · exact List.Sublist.refl queue

theorem leave_sublist (queue : List α) (keys : List κ) : (leave key queue keys).Sublist queue := List.filter_sublist

theorem length_arrive (cap : ℕ) (queue : List α) (item : α) (bounded : queue.length ≤ max cap 1) :
    (arrive older cap queue item).length ≤ max cap 1 := by
  rw [arrive, List.orderedInsert_length, makeRoom]
  split
  · rw [List.length_tail]
    omega
  · omega

theorem mem_arrive (cap : ℕ) (queue : List α) (item other : α) :
    other ∈ arrive older cap queue item ↔ other = item ∨ other ∈ makeRoom cap queue := List.mem_orderedInsert older

theorem arrive_last (cap : ℕ) (queue : List α) (item : α) (youngest : ∀ other ∈ queue, ¬ older item other) :
    arrive older cap queue item = makeRoom cap queue ++ [item] := by
  have behind : ∀ items : List α, (∀ other ∈ items, ¬ older item other) → items.orderedInsert older item = items ++ [item] := by
    intro items youngest
    induction items with
    | nil => rfl
    | cons first tail ih =>
        rw [List.orderedInsert_cons, if_neg (youngest first (by simp)), List.cons_append,
          ih fun other member => youngest other (by simp [member])]
  exact behind _ fun other member => youngest other ((make_room_sublist cap queue).subset member)

omit [DecidableEq κ] in
theorem ordered_arrive [Std.Total older] [IsTrans α older] (cap : ℕ) (queue : List α) (item : α)
    (ordered : Ordered key older queue) (fresh : ∀ other ∈ queue, key other ≠ key item) :
    Ordered key older (arrive older cap queue item) := by
  have kept := make_room_sublist cap queue
  constructor
  · exact (ordered.eldestFirst.sublist kept).orderedInsert item _
  · rw [arrive, ((List.perm_orderedInsert older item _).map key).nodup_iff, List.map_cons, List.nodup_cons]
    refine ⟨?_, ordered.distinct.sublist (kept.map key)⟩
    intro present
    obtain ⟨other, member, same⟩ := List.mem_map.mp present
    exact fresh other (kept.subset member) same

omit [DecidableRel older] in
theorem ordered_leave (queue : List α) (keys : List κ) (ordered : Ordered key older queue) :
    Ordered key older (leave key queue keys) :=
  ⟨ordered.eldestFirst.sublist (leave_sublist key queue keys), ordered.distinct.sublist ((leave_sublist key queue keys).map key)⟩

omit [DecidableEq κ] [DecidableRel older] in
theorem head_eldest (queue : List α) (ordered : Ordered key older queue)
    (level : ∀ a b, older a b → older b a → key a = key b) (item : α) (member : item ∈ queue)
    (eldest : ∀ other ∈ queue, older item other) : queue.head? = some item := by
  cases queue with
  | nil => cases member
  | cons first tail =>
      rcases List.mem_cons.mp member with rfl | later
      · rfl
      · have before := List.rel_of_pairwise_cons ordered.eldestFirst later
        have same := level first item before (eldest first (by simp))
        have apart := (List.nodup_cons.mp ordered.distinct).1
        exact absurd (List.mem_map.mpr ⟨item, later, same.symm⟩) apart

end AgeQueue
