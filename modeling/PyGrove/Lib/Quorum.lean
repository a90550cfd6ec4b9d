import Mathlib.Data.List.Perm.Subperm

set_option autoImplicit false

/- Two groups of distinct voters out of one electorate. The electorate is a
   list: a voter that is listed twice counts twice towards its size. -/
namespace Quorum

variable {α : Type} [DecidableEq α]

def shared (a b : List α) : List α := a.filter fun voter => voter ∈ b

theorem mem_shared (a b : List α) (voter : α) : voter ∈ shared a b ↔ voter ∈ a ∧ voter ∈ b := by
  simp [shared]

theorem shared_nodup (a b : List α) (distinct : a.Nodup) : (shared a b).Nodup := distinct.filter _

theorem shared_overlap (electorate a b : List α) (distinctA : a.Nodup) (distinctB : b.Nodup) (insideA : a ⊆ electorate)
    (insideB : b ⊆ electorate) : a.length + b.length ≤ electorate.length + (shared a b).length := by
  have apart : (a.filter (fun voter => !decide (voter ∈ b)) ++ b).Nodup := by
    refine List.nodup_append.mpr ⟨distinctA.filter _, distinctB, ?_⟩
    rintro voter left _ right rfl
    simpa [right] using (List.mem_filter.mp left).2
  have inside : a.filter (fun voter => !decide (voter ∈ b)) ++ b ⊆ electorate :=
    List.append_subset.mpr ⟨fun voter member => insideA (List.mem_of_mem_filter member), insideB⟩
  have fewer := (List.subperm_of_subset apart inside).length_le
  have split := List.length_eq_length_filter_add (l := a) fun voter => decide (voter ∈ b)
  rw [List.length_append] at fewer
  rw [shared]
  omega

theorem quorums_overlap (electorate a b : List α) (quorum : Nat) (distinctA : a.Nodup) (distinctB : b.Nodup)
    (insideA : a ⊆ electorate) (insideB : b ⊆ electorate) (enoughA : quorum ≤ a.length) (enoughB : quorum ≤ b.length) :
    2 * quorum ≤ electorate.length + (shared a b).length := by
  have overlap := shared_overlap electorate a b distinctA distinctB insideA insideB
  omega

def AtLeast (count : ℕ) (property : α → Prop) : Prop :=
  ∃ group : List α, group.Nodup ∧ count ≤ group.length ∧ ∀ voter ∈ group, property voter

omit [DecidableEq α] in
theorem at_least_mono (count : ℕ) (p q : α → Prop) (implies : ∀ voter, p voter → q voter) (enough : AtLeast count p) :
    AtLeast count q := by
  obtain ⟨group, distinct, size, all⟩ := enough
  exact ⟨group, distinct, size, fun voter member => implies voter (all voter member)⟩

omit [DecidableEq α] in
theorem at_least_congr (count : ℕ) (p q : α → Prop) (same : ∀ voter, p voter ↔ q voter) : AtLeast count p ↔ AtLeast count q :=
  ⟨at_least_mono count p q fun voter => (same voter).mp, at_least_mono count q p fun voter => (same voter).mpr⟩

omit [DecidableEq α] in
theorem at_least_mem_iff (count : ℕ) (electorate : List α) (distinct : electorate.Nodup) :
    AtLeast count (· ∈ electorate) ↔ count ≤ electorate.length := by
  constructor
  · rintro ⟨group, groupDistinct, size, inside⟩
    exact Nat.le_trans size (List.subperm_of_subset groupDistinct inside).length_le
  · exact fun size => ⟨electorate, distinct, size, fun _ member => member⟩

omit [DecidableEq α] in
theorem at_least_le (count : ℕ) (property : α → Prop) (electorate : List α) (inside : ∀ voter, property voter → voter ∈ electorate)
    (enough : AtLeast count property) : count ≤ electorate.length := by
  obtain ⟨group, distinct, size, all⟩ := enough
  exact Nat.le_trans size (List.subperm_of_subset distinct fun voter member => inside voter (all voter member)).length_le

end Quorum
