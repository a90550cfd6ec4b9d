import Mathlib.Data.List.Chain
import Mathlib.Data.List.Induction

set_option autoImplicit false

/- Sequences in which every item carries the digest of the item before it: the
   digest of the last one stands for all of them. -/
namespace HashChain

variable {α δ : Type} (link digest : α → δ)

def Linked (items : List α) : Prop := items.IsChain fun before after => link after = digest before

theorem linked_snoc (items : List α) (item : α) :
    Linked link digest (items ++ [item]) ↔
      Linked link digest items ∧ ∀ last ∈ items.getLast?, link item = digest last := by
  simp only [Linked]
  rw [List.isChain_append]
  simp

theorem linked_unique (a b : List α) (linkedA : Linked link digest a) (linkedB : Linked link digest b)
    (sameLength : a.length = b.length) (ends : a.getLast?.map digest = b.getLast?.map digest)
    (collisionFree : ∀ x ∈ a, ∀ y ∈ b, digest x = digest y → x = y) : a = b := by
  induction a using List.reverseRecOn generalizing b with
  | nil => exact (List.length_eq_zero_iff.mp sameLength.symm).symm
  | append_singleton a x ih =>
      cases b using List.reverseRecOn with
      | nil => simp at sameLength
      | append_singleton b y =>
          rw [List.getLast?_concat, List.getLast?_concat] at ends
          have tips : x = y :=
            collisionFree x (by simp) y (by simp) (Option.some.inj ends)
          rw [linked_snoc] at linkedA linkedB
          rw [List.length_append, List.length_append] at sameLength
          have before : a.getLast?.map digest = b.getLast?.map digest := by
            cases lastA : a.getLast? with
            | none =>
                rw [List.getLast?_eq_none_iff] at lastA
                subst lastA
                cases lastB : b.getLast? with
                | none => rfl
                | some parent =>
                    rw [List.length_eq_zero_iff.mp (Nat.add_right_cancel sameLength).symm] at lastB
                    cases lastB
            | some parent =>
                cases lastB : b.getLast? with
                | none =>
                    rw [List.getLast?_eq_none_iff] at lastB
                    subst lastB
                    rw [List.length_eq_zero_iff.mp (Nat.add_right_cancel sameLength)] at lastA
                    cases lastA
                | some other =>
                    have linkA := linkedA.2 parent lastA
                    have linkB := linkedB.2 other lastB
                    rw [tips, linkB] at linkA
                    exact congrArg some linkA.symm
          have rest := ih b linkedA.1 linkedB.1 (Nat.add_right_cancel sameLength) before fun u inA v inB =>
            collisionFree u (List.mem_append_left _ inA) v (List.mem_append_left _ inB)
          rw [rest, tips]

end HashChain
