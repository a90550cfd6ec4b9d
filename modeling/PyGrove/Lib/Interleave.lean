import PyGrove.Lib.Steps

set_option autoImplicit false

/- Two calls of one program on a shared state, cut into atomic steps. A
   schedule says whose step comes next; a step of a call that has returned
   does nothing. -/
namespace Interleave

open Steps

variable {σ ι κ : Type}

inductive Thread where
  | left
  | right
deriving DecidableEq

structure Race (σ κ : Type) where
  shared : σ
  left : κ
  right : κ

def move (step : ι → σ → κ → σ × κ) (a b : ι) (race : Race σ κ) : Thread → Race σ κ × Unit
  | .left => (⟨(step a race.shared race.left).1, (step a race.shared race.left).2, race.right⟩, ())
  | .right => (⟨(step b race.shared race.right).1, race.left, (step b race.shared race.right).2⟩, ())

def Mover (property : ι → κ → ι → κ → σ → Prop) (a b : ι) (race : Race σ κ) : Thread → Prop
  | .left => property a race.left b race.right race.shared
  | .right => property b race.right a race.left race.shared

instance decidableMover (property : ι → κ → ι → κ → σ → Prop) [∀ a k b l s, Decidable (property a k b l s)] (a b : ι)
    (race : Race σ κ) : (thread : Thread) → Decidable (Mover property a b race thread)
  | .left => inferInstanceAs (Decidable (property a race.left b race.right race.shared))
  | .right => inferInstanceAs (Decidable (property b race.right a race.left race.shared))

def alone (step : ι → σ → κ → σ × κ) (input : ι) : Nat → σ × κ → σ × κ
  | 0, reached => reached
  | n + 1, reached => alone step input n (step input reached.1 reached.2)

theorem run_left_alone (step : ι → σ → κ → σ × κ) (a b : ι) (n : Nat) (race : Race σ κ) :
    runCalls (move step a b) race (List.replicate n .left) =
      ⟨(alone step a n (race.shared, race.left)).1, (alone step a n (race.shared, race.left)).2, race.right⟩ := by
  induction n generalizing race with
  | zero => rfl
  | succ n ih =>
      rw [List.replicate_succ]
      exact ih (move step a b race .left).1

theorem run_right_alone (step : ι → σ → κ → σ × κ) (a b : ι) (n : Nat) (race : Race σ κ) :
    runCalls (move step a b) race (List.replicate n .right) =
      ⟨(alone step b n (race.shared, race.right)).1, race.left, (alone step b n (race.shared, race.right)).2⟩ := by
  induction n generalizing race with
  | zero => rfl
  | succ n ih =>
      rw [List.replicate_succ]
      exact ih (move step a b race .right).1

theorem race_invariant (step : ι → σ → κ → σ × κ) (inv clean : ι → κ → ι → κ → σ → Prop)
    (swap : ∀ a k b l s, inv a k b l s → inv b l a k s)
    (moved : ∀ a k b l s, inv a k b l s → clean a k b l s → inv a (step a s k).2 b l (step a s k).1)
    (a b : ι) (race : Race σ κ) (schedule : List Thread) (initial : inv a race.left b race.right race.shared)
    (along : Along (move step a b) (Mover clean a b) race schedule) :
    inv a (runCalls (move step a b) race schedule).left b (runCalls (move step a b) race schedule).right
      (runCalls (move step a b) race schedule).shared := by
  induction schedule generalizing race with
  | nil => exact initial
  | cons thread tail ih =>
      refine ih (move step a b race thread).1 ?_ along.2
      cases thread with
      | left => exact moved a race.left b race.right race.shared initial along.1
      | right => exact swap _ _ _ _ _ (moved b race.right a race.left race.shared (swap _ _ _ _ _ initial) along.1)

theorem race_clean_or_doomed (step : ι → σ → κ → σ × κ) (inv clean doomed : ι → κ → ι → κ → σ → Prop)
    (swapInv : ∀ a k b l s, inv a k b l s → inv b l a k s)
    (swapDoomed : ∀ a k b l s, doomed a k b l s → doomed b l a k s)
    (moved : ∀ a k b l s, inv a k b l s → clean a k b l s → inv a (step a s k).2 b l (step a s k).1)
    (broken : ∀ a k b l s, inv a k b l s → ¬ clean a k b l s → doomed a (step a s k).2 b l (step a s k).1)
    (lasting : ∀ a k b l s, doomed a k b l s → doomed a (step a s k).2 b l (step a s k).1)
    (a b : ι) (race : Race σ κ) (schedule : List Thread) (initial : inv a race.left b race.right race.shared) :
    Along (move step a b) (Mover clean a b) race schedule ∨
      doomed a (runCalls (move step a b) race schedule).left b (runCalls (move step a b) race schedule).right
        (runCalls (move step a b) race schedule).shared := by
  have stays : ∀ (race : Race σ κ) (schedule : List Thread), doomed a race.left b race.right race.shared →
      doomed a (runCalls (move step a b) race schedule).left b (runCalls (move step a b) race schedule).right
        (runCalls (move step a b) race schedule).shared := by
    intro race schedule lost
    apply run_calls_invariant (move step a b) (fun race => doomed a race.left b race.right race.shared) schedule race lost
    intro race thread lost
    cases thread with
    | left => exact lasting a race.left b race.right race.shared lost
    | right => exact swapDoomed _ _ _ _ _ (lasting b race.right a race.left race.shared (swapDoomed _ _ _ _ _ lost))
  induction schedule generalizing race with
  | nil => exact .inl trivial
  | cons thread tail ih =>
      by_cases next : Mover clean a b race thread
      · have after : inv a (move step a b race thread).1.left b (move step a b race thread).1.right
            (move step a b race thread).1.shared := by
          cases thread with
          | left => exact moved a race.left b race.right race.shared initial next
          | right => exact swapInv _ _ _ _ _ (moved b race.right a race.left race.shared (swapInv _ _ _ _ _ initial) next)
        rcases ih (move step a b race thread).1 after with clean | lost
        · exact .inl ⟨next, clean⟩
        · exact .inr lost
      · right
        apply stays (move step a b race thread).1 tail
        cases thread with
        | left => exact broken a race.left b race.right race.shared initial next
        | right => exact swapDoomed _ _ _ _ _ (broken b race.right a race.left race.shared (swapInv _ _ _ _ _ initial) next)

end Interleave
