import PyGrove.Lib.Steps

set_option autoImplicit false

/- Calls that are made of smaller events. A run of the calls is seen as the run
   of its events, one after another, with the state each event happens in.
   What a call does besides its events is invisible to a relation on states. -/
namespace Events

open Steps

variable {σ α ρ ε : Type}

section
variable (call : σ → α → σ × ρ) (events : α → List ε) (within : σ → α → Nat → σ)

def eventsOf (inputs : List α) : List ε := inputs.flatMap events

def stateAt : σ → List α → Nat → σ
  | state, [], _ => state
  | state, input :: tail, p =>
      if p < (events input).length then within state input p
      else stateAt (call state input).1 tail (p - (events input).length)

theorem state_at_position (state : σ) (inputs : List α) (p : Nat) (event : ε)
    (found : (eventsOf events inputs)[p]? = some event) :
    ∃ k input i, inputs[k]? = some input ∧ (events input)[i]? = some event ∧
      stateAt call events within state inputs p = within (runCalls call state (inputs.take k)) input i := by
  induction inputs generalizing state p with
  | nil => cases found
  | cons input tail ih =>
      rw [eventsOf, List.flatMap_cons] at found
      rw [stateAt]
      by_cases inside : p < (events input).length
      · rw [List.getElem?_append_left inside] at found
        exact ⟨0, input, p, rfl, found, by rw [if_pos inside]; rfl⟩
      · rw [List.getElem?_append_right (by omega)] at found
        obtain ⟨k, later, i, atK, atI, same⟩ := ih (call state input).1 _ found
        exact ⟨k + 1, later, i, atK, atI, by rw [if_neg inside, same]; rfl⟩

structure Decomposes (same : σ → σ → Prop) (Step : ε → σ → σ → Prop) (state : σ) (input : α) : Prop where
  enter : same state (within state input 0)
  step : ∀ p event, (events input)[p]? = some event → Step event (within state input p) (within state input (p + 1))
  leave : same (within state input (events input).length) (call state input).1

end

section
variable {call : σ → α → σ × ρ} {events : α → List ε} {within : σ → α → Nat → σ}
  {same : σ → σ → Prop} {Step : ε → σ → σ → Prop}

theorem state_at_end (state : σ) (inputs : List α) :
    stateAt call events within state inputs (eventsOf events inputs).length = runCalls call state inputs := by
  induction inputs generalizing state with
  | nil => rfl
  | cons input tail ih =>
      rw [eventsOf, List.flatMap_cons, List.length_append, stateAt, if_neg (by omega), Nat.add_sub_cancel_left]
      exact ih (call state input).1

theorem state_at_start (refl : ∀ state, same state state) (trans : ∀ a b c, same a b → same b c → same a c)
    (state : σ) (inputs : List α) (decomposes : Along call (Decomposes call events within same Step) state inputs) :
    same state (stateAt call events within state inputs 0) := by
  induction inputs generalizing state with
  | nil => exact refl state
  | cons input tail ih =>
      obtain ⟨first, rest⟩ := decomposes
      rw [stateAt]
      by_cases present : 0 < (events input).length
      · rw [if_pos present]
        exact first.enter
      · have empty : (events input).length = 0 := by omega
        have left := first.leave
        rw [empty] at left
        rw [if_neg present, empty]
        exact trans _ _ _ (trans _ _ _ first.enter left) (ih _ rest)

theorem state_at_step (refl : ∀ state, same state state) (trans : ∀ a b c, same a b → same b c → same a c)
    (state : σ) (inputs : List α) (decomposes : Along call (Decomposes call events within same Step) state inputs)
    (p : Nat) (event : ε) (found : (eventsOf events inputs)[p]? = some event) :
    ∃ next, Step event (stateAt call events within state inputs p) next ∧
      same next (stateAt call events within state inputs (p + 1)) := by
  induction inputs generalizing state p with
  | nil => cases found
  | cons input tail ih =>
      obtain ⟨first, rest⟩ := decomposes
      rw [eventsOf, List.flatMap_cons] at found
      rw [stateAt, stateAt]
      by_cases inside : p < (events input).length
      · rw [List.getElem?_append_left inside] at found
        refine ⟨_, by rw [if_pos inside]; exact first.step p event found, ?_⟩
        by_cases more : p + 1 < (events input).length
        · rw [if_pos more]
          exact refl _
        · have last : p + 1 = (events input).length := by omega
          rw [if_neg more, last, Nat.sub_self]
          exact trans _ _ _ first.leave (state_at_start refl trans _ tail rest)
      · rw [List.getElem?_append_right (by omega)] at found
        rw [if_neg inside, if_neg (by omega), show p + 1 - (events input).length = p - (events input).length + 1 by omega]
        exact ih _ rest _ found

theorem state_at_invariant (refl : ∀ state, same state state) (trans : ∀ a b c, same a b → same b c → same a c)
    (inv : σ → Prop) (respects : ∀ a b, same a b → inv a → inv b) (state : σ) (inputs : List α)
    (decomposes : Along call (Decomposes call events within same Step) state inputs) (first : Nat)
    (initial : inv (stateAt call events within state inputs first)) (last : Nat) (ordered : first ≤ last)
    (inside : last ≤ (eventsOf events inputs).length)
    (preserved : ∀ p event, first ≤ p → p < last → (eventsOf events inputs)[p]? = some event →
      ∀ next, inv (stateAt call events within state inputs p) →
        Step event (stateAt call events within state inputs p) next → inv next) :
    inv (stateAt call events within state inputs last) := by
  induction last with
  | zero =>
      obtain rfl : first = 0 := by omega
      exact initial
  | succ p ih =>
      by_cases reached : first = p + 1
      · exact reached ▸ initial
      · have found : (eventsOf events inputs)[p]? = some (eventsOf events inputs)[p] := List.getElem?_eq_getElem inside
        obtain ⟨next, stepped, seen⟩ := state_at_step refl trans state inputs decomposes p _ found
        have before := ih (by omega) (by omega) fun q event after less => preserved q event after (by omega)
        exact respects _ _ seen (preserved p _ (by omega) (Nat.lt_succ_self p) found next before stepped)

end

end Events
