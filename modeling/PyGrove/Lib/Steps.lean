set_option autoImplicit false

/- Loops that mutate a state and return early on an error. A step that fails
   writes nothing, but what the steps before it wrote stays: the caller gets
   the state reached so far together with the error. -/
namespace Steps

variable {σ α ε ρ : Type}

theorem is_ok_unit {ε : Type} (result : Except ε Unit) (ok : result.isOk = true) : result = .ok () := by
  cases result with
  | error e => cases ok
  | ok done => rfl

theorem error_of_not_ok (result : Except ε α) (refused : ¬ result.isOk = true) : ∃ e, result = .error e := by
  cases result with
  | error e => exact ⟨e, rfl⟩
  | ok value => exact absurd rfl refused

theorem guard_ok (refused : Prop) [Decidable refused] (e : ε) (rest : Except ε α) (value : α) :
    (if refused then .error e else rest) = .ok value ↔ ¬ refused ∧ rest = .ok value := by
  by_cases stopped : refused
  · simp only [stopped, if_true, not_true, false_and, reduceCtorEq]
  · simp only [stopped, if_false, not_false_eq_true, true_and]

def runSteps (step : σ → α → Except ε σ) : σ → List α → σ × Except ε Unit
  | state, [] => (state, .ok ())
  | state, item :: tail =>
      match step state item with
      | .error e => (state, .error e)
      | .ok next => runSteps step next tail

def runCalls (call : σ → α → σ × ρ) (start : σ) (inputs : List α) : σ :=
  inputs.foldl (fun state input => (call state input).1) start

theorem run_steps_cons_ok (step : σ → α → Except ε σ) (state next : σ) (item : α) (tail : List α)
    (taken : step state item = .ok next) :
    runSteps step state (item :: tail) = runSteps step next tail := by
  rw [runSteps, taken]

theorem run_steps_cons_error (step : σ → α → Except ε σ) (state : σ) (item : α) (tail : List α) (e : ε)
    (failed : step state item = .error e) :
    runSteps step state (item :: tail) = (state, .error e) := by
  rw [runSteps, failed]

theorem run_steps_invariant (step : σ → α → Except ε σ) (inv : σ → Prop) (items : List α) (start : σ)
    (initial : inv start)
    (preserved : ∀ item ∈ items, ∀ state next, inv state → step state item = .ok next → inv next) :
    inv (runSteps step start items).1 := by
  induction items generalizing start with
  | nil => exact initial
  | cons item tail ih =>
      cases taken : step start item with
      | error e => simpa only [run_steps_cons_error step start item tail e taken] using initial
      | ok next =>
          rw [run_steps_cons_ok step start next item tail taken]
          exact ih next (preserved item (by simp) start next initial taken)
            (fun later member => preserved later (by simp [member]))

theorem run_steps_relation (step : σ → α → Except ε σ) (rel : σ → σ → Prop) (items : List α) (start : σ)
    (refl : ∀ state, rel state state) (trans : ∀ a b c, rel a b → rel b c → rel a c)
    (related : ∀ item ∈ items, ∀ state next, step state item = .ok next → rel state next) :
    rel start (runSteps step start items).1 :=
  run_steps_invariant step (rel start) items start (refl start)
    (fun item member state next before taken => trans start state next before (related item member state next taken))

theorem run_steps_finished_cons (step : σ → α → Except ε σ) (start final : σ) (item : α) (tail : List α)
    (finished : runSteps step start (item :: tail) = (final, .ok ())) :
    ∃ next, step start item = .ok next ∧ runSteps step next tail = (final, .ok ()) := by
  cases taken : step start item with
  | error e =>
      rw [run_steps_cons_error step start item tail e taken] at finished
      cases finished
  | ok next =>
      rw [run_steps_cons_ok step start next item tail taken] at finished
      exact ⟨next, rfl, finished⟩

theorem run_steps_append (step : σ → α → Except ε σ) (start middle : σ) (before after : List α)
    (finished : runSteps step start before = (middle, .ok ())) :
    runSteps step start (before ++ after) = runSteps step middle after := by
  induction before generalizing start with
  | nil =>
      cases finished
      rfl
  | cons item tail ih =>
      cases taken : step start item with
      | error e =>
          rw [run_steps_cons_error step start item tail e taken] at finished
          cases finished
      | ok next =>
          rw [run_steps_cons_ok step start next item tail taken] at finished
          rw [List.cons_append, run_steps_cons_ok step start next item (tail ++ after) taken]
          exact ih next finished

theorem run_steps_finished_append (step : σ → α → Except ε σ) (start final : σ) (before after : List α)
    (finished : runSteps step start (before ++ after) = (final, .ok ())) :
    ∃ middle, runSteps step start before = (middle, .ok ()) ∧ runSteps step middle after = (final, .ok ()) := by
  induction before generalizing start with
  | nil => exact ⟨start, rfl, finished⟩
  | cons item tail ih =>
      obtain ⟨next, taken, rest⟩ := run_steps_finished_cons step start final item (tail ++ after) finished
      obtain ⟨middle, ran, done⟩ := ih next rest
      refine ⟨middle, ?_, done⟩
      rw [run_steps_cons_ok step start next item tail taken]
      exact ran

theorem run_steps_finished_at (step : σ → α → Except ε σ) (start final : σ) (items : List α) (p : Nat) (item : α)
    (finished : runSteps step start items = (final, .ok ())) (found : items[p]? = some item) :
    step (runSteps step start (items.take p)).1 item = .ok (runSteps step start (items.take (p + 1))).1 := by
  have split : items = items.take p ++ item :: items.drop (p + 1) := by
    obtain ⟨bound, atIndex⟩ := List.getElem?_eq_some_iff.mp found
    rw [← atIndex, List.getElem_cons_drop, List.take_append_drop]
  rw [split] at finished
  obtain ⟨middle, before, rest⟩ := run_steps_finished_append step start final _ _ finished
  obtain ⟨next, taken, _⟩ := run_steps_finished_cons step middle final item _ rest
  have through : runSteps step start (items.take (p + 1)) = (next, .ok ()) := by
    rw [List.take_add_one, found, Option.toList_some, run_steps_append step start middle _ _ before,
      run_steps_cons_ok step middle next item [] taken, runSteps]
  rw [before, through, taken]

theorem run_steps_congr (step other : σ → α → Except ε σ) (start : σ) (items : List α)
    (same : ∀ item ∈ items, ∀ state, step state item = other state item) :
    runSteps step start items = runSteps other start items := by
  induction items generalizing start with
  | nil => rfl
  | cons item tail ih =>
      rw [runSteps, runSteps, same item (by simp) start]
      cases other start item with
      | error e => rfl
      | ok next => exact ih next fun later member => same later (by simp [member])

def taken (step : σ → α → Except ε σ) : σ → List α → List α
  | _, [] => []
  | state, item :: tail =>
      match step state item with
      | .error _ => []
      | .ok next => item :: taken step next tail

theorem run_steps_taken (step : σ → α → Except ε σ) (start : σ) (items : List α) :
    runSteps step start (taken step start items) = ((runSteps step start items).1, .ok ()) := by
  induction items generalizing start with
  | nil => rfl
  | cons item tail ih =>
      cases first : step start item with
      | error e => rw [taken, first, run_steps_cons_error step start item tail e first, runSteps]
      | ok next =>
          rw [taken, first, run_steps_cons_ok step start next item tail first]
          dsimp only
          rw [run_steps_cons_ok step start next item _ first]
          exact ih next

inductive Alike {τ : Type} (rel : σ → τ → Prop) : Except ε σ → Except ε τ → Prop where
  | error (e : ε) : Alike rel (.error e) (.error e)
  | ok (a : σ) (b : τ) (related : rel a b) : Alike rel (.ok a) (.ok b)

theorem run_steps_alike {τ : Type} (step : σ → α → Except ε σ) (other : τ → α → Except ε τ) (rel : σ → τ → Prop)
    (each : ∀ a b item, rel a b → Alike rel (step a item) (other b item)) (a : σ) (b : τ) (initial : rel a b)
    (items : List α) :
    (runSteps step a items).2 = (runSteps other b items).2 ∧ rel (runSteps step a items).1 (runSteps other b items).1 := by
  induction items generalizing a b with
  | nil => exact ⟨rfl, initial⟩
  | cons item tail ih =>
      have ends := each a b item initial
      rw [runSteps, runSteps]
      generalize step a item = first at ends
      generalize other b item = second at ends
      cases ends with
      | error e => exact ⟨rfl, initial⟩
      | ok next next' related => exact ih next next' related

theorem run_calls_invariant (call : σ → α → σ × ρ) (inv : σ → Prop) (inputs : List α) (start : σ)
    (initial : inv start) (preserved : ∀ state input, inv state → inv (call state input).1) :
    inv (runCalls call start inputs) := by
  induction inputs generalizing start with
  | nil => exact initial
  | cons input tail ih => exact ih (call start input).1 (preserved start input initial)

def Along (call : σ → α → σ × ρ) (property : σ → α → Prop) : σ → List α → Prop
  | _, [] => True
  | state, input :: tail => property state input ∧ Along call property (call state input).1 tail

instance decidableAlong (call : σ → α → σ × ρ) (property : σ → α → Prop) [∀ state input, Decidable (property state input)] :
    (state : σ) → (inputs : List α) → Decidable (Along call property state inputs)
  | _, [] => inferInstanceAs (Decidable True)
  | state, input :: tail =>
      have := decidableAlong call property (call state input).1 tail
      inferInstanceAs (Decidable (property state input ∧ Along call property (call state input).1 tail))

theorem along_of_invariant (call : σ → α → σ × ρ) (inv : σ → Prop) (property : σ → α → Prop) (start : σ)
    (inputs : List α) (initial : inv start)
    (step : ∀ state, ∀ input ∈ inputs, inv state → property state input ∧ inv (call state input).1) :
    Along call property start inputs := by
  induction inputs generalizing start with
  | nil => trivial
  | cons head tail ih =>
      obtain ⟨first, next⟩ := step start head (by simp) initial
      exact ⟨first, ih (call start head).1 next fun state input member => step state input (by simp [member])⟩

theorem along_and (call : σ → α → σ × ρ) (p q : σ → α → Prop) (start : σ) (inputs : List α)
    (first : Along call p start inputs) (second : Along call q start inputs) :
    Along call (fun state input => p state input ∧ q state input) start inputs := by
  induction inputs generalizing start with
  | nil => trivial
  | cons head tail ih => exact ⟨⟨first.1, second.1⟩, ih _ first.2 second.2⟩

theorem along_mono (call : σ → α → σ × ρ) (p q : σ → α → Prop) (start : σ) (inputs : List α)
    (implies : ∀ state, ∀ input ∈ inputs, p state input → q state input) (holds : Along call p start inputs) :
    Along call q start inputs := by
  induction inputs generalizing start with
  | nil => trivial
  | cons head tail ih =>
      exact ⟨implies start head (by simp) holds.1,
        ih _ (fun state input member => implies state input (by simp [member])) holds.2⟩

theorem run_calls_append (call : σ → α → σ × ρ) (start : σ) (before after : List α) :
    runCalls call start (before ++ after) = runCalls call (runCalls call start before) after := by
  rw [runCalls, runCalls, runCalls, List.foldl_append]

theorem along_append (call : σ → α → σ × ρ) (property : σ → α → Prop) (start : σ) (before after : List α) :
    Along call property start (before ++ after) ↔
      Along call property start before ∧ Along call property (runCalls call start before) after := by
  induction before generalizing start with
  | nil => exact ⟨fun holds => ⟨trivial, holds⟩, fun holds => holds.2⟩
  | cons input tail ih =>
      rw [List.cons_append, Along, Along, ih, and_assoc]
      rfl

theorem along_take (call : σ → α → σ × ρ) (property : σ → α → Prop) (start : σ) (inputs : List α) (k : Nat)
    (holds : Along call property start inputs) : Along call property start (inputs.take k) := by
  rw [← List.take_append_drop k inputs] at holds
  exact ((along_append ..).mp holds).1

theorem along_at (call : σ → α → σ × ρ) (property : σ → α → Prop) (start : σ) (inputs : List α) (k : Nat) (input : α)
    (holds : Along call property start inputs) (found : inputs[k]? = some input) :
    property (runCalls call start (inputs.take k)) input := by
  obtain ⟨bound, atIndex⟩ := List.getElem?_eq_some_iff.mp found
  rw [← List.take_append_drop k inputs, ← List.getElem_cons_drop bound, atIndex] at holds
  exact ((along_append ..).mp holds).2.1

theorem run_calls_take_succ (call : σ → α → σ × ρ) (start : σ) (inputs : List α) (k : Nat) (input : α)
    (found : inputs[k]? = some input) :
    runCalls call start (inputs.take (k + 1)) = (call (runCalls call start (inputs.take k)) input).1 := by
  rw [List.take_add_one, found, Option.toList_some, run_calls_append]
  rfl

def replies (call : σ → α → σ × ρ) : σ → List α → List ρ
  | _, [] => []
  | state, input :: tail => (call state input).2 :: replies call (call state input).1 tail

@[simp] theorem length_replies (call : σ → α → σ × ρ) (state : σ) (inputs : List α) :
    (replies call state inputs).length = inputs.length := by
  induction inputs generalizing state with
  | nil => rfl
  | cons input tail ih => rw [replies, List.length_cons, List.length_cons, ih]

theorem replies_simulated {τ : Type} (call : σ → α → σ × ρ) (other : τ → α → τ × ρ) (rel : σ → τ → Prop)
    (step : ∀ a b input, rel a b → (call a input).2 = (other b input).2 ∧ rel (call a input).1 (other b input).1)
    (a : σ) (b : τ) (initial : rel a b) (inputs : List α) : replies call a inputs = replies other b inputs := by
  induction inputs generalizing a b with
  | nil => rfl
  | cons input tail ih =>
      obtain ⟨same, next⟩ := step a b input initial
      rw [replies, replies, same, ih _ _ next]

theorem states_simulated {τ : Type} (call : σ → α → σ × ρ) (other : τ → α → τ × ρ) (rel : σ → τ → Prop)
    (step : ∀ a b input, rel a b → rel (call a input).1 (other b input).1) (a : σ) (b : τ) (initial : rel a b)
    (inputs : List α) : rel (runCalls call a inputs) (runCalls other b inputs) := by
  induction inputs generalizing a b with
  | nil => exact initial
  | cons input tail ih => exact ih _ _ (step a b input initial)

theorem fold_option_relation {τ : Type} (step : σ → Nat → Option σ) (other : τ → Nat → Option τ) (rel : Nat → σ → τ → Prop)
    (first count : Nat) (a : σ) (b : τ) (initial : rel first a b)
    (related : ∀ n a b, n < first + count → rel n a b →
      ∃ a' b', step a n = some a' ∧ other b n = some b' ∧ rel (n + 1) a' b') :
    ∃ a' b', (List.range' first count).foldlM step a = some a' ∧ (List.range' first count).foldlM other b = some b' ∧
      rel (first + count) a' b' := by
  induction count generalizing first a b with
  | zero => exact ⟨a, b, rfl, rfl, initial⟩
  | succ count ih =>
      obtain ⟨a', b', taken, otherTaken, next⟩ := related first a b (by omega) initial
      obtain ⟨a'', b'', ran, otherRan, final⟩ := ih (first + 1) a' b' next fun n a b bound =>
        related n a b (by omega)
      refine ⟨a'', b'', ?_, ?_, ?_⟩
      · rw [List.range'_succ, List.foldlM_cons, taken]
        exact ran
      · rw [List.range'_succ, List.foldlM_cons, otherTaken]
        exact otherRan
      · rwa [Nat.add_right_comm, Nat.add_assoc] at final

theorem fold_option_invariant (step : σ → Nat → Option σ) (inv : Nat → σ → Prop) (first count : Nat) (a : σ)
    (initial : inv first a)
    (preserved : ∀ n a, n < first + count → inv n a → ∃ a', step a n = some a' ∧ inv (n + 1) a') :
    ∃ a', (List.range' first count).foldlM step a = some a' ∧ inv (first + count) a' := by
  obtain ⟨a', _, ran, _, final⟩ := fold_option_relation step (fun _ _ => some ()) (fun n a _ => inv n a) first count a ()
    initial fun n a _ bound holds => by
      obtain ⟨a', taken, next⟩ := preserved n a bound holds
      exact ⟨a', (), taken, rfl, next⟩
  exact ⟨a', ran, final⟩

end Steps
