import Mathlib

/-! Runs of a deterministic step function. A run is guarded by a condition on
the state before each step and the event taken there; an invariant that every
guarded step keeps holds in every state a guarded run reaches. -/
namespace Runs

variable {σ ε : Type*}

/-- The state after a finite sequence of events. -/
def run (step : σ → ε → σ) (start : σ) (events : List ε) : σ :=
  events.foldl step start

/-- Every event of the run is taken in a state in which `guard` allows it. -/
def Along (step : σ → ε → σ) (guard : σ → ε → Prop) : σ → List ε → Prop
  | _, [] => True
  | state, event :: rest => guard state event ∧ Along step guard (step state event) rest

instance decidableAlong (step : σ → ε → σ) (guard : σ → ε → Prop)
    [∀ state event, Decidable (guard state event)] :
    ∀ (start : σ) (events : List ε), Decidable (Along step guard start events)
  | _, [] => .isTrue trivial
  | start, event :: rest =>
      have := decidableAlong step guard (step start event) rest
      inferInstanceAs (Decidable (_ ∧ _))

@[simp] theorem run_nil (step : σ → ε → σ) (start : σ) : run step start [] = start := rfl

@[simp] theorem run_cons (step : σ → ε → σ) (start : σ) (event : ε) (rest : List ε) :
    run step start (event :: rest) = run step (step start event) rest := rfl

theorem run_append (step : σ → ε → σ) (start : σ) (first second : List ε) :
    run step start (first ++ second) = run step (run step start first) second :=
  List.foldl_append

@[simp] theorem run_concat (step : σ → ε → σ) (start : σ) (events : List ε) (event : ε) :
    run step start (events ++ [event]) = step (run step start events) event := by
  rw [run_append]
  rfl

theorem along_append {step : σ → ε → σ} {guard : σ → ε → Prop} {start : σ}
    {first second : List ε} :
    Along step guard start (first ++ second) ↔
      Along step guard start first ∧ Along step guard (run step start first) second := by
  induction first generalizing start with
  | nil => simp [Along]
  | cons event rest ih =>
      simp only [List.cons_append, Along, run_cons, ih, and_assoc]

/-- The invariant rule: what each guarded step keeps, each guarded run keeps. -/
theorem run_invariant {step : σ → ε → σ} {guard : σ → ε → Prop} {inv : σ → Prop}
    (keep : ∀ state event, inv state → guard state event → inv (step state event))
    {start : σ} {events : List ε} (initial : inv start) (along : Along step guard start events) :
    inv (run step start events) := by
  induction events generalizing start with
  | nil => exact initial
  | cons event rest ih => exact ih (keep start event initial along.1) along.2

/-- The invariant rule for runs without a guard. -/
theorem run_invariant_of_step {step : σ → ε → σ} {inv : σ → Prop}
    (keep : ∀ state event, inv state → inv (step state event))
    {start : σ} (events : List ε) (initial : inv start) : inv (run step start events) := by
  induction events generalizing start with
  | nil => exact initial
  | cons event rest ih => exact ih (keep start event initial)

/-- A property that a step keeps exactly when the guard allows it holds in every state of a
run exactly when the run is guarded. -/
theorem along_iff_forall_prefix {step : σ → ε → σ} {guard : σ → ε → Prop} (inv : σ → Prop)
    {good : σ → Prop} (keep : ∀ state event, inv state → good state → (good (step state event) ↔ guard state event))
    (stay : ∀ state event, inv state → guard state event → inv (step state event))
    {start : σ} (initial : inv start) (goodStart : good start) (events : List ε) :
    (∀ before, before <+: events → good (run step start before)) ↔
      Along step guard start events := by
  induction events generalizing start with
  | nil => simp [Along, goodStart]
  | cons event rest ih =>
      constructor
      · intro every
        have goodNext : good (step start event) := every [event] ⟨rest, rfl⟩
        have allowed := (keep start event initial goodStart).mp goodNext
        refine ⟨allowed, (ih (stay start event initial allowed) goodNext).mp ?_⟩
        exact fun before leads => every (event :: before) (List.cons_prefix_cons.mpr ⟨rfl, leads⟩)
      · rintro ⟨allowed, along⟩ before leads
        have goodNext := (keep start event initial goodStart).mpr allowed
        rcases List.prefix_cons_iff.mp leads with rfl | ⟨tail, rfl, follows⟩
        · exact goodStart
        · exact (ih (stay start event initial allowed) goodNext).mpr along tail follows

theorem along_and {step : σ → ε → σ} {first second : σ → ε → Prop} {start : σ}
    {events : List ε} (one : Along step first start events) (two : Along step second start events) :
    Along step (fun state event => first state event ∧ second state event) start events := by
  induction events generalizing start with
  | nil => trivial
  | cons event rest ih => exact ⟨⟨one.1, two.1⟩, ih one.2 two.2⟩

/-- Guards that agree on the events of a run guard it alike. -/
theorem along_congr {step : σ → ε → σ} {first second : σ → ε → Prop} {events : List ε}
    (same : ∀ event ∈ events, ∀ state, first state event ↔ second state event) (start : σ) :
    Along step first start events ↔ Along step second start events := by
  induction events generalizing start with
  | nil => exact Iff.rfl
  | cons event rest ih =>
      obtain ⟨head, tail⟩ := List.forall_mem_cons.mp same
      exact and_congr (head start) (ih tail _)

theorem along_of_forall {step : σ → ε → σ} (allowed : ε → Prop) (start : σ) {events : List ε}
    (every : ∀ event ∈ events, allowed event) :
    Along step (fun _ event => allowed event) start events := by
  induction events generalizing start with
  | nil => trivial
  | cons event rest ih =>
      obtain ⟨first, others⟩ := List.forall_mem_cons.mp every
      exact ⟨first, ih (step start event) others⟩

end Runs
