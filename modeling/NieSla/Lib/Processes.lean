import NieSla.Lib.Runs

/-! Processes that share a state and take atomic steps in any order. What each step keeps
for its own process and for all others holds along every run. -/
namespace Processes

variable {σ φ ι : Type*}

structure Pool (σ φ : Type*) where
  shared : σ
  phase : Nat → φ

/-- The next step of one process, with the input it gets. -/
def step (act : Nat → σ → φ → ι → σ × φ) (pool : Pool σ φ) (event : Nat × ι) : Pool σ φ :=
  let next := act event.1 pool.shared (pool.phase event.1) event.2
  ⟨next.1, Function.update pool.phase event.1 next.2⟩

def Allowed (guard : Nat → σ → φ → ι → Prop) (pool : Pool σ φ) (event : Nat × ι) : Prop :=
  guard event.1 pool.shared (pool.phase event.1) event.2

instance (guard : Nat → σ → φ → ι → Prop) [∀ process state phase input,
    Decidable (guard process state phase input)] (pool : Pool σ φ) (event : Nat × ι) :
    Decidable (Allowed guard pool event) :=
  inferInstanceAs (Decidable (guard _ _ _ _))

structure Invariant (global : σ → Prop) (own : Nat → σ → φ → Prop) (pool : Pool σ φ) : Prop where
  shared : global pool.shared
  phase : ∀ process, own process pool.shared (pool.phase process)

/-- What a guarded step of one process keeps, for itself and for every other process. -/
structure Keeps (act : Nat → σ → φ → ι → σ × φ) (guard : Nat → σ → φ → ι → Prop)
    (global : σ → Prop) (own : Nat → σ → φ → Prop) : Prop where
  shared : ∀ process state phase input, global state → own process state phase →
    guard process state phase input → global (act process state phase input).1
  self : ∀ process state phase input, global state → own process state phase →
    guard process state phase input →
      own process (act process state phase input).1 (act process state phase input).2
  others : ∀ process state phase input, global state → own process state phase →
    guard process state phase input → ∀ other, other ≠ process → ∀ waiting,
      own other state waiting → own other (act process state phase input).1 waiting

theorem invariant_step {act : Nat → σ → φ → ι → σ × φ} {guard : Nat → σ → φ → ι → Prop}
    {global : σ → Prop} {own : Nat → σ → φ → Prop} (keeps : Keeps act guard global own)
    {pool : Pool σ φ} {event : Nat × ι} (holds : Invariant global own pool)
    (allowed : Allowed guard pool event) : Invariant global own (step act pool event) := by
  constructor
  · exact keeps.shared _ _ _ _ holds.shared (holds.phase event.1) allowed
  · intro other
    by_cases same : other = event.1
    · subst same
      simp only [step, Function.update_self]
      exact keeps.self _ _ _ _ holds.shared (holds.phase event.1) allowed
    · simp only [step, Function.update_of_ne same]
      exact keeps.others _ _ _ _ holds.shared (holds.phase event.1) allowed other same _
        (holds.phase other)

theorem phase_of_not_mem {act : Nat → σ → φ → ι → σ × φ} {process : Nat} {events : List (Nat × ι)}
    (pool : Pool σ φ) (absent : ∀ event ∈ events, event.1 ≠ process) :
    (Runs.run (step act) pool events).phase process = pool.phase process := by
  induction events generalizing pool with
  | nil => rfl
  | cons event rest ih =>
      obtain ⟨first, others⟩ := List.forall_mem_cons.mp absent
      rw [Runs.run_cons, ih _ others]
      exact Function.update_of_ne first.symm _ _

theorem run_invariant {act : Nat → σ → φ → ι → σ × φ} {guard : Nat → σ → φ → ι → Prop}
    {global : σ → Prop} {own : Nat → σ → φ → Prop} (keeps : Keeps act guard global own)
    {pool : Pool σ φ} {events : List (Nat × ι)} (initial : Invariant global own pool)
    (along : Runs.Along (step act) (Allowed guard) pool events) :
    Invariant global own (Runs.run (step act) pool events) :=
  Runs.run_invariant (fun _ _ holds allowed => invariant_step keeps holds allowed) initial along

/-! Things that are due until some process has seen to them. -/

/-- Every thing that is due is covered by some process. -/
def Covered {τ : Type*} (due : σ → τ → Prop) (covers : φ → τ → Prop) (pool : Pool σ φ) : Prop :=
  ∀ thing, due pool.shared thing → ∃ process, covers (pool.phase process) thing

/-- After a guarded step, what is due was due before and is not left uncovered by the process, or is
covered by it. -/
def Answers {τ : Type*} (act : Nat → σ → φ → ι → σ × φ) (guard : Nat → σ → φ → ι → Prop)
    (global : σ → Prop) (own : Nat → σ → φ → Prop) (due : σ → τ → Prop) (covers : φ → τ → Prop) :
    Prop :=
  ∀ process state phase input, global state → own process state phase →
    guard process state phase input → ∀ thing, due (act process state phase input).1 thing →
      (due state thing ∧ ¬ covers phase thing) ∨ covers (act process state phase input).2 thing

theorem run_covered {τ : Type*} {act : Nat → σ → φ → ι → σ × φ}
    {guard : Nat → σ → φ → ι → Prop} {global : σ → Prop} {own : Nat → σ → φ → Prop}
    {due : σ → τ → Prop} {covers : φ → τ → Prop} (keeps : Keeps act guard global own)
    (answers : Answers act guard global own due covers) {pool : Pool σ φ}
    {events : List (Nat × ι)} (initial : Invariant global own pool)
    (covered : Covered due covers pool) (along : Runs.Along (step act) (Allowed guard) pool events) :
    Invariant global own (Runs.run (step act) pool events) ∧
      Covered due covers (Runs.run (step act) pool events) := by
  have keep (pool : Pool σ φ) (event : Nat × ι)
      (holds : Invariant global own pool ∧ Covered due covers pool)
      (allowed : Allowed guard pool event) :
      Invariant global own (step act pool event) ∧ Covered due covers (step act pool event) := by
    refine ⟨invariant_step keeps holds.1 allowed, fun thing after => ?_⟩
    cases answers _ _ _ _ holds.1.shared (holds.1.phase event.1) allowed thing after with
    | inr new =>
        refine ⟨event.1, ?_⟩
        simp only [step, Function.update_self]
        exact new
    | inl before =>
        obtain ⟨process, answering⟩ := holds.2 thing before.1
        have other : process ≠ event.1 := by
          rintro rfl
          exact before.2 answering
        refine ⟨process, ?_⟩
        simp only [step, Function.update_of_ne other]
        exact answering
  exact Runs.run_invariant keep ⟨initial, covered⟩ along

end Processes
