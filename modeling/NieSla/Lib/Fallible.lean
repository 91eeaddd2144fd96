import Mathlib

/-! Computations over a state that may fail. What was written before a failure stays written, and a
handler goes on from there. -/

abbrev Fallible (ε σ α : Type) := ExceptT ε (StateM σ) α

namespace Fallible

variable {ε σ α β : Type}

/-- One step: an answer or a failure, and the state after it. -/
def step (run : σ → Except ε α × σ) : Fallible ε σ α := run

def ofExcept : Except ε α → Fallible ε σ α
  | .ok value => pure value
  | .error failure => throw failure

def refuse (bad : Prop) [Decidable bad] (failure : ε) : Fallible ε σ Unit :=
  if bad then throw failure else pure ()

def outcome (action : Fallible ε σ α) (before : σ) : Except ε α × σ := action before

def Returns (action : Fallible ε σ α) (before : σ) (value : α) (after : σ) : Prop :=
  outcome action before = (.ok value, after)

def Fails (action : Fallible ε σ α) (before : σ) (failure : ε) (after : σ) : Prop :=
  outcome action before = (.error failure, after)

theorem returns_outcome {action : Fallible ε σ α} {before : σ} {value : α}
    (ok : (outcome action before).1 = .ok value) : Returns action before value (outcome action before).2 := by
  rw [Returns, ← ok]

theorem error_ne_ok {failure : ε} {value : α} : (Except.error failure : Except ε α) ≠ .ok value := nofun

theorem bind_eq_ok {first : Except ε α} {next : α → Except ε β} {result : β} :
    (first >>= next) = .ok result ↔ ∃ value, first = .ok value ∧ next value = .ok result := by
  cases first with
  | error problem => exact ⟨nofun, nofun⟩
  | ok value =>
      constructor
      · exact fun same => ⟨value, rfl, same⟩
      · rintro ⟨_, found, same⟩
        cases found
        exact same

section Rules

variable {s t u : σ} {a : α} {b : β} {e : ε} {x : Fallible ε σ α} {f : α → Fallible ε σ β}

theorem outcome_bind : outcome (x >>= f) s =
    match outcome x s with
    | (.ok value, after) => outcome (f value) after
    | (.error failure, after) => (.error failure, after) := by
  change (ExceptT.bind x f) s = _
  simp only [ExceptT.bind, ExceptT.mk, ExceptT.bindCont, bind, StateT.bind, outcome]
  rcases x s with ⟨_ | _, _⟩
  · rfl
  · rfl

@[simp] theorem returns_pure {value : α} : Returns (pure value : Fallible ε σ α) s a t ↔ value = a ∧ s = t := by
  change ((Except.ok value, s) : Except ε α × σ) = (.ok a, t) ↔ _
  simp

@[simp] theorem returns_throw : ¬ Returns (throw e : Fallible ε σ α) s a t := by
  change ¬ ((Except.error e, s) : Except ε α × σ) = (.ok a, t)
  simp

@[simp] theorem fails_pure {value : α} : ¬ Fails (pure value : Fallible ε σ α) s e t := by
  change ¬ ((Except.ok value, s) : Except ε α × σ) = (.error e, t)
  simp

@[simp] theorem fails_throw {e' : ε} : Fails (throw e : Fallible ε σ α) s e' t ↔ e = e' ∧ s = t := by
  change ((Except.error e, s) : Except ε α × σ) = (.error e', t) ↔ _
  simp

theorem returns_bind : Returns (x >>= f) s b u ↔ ∃ a t, Returns x s a t ∧ Returns (f a) t b u := by
  rw [Returns, outcome_bind]
  rcases ran : outcome x s with ⟨failure | value, after⟩
  · simp [Returns, ran]
  · constructor
    · exact fun ok => ⟨value, after, ran, ok⟩
    · rintro ⟨a, t, first, ok⟩
      rw [Returns, ran, Prod.mk.injEq, Except.ok.injEq] at first
      rw [first.1, first.2]
      exact ok

theorem fails_bind : Fails (x >>= f) s e u ↔
    Fails x s e u ∨ ∃ a t, Returns x s a t ∧ Fails (f a) t e u := by
  rw [Fails, outcome_bind]
  rcases ran : outcome x s with ⟨failure | value, after⟩
  · simp [Fails, Returns, ran]
  · constructor
    · exact fun ok => .inr ⟨value, after, ran, ok⟩
    · rintro (fails | ⟨a, t, first, ok⟩)
      · rw [Fails, ran] at fails
        cases fails
      · rw [Returns, ran, Prod.mk.injEq, Except.ok.injEq] at first
        rw [first.1, first.2]
        exact ok

@[simp] theorem returns_map {g : α → β} : Returns (g <$> x) s b u ↔ ∃ a, Returns x s a u ∧ g a = b := by
  rw [map_eq_pure_bind, returns_bind]
  simp only [returns_pure]
  constructor
  · rintro ⟨a, t, ok, same, rfl⟩
    exact ⟨a, ok, same⟩
  · rintro ⟨a, ok, same⟩
    exact ⟨a, u, ok, same, rfl⟩

@[simp] theorem returns_step {run : σ → Except ε α × σ} : Returns (step run) s a t ↔ run s = (.ok a, t) :=
  Iff.rfl

@[simp] theorem returns_ofExcept {result : Except ε α} :
    Returns (ofExcept result : Fallible ε σ α) s a t ↔ result = .ok a ∧ s = t := by
  cases result with
  | error failure => simp [ofExcept]
  | ok value => simp [ofExcept]

@[simp] theorem returns_refuse {bad : Prop} [Decidable bad] {u : Unit} :
    Returns (refuse bad e : Fallible ε σ Unit) s u t ↔ ¬ bad ∧ s = t := by
  unfold refuse
  split
  · simp [*]
  · simp [*]

theorem returns_tryCatch {handler : ε → Fallible ε σ α} : Returns (tryCatch x handler) s a u ↔
    Returns x s a u ∨ ∃ e t, Fails x s e t ∧ Returns (handler e) t a u := by
  have both : outcome (tryCatch x handler) s =
      match outcome x s with
      | (.ok value, after) => (.ok value, after)
      | (.error failure, after) => outcome (handler failure) after := by
    change (ExceptT.tryCatch x handler) s = _
    simp only [ExceptT.tryCatch, ExceptT.mk, bind, StateT.bind, outcome]
    rcases x s with ⟨_ | _, _⟩
    · rfl
    · rfl
  rw [Returns, both]
  rcases ran : outcome x s with ⟨failure | value, after⟩
  · simp [Returns, Fails, ran]
  · simp [Returns, Fails, ran]

/-- The answers of a loop, each from its own item. -/
theorem returns_mapM {items : List α} {answers : List β} (ok : Returns (items.mapM f) s answers t) :
    List.Forall₂ (fun item answer => ∃ before after, Returns (f item) before answer after) items answers := by
  induction items generalizing s t answers with
  | nil =>
      rw [List.mapM_nil] at ok
      rw [← (returns_pure.mp ok).1]
      exact .nil
  | cons item rest ih =>
      rw [List.mapM_cons] at ok
      obtain ⟨answer, between, one, ok⟩ := returns_bind.mp ok
      obtain ⟨others, last, more, ok⟩ := returns_bind.mp ok
      rw [← (returns_pure.mp ok).1]
      exact .cons ⟨s, between, one⟩ (ih more)

end Rules

end Fallible
