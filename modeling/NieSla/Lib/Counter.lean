import Mathlib

/-! Readings of a counter that may restart: an increment is the amount by which a
reading exceeds the one before it, and a reading below it contributes nothing. -/
namespace Counter

/-- The increment that one more reading brings. Without a reading before it, the
next one is only adopted. -/
def increment : Option Nat → Nat → Nat
  | none, _ => 0
  | some last, reading => reading - last

/-- The sum of the increments of a sequence of readings, starting from `last`. -/
def increments : Option Nat → List Nat → Nat
  | _, [] => 0
  | last, reading :: rest => increment last reading + increments (some reading) rest

/-- The reading against which the next one counts. -/
def baseline (last : Option Nat) (readings : List Nat) : Option Nat :=
  readings.getLast?.or last

@[simp] theorem baseline_nil (last : Option Nat) : baseline last [] = last := rfl

@[simp] theorem baseline_concat (last : Option Nat) (readings : List Nat) (reading : Nat) :
    baseline last (readings ++ [reading]) = some reading := by
  simp [baseline]

theorem baseline_cons (last : Option Nat) (reading : Nat) (rest : List Nat) :
    baseline last (reading :: rest) = baseline (some reading) rest := by
  cases rest <;> simp [baseline, List.getLast?_cons]

theorem increments_concat (last : Option Nat) (readings : List Nat) (reading : Nat) :
    increments last (readings ++ [reading]) =
      increments last readings + increment (baseline last readings) reading := by
  induction readings generalizing last with
  | nil => simp [increments]
  | cons head rest ih =>
      rw [List.cons_append, baseline_cons]
      simp only [increments, ih (some head), Nat.add_assoc]

/-- A reading that does not fall is reached from the last one by its increment. -/
theorem add_increment_of_le {last reading : Nat} (rising : last ≤ reading) :
    last + increment (some last) reading = reading :=
  Nat.add_sub_of_le rising

end Counter
