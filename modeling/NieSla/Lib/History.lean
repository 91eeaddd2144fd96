import Mathlib

/-! Histories that grow at their end, and what each entry owes to those before it. -/
namespace Lib

variable {α : Type*}

/-- Every entry is good after the entries before it. -/
def EachAfter (good : List α → α → Prop) (log : List α) : Prop :=
  ∀ before entry after, log = before ++ entry :: after → good before entry

theorem eachAfter_nil (good : List α → α → Prop) : EachAfter good [] := by
  intro before entry after parts
  cases List.append_eq_nil_iff.mp parts.symm with
  | intro _ empty => cases empty

/-- The last entry is good after the whole history before it. -/
theorem EachAfter.concat {good : List α → α → Prop} {log : List α} (each : EachAfter good log)
    {last : α} (new : good log last) : EachAfter good (log ++ [last]) := by
  intro before entry after parts
  cases List.eq_nil_or_concat after with
  | inl empty =>
      subst empty
      obtain ⟨rfl, same⟩ := List.append_inj' parts rfl
      cases same
      exact new
  | inr split =>
      obtain ⟨rest, item, rfl⟩ := split
      rw [List.concat_eq_append, ← List.cons_append, ← List.append_assoc] at parts
      exact each before entry rest (List.append_inj' parts rfl).1

end Lib
