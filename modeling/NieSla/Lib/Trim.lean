import Mathlib

/-! Lists without the elements of one kind at their ends. -/
namespace Trim

variable {α : Type*} (space : α → Bool)

def trimBy (list : List α) : List α := ((list.dropWhile space).reverse.dropWhile space).reverse

theorem trimBy_eq (list : List α) : trimBy space list = (list.dropWhile space).rdropWhile space := rfl

theorem length_trimBy_le (list : List α) : (trimBy space list).length ≤ list.length := by
  unfold trimBy
  rw [List.length_reverse]
  calc ((list.dropWhile space).reverse.dropWhile space).length
      ≤ (list.dropWhile space).reverse.length := (List.dropWhile_suffix _).length_le
    _ = (list.dropWhile space).length := List.length_reverse
    _ ≤ list.length := (List.dropWhile_suffix _).length_le

@[simp] theorem trimBy_trimBy (list : List α) : trimBy space (trimBy space list) = trimBy space list := by
  simp only [trimBy_eq]
  have leads := List.rdropWhile_prefix space (list.dropWhile space)
  have opens : ((list.dropWhile space).rdropWhile space).dropWhile space =
      (list.dropWhile space).rdropWhile space := by
    rw [List.dropWhile_eq_self_iff]
    intro long
    rw [leads.getElem long]
    exact List.dropWhile_get_zero_not _ _ _
  rw [opens, List.rdropWhile_idempotent]

end Trim
