import Mathlib

/-! The greatest number that fits, by doubling and then halving. -/
namespace Search

/-- Doubles a number until it passes the ceiling or does not fit. -/
def doubled (fits : ℕ → Bool) (ceiling hi : ℕ) (positive : 0 < hi) : ℕ :=
  if hi < ceiling ∧ fits hi = true then doubled fits ceiling (hi * 2) (Nat.mul_pos positive Nat.two_pos) else hi
termination_by ceiling - hi

/-- Halves the gap between a number that fits and one that does not. -/
def bisect (fits : ℕ → Bool) (lo hi : ℕ) : ℕ :=
  if 1 < hi - lo then
    if fits ((lo + hi) / 2) then bisect fits ((lo + hi) / 2) hi else bisect fits lo ((lo + hi) / 2)
  else lo
termination_by hi - lo

variable {fits : ℕ → Bool} {ceiling lo hi : ℕ}

theorem doubled_pos (positive : 0 < hi) : 0 < doubled fits ceiling hi positive := by
  fun_induction doubled fits ceiling hi positive with
  | case1 hi positive more ih => exact ih
  | case2 hi positive stop => exact positive

/-- Below the ceiling it does not fit. -/
theorem doubled_not_fits (positive : 0 < hi) (below : doubled fits ceiling hi positive < ceiling) :
    fits (doubled fits ceiling hi positive) = false := by
  fun_induction doubled fits ceiling hi positive with
  | case1 hi positive more ih => exact ih below
  | case2 hi positive stop => exact Bool.eq_false_of_not_eq_true fun fit => stop ⟨below, fit⟩

/-- One that fits below the given bound, and whose successor does not. -/
theorem bisect_spec (lt : lo < hi) (low : fits lo = true) (high : fits hi = false) :
    bisect fits lo hi < hi ∧ fits (bisect fits lo hi) = true ∧ fits (bisect fits lo hi + 1) = false := by
  fun_induction bisect fits lo hi with
  | case1 lo hi gap fit ih => exact ih (by omega) fit high
  | case2 lo hi gap unfit ih =>
      obtain ⟨below, rest⟩ := ih (by omega) low (Bool.eq_false_of_not_eq_true unfit)
      exact ⟨by omega, rest⟩
  | case3 lo hi close =>
      obtain rfl : hi = lo + 1 := by omega
      exact ⟨lt, low, high⟩

/-- Where less always fits as well, one that fits before one that does not is the greatest up to the ceiling. -/
theorem isGreatest_of_next (closed : ∀ m n, m ≤ n → fits n = true → fits m = true) (le : lo ≤ ceiling)
    (low : fits lo = true) (next : lo = ceiling ∨ fits (lo + 1) = false) :
    IsGreatest {n | n ≤ ceiling ∧ ∀ m ≤ n, fits m = true} lo := by
  refine ⟨⟨le, fun m below => closed m lo below low⟩, ?_⟩
  rintro n ⟨within, all⟩
  obtain rfl | unfit := next
  · exact within
  · by_contra more
    rw [all (lo + 1) (by omega)] at unfit
    contradiction

end Search
