import Mathlib

/-! The length of the part of one interval of integers that lies in another one. -/
namespace Interval

/-- How much of `[start, stop)` lies in `[low, high)`. -/
def overlap (low high start stop : Int) : Int := max 0 (min high stop - max low start)

variable {low high start mid stop : Int}

theorem overlap_nonneg : 0 ≤ overlap low high start stop := le_max_left _ _

theorem overlap_of_le (empty : stop ≤ start) : overlap low high start stop = 0 := by
  unfold overlap
  omega

theorem overlap_of_before (before : stop ≤ low) : overlap low high start stop = 0 := by
  unfold overlap
  omega

theorem overlap_of_after (after : high ≤ start) : overlap low high start stop = 0 := by
  unfold overlap
  omega

theorem overlap_of_inside (first : low ≤ start) (ordered : start ≤ stop) (last : stop ≤ high) :
    overlap low high start stop = stop - start := by
  unfold overlap
  omega

/-- An interval cut in two overlaps as its parts do. -/
theorem overlap_add (first : start ≤ mid) (second : mid ≤ stop) :
    overlap low high start mid + overlap low high mid stop = overlap low high start stop := by
  unfold overlap
  omega

end Interval
