import Mathlib

/-! The proleptic Gregorian calendar over day numbers (day 0 is 1970-01-01) and
month indices (`12 * year + month`, the month counted from 0), as the time
algorithms of ECMAScript fix it, and the monthly periods that a reset day cuts. -/
namespace Calendar

/-- The day number of 1 January. -/
def dayFromYear (year : Int) : Int :=
  365 * (year - 1970) + (year - 1969) / 4 - (year - 1901) / 100 + (year - 1601) / 400

def isLeap (year : Int) : Bool :=
  year % 4 = 0 && (year % 100 ≠ 0 || year % 400 = 0)

theorem dayFromYear_succ (year : Int) :
    dayFromYear (year + 1) = dayFromYear year + 365 + if isLeap year then 1 else 0 := by
  unfold dayFromYear isLeap
  split_ifs with leap <;>
    simp only [ne_eq, decide_not, Bool.and_eq_true, decide_eq_true_eq, Bool.or_eq_true,
      Bool.not_eq_eq_eq_not, Bool.not_true, decide_eq_false_iff_not] at leap <;>
    omega

/-- The year of a day: the mean year length finds it up to one year. -/
def yearOfDay (day : Int) : Int :=
  let guess := 1970 + 400 * day / 146097
  if day < dayFromYear guess then guess - 1
  else if dayFromYear (guess + 1) ≤ day then guess + 1
  else guess

theorem dayFromYear_yearOfDay_le (day : Int) : dayFromYear (yearOfDay day) ≤ day := by
  unfold yearOfDay dayFromYear
  dsimp only
  split_ifs <;> omega

theorem lt_dayFromYear_yearOfDay_succ (day : Int) : day < dayFromYear (yearOfDay day + 1) := by
  unfold yearOfDay
  dsimp only
  split_ifs with before after
  · rwa [sub_add_cancel]
  · unfold dayFromYear at *
    omega
  · omega

/-- The days of the year before its month `month` (January is month 0). -/
def daysBeforeMonth (leap : Bool) (month : Int) : Int :=
  let feb := if leap then 29 else 28
  if month ≤ 0 then 0
  else if month = 1 then 31
  else if month = 2 then 31 + feb
  else if month = 3 then 62 + feb
  else if month = 4 then 92 + feb
  else if month = 5 then 123 + feb
  else if month = 6 then 153 + feb
  else if month = 7 then 184 + feb
  else if month = 8 then 215 + feb
  else if month = 9 then 245 + feb
  else if month = 10 then 276 + feb
  else if month = 11 then 306 + feb
  else 337 + feb

def firstOfMonth (month : Int) : Int :=
  dayFromYear (month / 12) + daysBeforeMonth (isLeap (month / 12)) (month % 12)

def daysInMonth (month : Int) : Int := firstOfMonth (month + 1) - firstOfMonth month

private theorem daysBeforeMonth_zero (leap : Bool) : daysBeforeMonth leap 0 = 0 := rfl

private theorem daysBeforeMonth_twelve (leap : Bool) :
    daysBeforeMonth leap 12 = 365 + if leap then 1 else 0 := by
  cases leap <;> rfl

/-- The months of a year follow each other, December being followed by the next year. -/
theorem firstOfMonth_succ (month : Int) :
    firstOfMonth (month + 1) = dayFromYear (month / 12) +
      daysBeforeMonth (isLeap (month / 12)) (month % 12 + 1) := by
  unfold firstOfMonth
  by_cases december : month % 12 = 11
  · have year : (month + 1) / 12 = month / 12 + 1 := by omega
    have january : (month + 1) % 12 = 0 := by omega
    have length := daysBeforeMonth_twelve (isLeap (month / 12))
    rw [year, january, december, dayFromYear_succ, daysBeforeMonth_zero,
      show (11 : Int) + 1 = 12 from rfl, length]
    omega
  · have year : (month + 1) / 12 = month / 12 := by omega
    have next : (month + 1) % 12 = month % 12 + 1 := by omega
    rw [year, next]

private theorem daysBeforeMonth_succ (leap : Bool) (month : Int) (low : 0 ≤ month)
    (high : month < 12) :
    28 ≤ daysBeforeMonth leap (month + 1) - daysBeforeMonth leap month ∧
      daysBeforeMonth leap (month + 1) - daysBeforeMonth leap month ≤ 31 := by
  obtain rfl | rfl | rfl | rfl | rfl | rfl | rfl | rfl | rfl | rfl | rfl | rfl :
      month = 0 ∨ month = 1 ∨ month = 2 ∨ month = 3 ∨ month = 4 ∨ month = 5 ∨
        month = 6 ∨ month = 7 ∨ month = 8 ∨ month = 9 ∨ month = 10 ∨ month = 11 := by omega
  all_goals cases leap <;> decide

theorem daysInMonth_ge (month : Int) : 28 ≤ daysInMonth month := by
  have := daysBeforeMonth_succ (isLeap (month / 12)) (month % 12) (by omega) (by omega)
  rw [daysInMonth, firstOfMonth_succ]
  unfold firstOfMonth
  omega

theorem daysInMonth_le (month : Int) : daysInMonth month ≤ 31 := by
  have := daysBeforeMonth_succ (isLeap (month / 12)) (month % 12) (by omega) (by omega)
  rw [daysInMonth, firstOfMonth_succ]
  unfold firstOfMonth
  omega

theorem firstOfMonth_strictMono : StrictMono firstOfMonth :=
  strictMono_of_lt_add_one fun month _ => by
    have := daysInMonth_ge month
    unfold daysInMonth at this
    omega

/-- The month of a year in which its day `offset` (counted from 0) lies, searched
downwards from `month`. -/
def monthInYear (leap : Bool) (offset : Int) : Nat → Int
  | 0 => 0
  | month + 1 =>
      if daysBeforeMonth leap (month + 1) ≤ offset then month + 1
      else monthInYear leap offset month

private theorem monthInYear_spec (leap : Bool) (offset : Int) (low : 0 ≤ offset) (month : Nat)
    (high : offset < daysBeforeMonth leap (month + 1)) :
    (0 ≤ monthInYear leap offset month ∧ monthInYear leap offset month ≤ month) ∧
      daysBeforeMonth leap (monthInYear leap offset month) ≤ offset ∧
        offset < daysBeforeMonth leap (monthInYear leap offset month + 1) := by
  induction month with
  | zero => exact ⟨⟨le_refl _, le_refl _⟩, low, high⟩
  | succ month ih =>
      unfold monthInYear
      split
      · rename_i reached
        push_cast at high
        exact ⟨⟨by omega, by omega⟩, reached, high⟩
      · rename_i early
        obtain ⟨⟨nonneg, bound⟩, below, above⟩ := ih (not_le.mp early)
        exact ⟨⟨nonneg, by omega⟩, below, above⟩

/-- The month index of a day. -/
def monthOfDay (day : Int) : Int :=
  let year := yearOfDay day
  12 * year + monthInYear (isLeap year) (day - dayFromYear year) 11

theorem monthOfDay_spec (day : Int) :
    firstOfMonth (monthOfDay day) ≤ day ∧ day < firstOfMonth (monthOfDay day + 1) := by
  have start := dayFromYear_yearOfDay_le day
  have stop := lt_dayFromYear_yearOfDay_succ day
  rw [dayFromYear_succ] at stop
  have length := daysBeforeMonth_twelve (isLeap (yearOfDay day))
  obtain ⟨⟨low, high⟩, below, above⟩ := monthInYear_spec (isLeap (yearOfDay day))
    (day - dayFromYear (yearOfDay day)) (by omega) 11 (by norm_num; omega)
  have year : monthOfDay day / 12 = yearOfDay day := by
    unfold monthOfDay
    dsimp only
    omega
  have month : monthOfDay day % 12 =
      monthInYear (isLeap (yearOfDay day)) (day - dayFromYear (yearOfDay day)) 11 := by
    unfold monthOfDay
    dsimp only
    omega
  rw [firstOfMonth_succ, firstOfMonth, year, month]
  omega

theorem monthOfDay_eq {day month : Int} (start : firstOfMonth month ≤ day)
    (stop : day < firstOfMonth (month + 1)) : monthOfDay day = month := by
  obtain ⟨low, high⟩ := monthOfDay_spec day
  have := firstOfMonth_strictMono.lt_iff_lt.mp (low.trans_lt stop)
  have := firstOfMonth_strictMono.lt_iff_lt.mp (start.trans_lt high)
  omega

theorem monthOfDay_mono : Monotone monthOfDay := by
  intro day later before
  have low := (monthOfDay_spec day).1
  have high := (monthOfDay_spec later).2
  have := firstOfMonth_strictMono.lt_iff_lt.mp ((low.trans before).trans_lt high)
  omega

/-! Monthly periods. A period starts on the reset day of a month, or on the
month's last day where the month is shorter. -/

/-- The day of a month on which a period with the given reset day starts. -/
def resetDayOf (resetDay month : Int) : Int :=
  firstOfMonth month + min resetDay (daysInMonth month) - 1

/-- The month in which the period of a day starts. -/
def periodMonth (resetDay day : Int) : Int :=
  if day < resetDayOf resetDay (monthOfDay day) then monthOfDay day - 1 else monthOfDay day

section Period

variable {resetDay : Int} (positive : 1 ≤ resetDay)
include positive

theorem firstOfMonth_le_resetDayOf (month : Int) :
    firstOfMonth month ≤ resetDayOf resetDay month := by
  have := daysInMonth_ge month
  unfold resetDayOf
  omega

omit positive in
theorem resetDayOf_lt_firstOfMonth_succ (resetDay month : Int) :
    resetDayOf resetDay month < firstOfMonth (month + 1) := by
  have : min resetDay (daysInMonth month) ≤ daysInMonth month := min_le_right _ _
  unfold resetDayOf
  unfold daysInMonth at *
  omega

theorem resetDayOf_strictMono : StrictMono (resetDayOf resetDay) :=
  strictMono_of_lt_add_one fun month _ =>
    (resetDayOf_lt_firstOfMonth_succ resetDay month).trans_le
      (firstOfMonth_le_resetDayOf positive (month + 1))

/-- Every day lies in its period. -/
theorem periodMonth_spec (day : Int) :
    resetDayOf resetDay (periodMonth resetDay day) ≤ day ∧
      day < resetDayOf resetDay (periodMonth resetDay day + 1) := by
  obtain ⟨low, high⟩ := monthOfDay_spec day
  unfold periodMonth
  split
  · rename_i early
    have := resetDayOf_lt_firstOfMonth_succ resetDay (monthOfDay day - 1)
    rw [sub_add_cancel] at *
    omega
  · have := firstOfMonth_le_resetDayOf positive (monthOfDay day + 1)
    omega

theorem periodMonth_eq {day month : Int} (start : resetDayOf resetDay month ≤ day)
    (stop : day < resetDayOf resetDay (month + 1)) : periodMonth resetDay day = month := by
  obtain ⟨low, high⟩ := periodMonth_spec positive day
  have := (resetDayOf_strictMono positive).lt_iff_lt.mp (low.trans_lt stop)
  have := (resetDayOf_strictMono positive).lt_iff_lt.mp (start.trans_lt high)
  omega

theorem periodMonth_mono : Monotone (periodMonth resetDay) := by
  intro day later before
  have low := (periodMonth_spec positive day).1
  have high := (periodMonth_spec positive later).2
  have := (resetDayOf_strictMono positive).lt_iff_lt.mp ((low.trans before).trans_lt high)
  omega

/-- A period is shorter than 62 days. -/
theorem periodMonth_length (day : Int) :
    day < resetDayOf resetDay (periodMonth resetDay day) + 62 := by
  have high := (periodMonth_spec positive day).2
  have last := resetDayOf_lt_firstOfMonth_succ resetDay (periodMonth resetDay day + 1)
  have first := firstOfMonth_le_resetDayOf positive (periodMonth resetDay day)
  have := daysInMonth_le (periodMonth resetDay day)
  have := daysInMonth_le (periodMonth resetDay day + 1)
  unfold daysInMonth at *
  omega

end Period

end Calendar
