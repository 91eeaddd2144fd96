import NieSla.Util.Day
import NieSla.Util.Text

/-! Traffic periods as texts. Days and the bounds of a period are compared as strings; with a year of four
digits the strings are ordered as the days are, so that the periods tile the calendar. -/
namespace NieSla.Traffic

/-- `text.padStart(width, '0')` -/
def padStart (width : Nat) (text : String) : String :=
  String.ofList (List.replicate (width - text.toList.length) '0' ++ text.toList)

def pad2 (n : Int) : String := padStart 2 (toString n)

/-- The year of `toISOString`. -/
def isoYear (year : Int) : String :=
  if 0 ≤ year ∧ year ≤ 9999 then padStart 4 (toString year)
  else (if year < 0 then "-" else "+") ++ padStart 6 (toString year.natAbs)

/-- `toISOString().slice(0, 10)` of a local day. -/
def isoDay (day : Int) : String :=
  let month := Calendar.monthOfDay day
  cut 10 (isoYear (month / 12) ++ "-" ++ pad2 (month % 12 + 1) ++ "-" ++
    pad2 (day - Calendar.firstOfMonth month + 1))

def dateKeyText (date : YearMonth) (day : Int) : String :=
  toString date.year ++ "-" ++ pad2 date.month ++ "-" ++ pad2 day

/-- `Number(sec || nowSec())` -/
def orNow (now sec : Int) : Int := if sec = 0 then now else sec

def dayFromSecText (env : Env) (now sec : Int) : String := isoDay (dayFromSec (orNow now sec) env)

structure PeriodText where
  month : String
  reset : String
  resetDay : Int
  periodStart : String
  periodEnd : String
deriving DecidableEq

def periodTextFromResetDay (env : Env) (resetDay : JsNumber) (now ts : Int) : PeriodText :=
  let current := localDateParts (orNow now ts) env
  let normalizedResetDay := clamp resetDay 1 31
  let this : YearMonth := ⟨current.year, current.month⟩
  let start :=
    if current.day < min normalizedResetDay (daysInMonth this) then monthShift this (-1) else this
  let startDay := min normalizedResetDay (daysInMonth start)
  let stop := monthShift start 1
  let endDay := min normalizedResetDay (daysInMonth stop)
  let startKey := dateKeyText start startDay
  ⟨startKey, if normalizedResetDay = 1 then "calendar-month" else "reset-day", normalizedResetDay, startKey,
    dateKeyText stop endDay⟩

/-! The order of the texts. -/

/-- Two decimal digits. -/
def twoDigits (n : Nat) : List Char := [Nat.digitChar (n / 10), Nat.digitChar (n % 10)]

theorem digitChar_lt {a b : Nat} (low : a < 10) (high : b < 10) :
    Nat.digitChar a < Nat.digitChar b ↔ a < b := by
  rw [Char.lt_def, UInt32.lt_iff_toNat_lt]
  have first : (Nat.digitChar a).val.toNat = 48 + a := Nat.toNat_digitChar_of_lt_ten low
  have second : (Nat.digitChar b).val.toNat = 48 + b := Nat.toNat_digitChar_of_lt_ten high
  omega

theorem digitChar_eq {a b : Nat} (low : a < 10) (high : b < 10) :
    Nat.digitChar a = Nat.digitChar b ↔ a = b := by
  rw [← Char.toNat_inj, Nat.toNat_digitChar_of_lt_ten low, Nat.toNat_digitChar_of_lt_ten high]
  omega

theorem twoDigits_append_lt {a b : Nat} (low : a < 100) (high : b < 100) (first second : List Char) :
    twoDigits a ++ first < twoDigits b ++ second ↔ a < b ∨ a = b ∧ first < second := by
  have tens : a / 10 < 10 ∧ b / 10 < 10 := by omega
  have ones : a % 10 < 10 ∧ b % 10 < 10 := by omega
  have opened (n : Nat) (rest : List Char) :
      twoDigits n ++ rest = Nat.digitChar (n / 10) :: Nat.digitChar (n % 10) :: rest := rfl
  rw [opened, opened, List.cons_lt_cons_iff, List.cons_lt_cons_iff, digitChar_lt tens.1 tens.2,
    digitChar_eq tens.1 tens.2, digitChar_lt ones.1 ones.2, digitChar_eq ones.1 ones.2]
  constructor
  · rintro (less | ⟨same, less | ⟨again, follows⟩⟩)
    · exact Or.inl (by omega)
    · exact Or.inl (by omega)
    · exact Or.inr ⟨by omega, follows⟩
  · rintro (less | ⟨rfl, follows⟩)
    · by_cases same : a / 10 = b / 10
      · exact Or.inr ⟨same, Or.inl (by omega)⟩
      · exact Or.inl (by omega)
    · exact Or.inr ⟨rfl, Or.inr ⟨rfl, follows⟩⟩

theorem toDigits_two {n : Nat} (low : 10 ≤ n) (high : n < 100) : Nat.toDigits 10 n = twoDigits n := by
  rw [Nat.toDigits_of_base_le (by omega) low, Nat.toDigits_of_lt_base (by omega)]
  rfl

theorem toList_toString {n : Int} (positive : 0 ≤ n) : (toString n).toList = Nat.toDigits 10 n.toNat := by
  obtain ⟨m, rfl⟩ := Int.eq_ofNat_of_zero_le positive
  exact Nat.toList_repr

theorem toList_pad2 {n : Int} (positive : 1 ≤ n) (high : n < 100) : (pad2 n).toList = twoDigits n.toNat := by
  have text := toList_toString (n := n) (by omega)
  unfold pad2 padStart
  rw [String.toList_ofList, text]
  by_cases small : n.toNat < 10
  · rw [Nat.toDigits_of_lt_base small, twoDigits, Nat.div_eq_of_lt small, Nat.mod_eq_of_lt small]
    rfl
  · rw [toDigits_two (by omega) (by omega)]
    rfl

theorem toList_year {year : Int} (low : 1000 ≤ year) (high : year ≤ 9999) :
    (toString year).toList = twoDigits (year.toNat / 100) ++ twoDigits (year.toNat % 100) := by
  rw [toList_toString (by omega)]
  have large : 10 ≤ year.toNat / 10 := by omega
  rw [Nat.toDigits_of_base_le (by omega) (by omega), Nat.toDigits_of_base_le (by omega) large,
    toDigits_two (by omega) (by omega)]
  have tens : year.toNat / 10 % 10 = year.toNat % 100 / 10 := by omega
  have ones : year.toNat % 10 = year.toNat % 100 % 10 := by omega
  have front : year.toNat / 10 / 10 = year.toNat / 100 := by omega
  rw [tens, ones, front]
  simp [twoDigits]

/-- A date whose parts fit the text. -/
structure Proper (date : YearMonth) (day : Int) : Prop where
  year : 1000 ≤ date.year ∧ date.year ≤ 9999
  month : 1 ≤ date.month ∧ date.month ≤ 12
  day : 1 ≤ day ∧ day ≤ daysInMonth date

theorem Proper.day_le {date : YearMonth} {day : Int} (proper : Proper date day) : day ≤ 31 :=
  proper.day.2.trans (Calendar.daysInMonth_le _)

theorem toList_dateKeyText {date : YearMonth} {day : Int} (proper : Proper date day) :
    (dateKeyText date day).toList = twoDigits (date.year.toNat / 100) ++ (twoDigits (date.year.toNat % 100) ++
      ('-' :: (twoDigits date.month.toNat ++ ('-' :: (twoDigits day.toNat ++ []))))) := by
  have short := proper.day_le
  obtain ⟨year, month, some_, -⟩ := proper
  simp only [dateKeyText, String.toList_append, toList_year year.1 year.2,
    toList_pad2 month.1 (by omega), toList_pad2 some_ (by omega)]
  simp

theorem dash_lt (first second : List Char) : '-' :: first < '-' :: second ↔ first < second := by
  simp

/-- Texts of dates are ordered as their parts are. -/
theorem dateKeyText_lt {first second : YearMonth} {day later : Int} (one : Proper first day)
    (two : Proper second later) :
    dateKeyText first day < dateKeyText second later ↔
      first.year < second.year ∨ first.year = second.year ∧
        (first.month < second.month ∨ first.month = second.month ∧ day < later) := by
  have short := one.day_le
  have short' := two.day_le
  rw [String.lt_iff_toList_lt, toList_dateKeyText one, toList_dateKeyText two]
  obtain ⟨year, month, ⟨some_, -⟩⟩ := one
  obtain ⟨year', month', ⟨some', -⟩⟩ := two
  rw [twoDigits_append_lt (by omega) (by omega), twoDigits_append_lt (by omega) (by omega), dash_lt,
    twoDigits_append_lt (by omega) (by omega), dash_lt, twoDigits_append_lt (by omega) (by omega)]
  have none_ : ¬ ([] : List Char) < [] := List.lt_irrefl _
  simp only [none_, and_false, or_false]
  omega

/-- Days are ordered by their month, and in one month by their number. -/
theorem dateKey_lt {first second : YearMonth} {day later : Int} (one : Proper first day)
    (two : Proper second later) :
    dateKey first day < dateKey second later ↔
      first.year < second.year ∨ first.year = second.year ∧
        (first.month < second.month ∨ first.month = second.month ∧ day < later) := by
  obtain ⟨-, month, some_, last⟩ := one
  obtain ⟨-, month', some', last'⟩ := two
  have months : first.year * 12 + (first.month - 1) < second.year * 12 + (second.month - 1) ↔
      first.year < second.year ∨ first.year = second.year ∧ first.month < second.month := by omega
  have strict := Calendar.firstOfMonth_strictMono
  unfold dateKey daysInMonth Calendar.daysInMonth at *
  rcases lt_trichotomy (first.year * 12 + (first.month - 1)) (second.year * 12 + (second.month - 1))
    with less | same | more
  · have next := strict.monotone (Int.add_one_le_of_lt less)
    omega
  · rw [same]
    omega
  · have next := strict.monotone (Int.add_one_le_of_lt more)
    omega

theorem dateKeyText_lt_iff {first second : YearMonth} {day later : Int} (one : Proper first day)
    (two : Proper second later) :
    dateKeyText first day < dateKeyText second later ↔ dateKey first day < dateKey second later := by
  rw [dateKeyText_lt one two, dateKey_lt one two]

/-! Days and periods within the years of four digits. -/

/-- The parts of a day. -/
def dateOf (day : Int) : YearMonth := ⟨Calendar.monthOfDay day / 12, Calendar.monthOfDay day % 12 + 1⟩

theorem daysInMonth_dateOf (month : Int) :
    daysInMonth ⟨month / 12, month % 12 + 1⟩ = Calendar.daysInMonth month := by
  unfold daysInMonth
  congr 1
  dsimp only
  omega

theorem dateKey_parts (month day : Int) :
    dateKey ⟨month / 12, month % 12 + 1⟩ day = Calendar.firstOfMonth month + day - 1 := by
  unfold dateKey
  congr 3
  dsimp only
  omega

/-- From January 1000 to December 9999. -/
def FourDigits (month : Int) : Prop := 12000 ≤ month ∧ month < 120000

theorem proper_parts {month day : Int} (four : FourDigits month) (low : 1 ≤ day)
    (high : day ≤ Calendar.daysInMonth month) : Proper ⟨month / 12, month % 12 + 1⟩ day := by
  obtain ⟨start, stop⟩ := four
  refine ⟨⟨?_, ?_⟩, ⟨?_, ?_⟩, low, ?_⟩
  · dsimp only
    omega
  · dsimp only
    omega
  · dsimp only
    omega
  · dsimp only
    omega
  · rwa [daysInMonth_dateOf]

theorem codeUnits_digit {n : Nat} (small : n < 10) : codeUnits (Nat.digitChar n) = 1 := by
  have value : (Nat.digitChar n).val.toNat = 48 + n := Nat.toNat_digitChar_of_lt_ten small
  have low : (Nat.digitChar n).val < 0x10000 := by
    rw [UInt32.lt_iff_toNat_lt, value]
    exact Nat.lt_of_lt_of_le (Nat.add_lt_add_left small 48) (by decide)
  simp [codeUnits, low]

theorem sum_twoDigits {n : Nat} (small : n < 100) : ((twoDigits n).map codeUnits).sum = 2 := by
  simp [twoDigits, codeUnits_digit (show n / 10 < 10 by omega), codeUnits_digit (show n % 10 < 10 by omega)]

theorem textLength_dateKeyText {date : YearMonth} {day : Int} (proper : Proper date day) :
    textLength (dateKeyText date day) = 10 := by
  have short := proper.day_le
  rw [textLength, toList_dateKeyText proper]
  obtain ⟨year, month, some_, -⟩ := proper
  have dash : codeUnits '-' = 1 := by decide
  simp only [List.map_append, List.map_cons, List.sum_append, List.sum_cons, List.map_nil, List.sum_nil, dash,
    sum_twoDigits (show date.year.toNat / 100 < 100 by omega),
    sum_twoDigits (show date.year.toNat % 100 < 100 by omega),
    sum_twoDigits (show date.month.toNat < 100 by omega), sum_twoDigits (show day.toNat < 100 by omega),
    Nat.reduceAdd]

/-- The text of a day is the text of its parts. -/
theorem isoDay_eq {day : Int} (four : FourDigits (Calendar.monthOfDay day)) :
    isoDay day = dateKeyText (dateOf day) (day - Calendar.firstOfMonth (Calendar.monthOfDay day) + 1) ∧
      Proper (dateOf day) (day - Calendar.firstOfMonth (Calendar.monthOfDay day) + 1) ∧
      dateKey (dateOf day) (day - Calendar.firstOfMonth (Calendar.monthOfDay day) + 1) = day := by
  obtain ⟨low, high⟩ := Calendar.monthOfDay_spec day
  have proper : Proper (dateOf day) (day - Calendar.firstOfMonth (Calendar.monthOfDay day) + 1) :=
    proper_parts four (by omega) (by unfold Calendar.daysInMonth; omega)
  refine ⟨?_, proper, ?_⟩
  · have year : 0 ≤ Calendar.monthOfDay day / 12 ∧ Calendar.monthOfDay day / 12 ≤ 9999 := by
      unfold FourDigits at four
      omega
    have long : (toString (Calendar.monthOfDay day / 12)).toList.length = 4 := by
      have text := toList_year proper.year.1 proper.year.2
      simp only [dateOf] at text
      rw [text]
      rfl
    have padded : isoYear (Calendar.monthOfDay day / 12) = toString (Calendar.monthOfDay day / 12) := by
      rw [isoYear, if_pos year, padStart, long]
      simp
    have whole := textLength_dateKeyText proper
    simp only [isoDay, padded]
    exact cut_of_textLength whole.le
  · rw [dateOf, dateKey_parts]
    omega

theorem monthShift_parts (month delta : Int) :
    monthShift ⟨month / 12, month % 12 + 1⟩ delta = ⟨(month + delta) / 12, (month + delta) % 12 + 1⟩ := by
  have index : month / 12 * 12 + (month % 12 + 1 - 1) + delta = month + delta := by omega
  simp only [monthShift, index]

/-- The first day of the period that starts in a month, as a text. -/
def resetDayText (resetDay month : Int) : String :=
  dateKeyText ⟨month / 12, month % 12 + 1⟩ (min resetDay (Calendar.daysInMonth month))

/-- The period is the calendar period of the local day, written as texts. -/
theorem periodTextFromResetDay_eq (env : Env) (resetDay : JsNumber) (now ts : Int) :
    let reset := clamp resetDay 1 31
    let month := Calendar.periodMonth reset (dayFromSec (orNow now ts) env)
    periodTextFromResetDay env resetDay now ts =
      ⟨resetDayText reset month, if reset = 1 then "calendar-month" else "reset-day", reset,
        resetDayText reset month, resetDayText reset (month + 1)⟩ := by
  intro reset month
  have start : (if (localDateParts (orNow now ts) env).day < min reset
        (daysInMonth ⟨(localDateParts (orNow now ts) env).year, (localDateParts (orNow now ts) env).month⟩) then
      monthShift ⟨(localDateParts (orNow now ts) env).year, (localDateParts (orNow now ts) env).month⟩ (-1)
      else ⟨(localDateParts (orNow now ts) env).year, (localDateParts (orNow now ts) env).month⟩) =
        (⟨month / 12, month % 12 + 1⟩ : YearMonth) := by
    simp only [localDateParts, daysInMonth_dateOf, monthShift_parts, month, Calendar.periodMonth]
    by_cases early : dayFromSec (orNow now ts) env <
        Calendar.resetDayOf reset (Calendar.monthOfDay (dayFromSec (orNow now ts) env))
    · rw [if_pos early]
      unfold Calendar.resetDayOf at early
      rw [if_pos (by omega)]
      rfl
    · rw [if_neg early]
      unfold Calendar.resetDayOf at early
      rw [if_neg (by omega)]
  simp only [periodTextFromResetDay, resetDayText]
  rw [start]
  simp only [monthShift_parts, daysInMonth_dateOf, reset]

section Texts

variable {resetDay : Int} (positive : 1 ≤ resetDay)
include positive

theorem proper_resetDay {month : Int} (four : FourDigits month) :
    Proper ⟨month / 12, month % 12 + 1⟩ (min resetDay (Calendar.daysInMonth month)) := by
  have long := Calendar.daysInMonth_ge month
  exact proper_parts four (by omega) (min_le_right _ _)

omit positive in
theorem dateKey_resetDay (month : Int) :
    dateKey ⟨month / 12, month % 12 + 1⟩ (min resetDay (Calendar.daysInMonth month)) =
      Calendar.resetDayOf resetDay month := by
  rw [dateKey_parts, Calendar.resetDayOf]

/-- A day comes before the start of a period as a text exactly when it does in the calendar. -/
theorem isoDay_lt_resetDayText {day month : Int} (fourDay : FourDigits (Calendar.monthOfDay day))
    (four : FourDigits month) :
    isoDay day < resetDayText resetDay month ↔ day < Calendar.resetDayOf resetDay month := by
  obtain ⟨text, proper, key⟩ := isoDay_eq fourDay
  rw [text, resetDayText, dateKeyText_lt_iff proper (proper_resetDay positive four), key,
    dateKey_resetDay]

theorem resetDayText_lt_isoDay {day month : Int} (fourDay : FourDigits (Calendar.monthOfDay day))
    (four : FourDigits month) :
    resetDayText resetDay month < isoDay day ↔ Calendar.resetDayOf resetDay month < day := by
  obtain ⟨text, proper, key⟩ := isoDay_eq fourDay
  rw [text, resetDayText, dateKeyText_lt_iff (proper_resetDay positive four) proper, key,
    dateKey_resetDay]

theorem resetDayText_lt {first second : Int} (one : FourDigits first) (two : FourDigits second) :
    resetDayText resetDay first < resetDayText resetDay second ↔ first < second := by
  rw [resetDayText, resetDayText, dateKeyText_lt_iff (proper_resetDay positive one)
    (proper_resetDay positive two), dateKey_resetDay, dateKey_resetDay]
  exact (Calendar.resetDayOf_strictMono positive).lt_iff_lt

end Texts

/-- The month of a day lies between the months of the bounds of its period. -/
theorem fourDigits_of_period {resetDay day : Int}
    (start : FourDigits (Calendar.periodMonth resetDay day))
    (stop : FourDigits (Calendar.periodMonth resetDay day + 1)) : FourDigits (Calendar.monthOfDay day) := by
  unfold Calendar.periodMonth FourDigits at *
  split at start
  · omega
  · omega

/-- The months in which the period of a timestamp starts and ends have years of four digits. -/
def InRange (env : Env) (resetDay : JsNumber) (now ts : Int) : Prop :=
  let month := Calendar.periodMonth (clamp resetDay 1 31) (dayFromSec (orNow now ts) env)
  FourDigits month ∧ FourDigits (month + 1)

instance (env : Env) (resetDay : JsNumber) (now ts : Int) : Decidable (InRange env resetDay now ts) :=
  inferInstanceAs (Decidable ((_ ∧ _) ∧ (_ ∧ _)))

/-- The local day lies in the period, as texts. -/
def HoldsDay (env : Env) (resetDay : JsNumber) (now ts : Int) : Prop :=
  (periodTextFromResetDay env resetDay now ts).periodStart ≤ dayFromSecText env now ts ∧
    dayFromSecText env now ts < (periodTextFromResetDay env resetDay now ts).periodEnd

theorem periods_tile (env : Env) (resetDay : JsNumber) {now ts : Int} (fits : InRange env resetDay now ts) :
    HoldsDay env resetDay now ts ∧
      ∀ later other, InRange env resetDay later other →
        let period := periodTextFromResetDay env resetDay now ts
        let next := periodTextFromResetDay env resetDay later other
        (next = period ∨ next.periodEnd ≤ period.periodStart ∨ period.periodEnd ≤ next.periodStart) ∧
          (dayFromSecText env later other = period.periodEnd → next.periodStart = period.periodEnd) := by
  have positive : 1 ≤ clamp resetDay 1 31 := clamp_ge (by decide) resetDay
  obtain ⟨start, stop⟩ := fits
  have day := fourDigits_of_period start stop
  obtain ⟨low, high⟩ := Calendar.periodMonth_spec positive (dayFromSec (orNow now ts) env)
  refine ⟨⟨?_, ?_⟩, fun later other ⟨start', stop'⟩ => ⟨?_, fun ends => ?_⟩⟩
  · rw [periodTextFromResetDay_eq]
    exact not_lt.mp (mt (isoDay_lt_resetDayText positive day start).mp (not_lt.mpr low))
  · rw [periodTextFromResetDay_eq]
    exact (isoDay_lt_resetDayText positive day stop).mpr high
  · simp only [periodTextFromResetDay_eq]
    rcases lt_trichotomy (Calendar.periodMonth (clamp resetDay 1 31) (dayFromSec (orNow now ts) env))
      (Calendar.periodMonth (clamp resetDay 1 31) (dayFromSec (orNow later other) env)) with less | same | more
    · exact Or.inr (Or.inr (not_lt.mp (mt (resetDayText_lt positive start' stop).mp (by omega))))
    · exact Or.inl (by rw [same])
    · exact Or.inr (Or.inl (not_lt.mp (mt (resetDayText_lt positive start stop').mp (by omega))))
  · have day' := fourDigits_of_period start' stop'
    simp only [periodTextFromResetDay_eq, dayFromSecText] at ends ⊢
    have notBefore := mt (isoDay_lt_resetDayText positive day' stop).mpr (ends ▸ lt_irrefl _)
    have notAfter := mt (resetDayText_lt_isoDay positive day' stop).mpr (ends ▸ lt_irrefl _)
    have first : Calendar.resetDayOf (clamp resetDay 1 31)
        (Calendar.periodMonth (clamp resetDay 1 31) (dayFromSec (orNow now ts) env) + 1) =
          dayFromSec (orNow later other) env := le_antisymm (not_lt.mp notBefore) (not_lt.mp notAfter)
    have next := Calendar.resetDayOf_strictMono positive (Int.lt_succ
      (Calendar.periodMonth (clamp resetDay 1 31) (dayFromSec (orNow now ts) env) + 1))
    rw [Calendar.periodMonth_eq positive first.le (first ▸ next)]

/-- With a reset on the 31st, February ends a period on its last day. -/
theorem periods_tile_leap :
    HoldsDay { timezoneOffsetMinutes := some (.finite 0) } (.finite 31) 1700000000 1709164800 :=
  (periods_tile { timezoneOffsetMinutes := some (.finite 0) } (.finite 31) (by decide +kernel)).1

/-- A year without four digits is written in two ways: the first day of 10000 comes before December 9999,
and a day of 999 before its own month. -/
theorem years_beyond_four_digits :
    ¬ HoldsDay { timezoneOffsetMinutes := some (.finite 0) } (.finite 1) 1700000000 253400659200 ∧
      ¬ HoldsDay { timezoneOffsetMinutes := some (.finite 0) } (.finite 1) 1700000000 (-30641760000) := by
  unfold HoldsDay
  decide +kernel

end NieSla.Traffic
