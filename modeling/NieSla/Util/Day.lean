import NieSla.Lib.Calendar
import NieSla.Util.Number

/-! Local days and traffic periods. A local day is numbered from 1970-01-01; the
source writes it as `YYYY-MM-DD`, whose string order is the order of the numbers.
Times are seconds since 1970-01-01 UTC. -/
namespace NieSla

def timezoneOffsetMin (env : Env) : Int :=
  match (env.timezoneOffsetMinutes.or env.publicTimezoneOffsetMinutes).getD (.finite 480) with
  | .finite value => clamp (.finite value) (-720) 840
  | _ => 480

/-- The local day of a time other than 0, for which the source takes the current time. -/
def dayFromSec (sec : Int) (env : Env) : Int :=
  (sec + timezoneOffsetMin env * 60) / 86400

def dayStartSec (day : Int) (env : Env) : Int :=
  day * 86400 - timezoneOffsetMin env * 60

theorem dayFromSec_mono {earlier later : Int} (env : Env) (before : earlier ≤ later) :
    dayFromSec earlier env ≤ dayFromSec later env := by
  unfold dayFromSec
  omega

theorem dayFromSec_eq_iff {sec : Int} {env : Env} {day : Int} :
    dayFromSec sec env = day ↔ dayStartSec day env ≤ sec ∧ sec < dayStartSec (day + 1) env := by
  unfold dayFromSec dayStartSec
  omega

theorem dayFromSec_sub_days (sec : Int) (env : Env) (days : Int) :
    dayFromSec (sec - days * 86400) env = dayFromSec sec env - days := by
  unfold dayFromSec
  omega

structure LocalDate where
  year : Int
  month : Int
  day : Int
deriving DecidableEq

def localDateParts (sec : Int) (env : Env) : LocalDate :=
  let day := dayFromSec sec env
  let month := Calendar.monthOfDay day
  ⟨month / 12, month % 12 + 1, day - Calendar.firstOfMonth month + 1⟩

structure YearMonth where
  year : Int
  month : Int

def daysInMonth (date : YearMonth) : Int :=
  Calendar.daysInMonth (date.year * 12 + (date.month - 1))

def monthShift (date : YearMonth) (delta : Int) : YearMonth :=
  let zeroBased := date.year * 12 + (date.month - 1) + delta
  ⟨zeroBased / 12, zeroBased % 12 + 1⟩

def dateKey (date : YearMonth) (day : Int) : Int :=
  Calendar.firstOfMonth (date.year * 12 + (date.month - 1)) + day - 1

structure TrafficPeriod where
  month : Int
  resetDay : Int
  periodStart : Int
  periodEnd : Int
deriving DecidableEq

def trafficPeriodFromResetDay (env : Env) (resetDay : JsNumber) (ts : Int) : TrafficPeriod :=
  let current := localDateParts ts env
  let normalizedResetDay := clamp resetDay 1 31
  let this : YearMonth := ⟨current.year, current.month⟩
  let start :=
    if current.day < min normalizedResetDay (daysInMonth this) then monthShift this (-1) else this
  let startDay := min normalizedResetDay (daysInMonth start)
  let stop := monthShift start 1
  let endDay := min normalizedResetDay (daysInMonth stop)
  let startKey := dateKey start startDay
  ⟨startKey, normalizedResetDay, startKey, dateKey stop endDay⟩

/-! The period in terms of month indices. -/

private theorem daysInMonth_monthShift (month delta : Int) :
    daysInMonth (monthShift ⟨month / 12, month % 12 + 1⟩ delta) =
      Calendar.daysInMonth (month + delta) := by
  unfold daysInMonth monthShift
  congr 1
  dsimp only
  omega

private theorem dateKey_monthShift (month delta day : Int) :
    dateKey (monthShift ⟨month / 12, month % 12 + 1⟩ delta) day =
      Calendar.firstOfMonth (month + delta) + day - 1 := by
  unfold dateKey monthShift
  congr 3
  dsimp only
  omega

private theorem monthShift_zero (month : Int) :
    monthShift ⟨month / 12, month % 12 + 1⟩ 0 = ⟨month / 12, month % 12 + 1⟩ := by
  simp only [monthShift, YearMonth.mk.injEq]
  omega

private theorem monthShift_monthShift (month delta : Int) :
    monthShift (monthShift ⟨month / 12, month % 12 + 1⟩ delta) 1 =
      monthShift ⟨month / 12, month % 12 + 1⟩ (delta + 1) := by
  simp only [monthShift, YearMonth.mk.injEq]
  omega

/-- The period is the calendar period of the reset day that holds the local day. -/
theorem trafficPeriodFromResetDay_eq (env : Env) (resetDay : JsNumber) (ts : Int) :
    let reset := clamp resetDay 1 31
    let month := Calendar.periodMonth reset (dayFromSec ts env)
    trafficPeriodFromResetDay env resetDay ts =
      ⟨Calendar.resetDayOf reset month, reset, Calendar.resetDayOf reset month,
        Calendar.resetDayOf reset (month + 1)⟩ := by
  intro reset month
  obtain ⟨delta, hmonth, hstart⟩ : ∃ delta,
      month = Calendar.monthOfDay (dayFromSec ts env) + delta ∧
        (if (localDateParts ts env).day < min reset
            (daysInMonth ⟨(localDateParts ts env).year, (localDateParts ts env).month⟩) then
          monthShift ⟨(localDateParts ts env).year, (localDateParts ts env).month⟩ (-1)
        else ⟨(localDateParts ts env).year, (localDateParts ts env).month⟩) =
          monthShift ⟨(localDateParts ts env).year, (localDateParts ts env).month⟩ delta := by
    have this := daysInMonth_monthShift (Calendar.monthOfDay (dayFromSec ts env)) 0
    rw [monthShift_zero, add_zero] at this
    simp only [localDateParts, this, month, Calendar.periodMonth]
    by_cases early : dayFromSec ts env <
        Calendar.resetDayOf reset (Calendar.monthOfDay (dayFromSec ts env))
    · refine ⟨-1, if_pos early, if_pos ?_⟩
      unfold Calendar.resetDayOf at early
      omega
    · refine ⟨0, by rw [if_neg early, add_zero], ?_⟩
      rw [monthShift_zero, if_neg]
      unfold Calendar.resetDayOf at early
      omega
  unfold trafficPeriodFromResetDay
  simp only
  rw [hstart]
  simp only [localDateParts, daysInMonth_monthShift, dateKey_monthShift, monthShift_monthShift,
    hmonth, Calendar.resetDayOf, reset, add_assoc]

section Period

variable (env : Env) (resetDay : JsNumber)

private theorem resetDay_pos : 1 ≤ clamp resetDay 1 31 := clamp_ge (by norm_num) resetDay

/-- The local day of a time lies in its period. -/
theorem dayFromSec_mem_period (ts : Int) :
    (trafficPeriodFromResetDay env resetDay ts).periodStart ≤ dayFromSec ts env ∧
      dayFromSec ts env < (trafficPeriodFromResetDay env resetDay ts).periodEnd := by
  rw [trafficPeriodFromResetDay_eq]
  exact Calendar.periodMonth_spec (resetDay_pos resetDay) (dayFromSec ts env)

theorem period_month_eq_start (ts : Int) :
    (trafficPeriodFromResetDay env resetDay ts).month =
      (trafficPeriodFromResetDay env resetDay ts).periodStart := rfl

/-- Periods do not go back. -/
theorem periodStart_mono {earlier later : Int} (before : earlier ≤ later) :
    (trafficPeriodFromResetDay env resetDay earlier).periodStart ≤
      (trafficPeriodFromResetDay env resetDay later).periodStart := by
  simp only [trafficPeriodFromResetDay_eq]
  exact (Calendar.resetDayOf_strictMono (resetDay_pos resetDay)).monotone
    (Calendar.periodMonth_mono (resetDay_pos resetDay) (dayFromSec_mono env before))

/-- The start of a period fixes the period. -/
theorem period_eq_of_start_eq {first second : Int}
    (same : (trafficPeriodFromResetDay env resetDay first).periodStart =
      (trafficPeriodFromResetDay env resetDay second).periodStart) :
    trafficPeriodFromResetDay env resetDay first =
      trafficPeriodFromResetDay env resetDay second := by
  simp only [trafficPeriodFromResetDay_eq] at same ⊢
  rw [(Calendar.resetDayOf_strictMono (resetDay_pos resetDay)).injective same]

/-- A time whose local day lies in the period of another time has that period. -/
theorem period_eq_of_mem {ts other : Int}
    (start : (trafficPeriodFromResetDay env resetDay ts).periodStart ≤ dayFromSec other env)
    (stop : dayFromSec other env < (trafficPeriodFromResetDay env resetDay ts).periodEnd) :
    trafficPeriodFromResetDay env resetDay other = trafficPeriodFromResetDay env resetDay ts := by
  simp only [trafficPeriodFromResetDay_eq] at start stop ⊢
  rw [Calendar.periodMonth_eq (resetDay_pos resetDay) start stop]

/-- A day 400 days back lies before the period. -/
theorem retention_before_period (ts : Int) :
    dayFromSec (ts - 400 * 86400) env <
      (trafficPeriodFromResetDay env resetDay ts).periodStart := by
  have length := Calendar.periodMonth_length (resetDay_pos resetDay) (dayFromSec ts env)
  rw [dayFromSec_sub_days, trafficPeriodFromResetDay_eq]
  simp only
  omega

end Period

end NieSla
