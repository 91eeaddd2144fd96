import NieSla.Traffic.Conservation

/-! The usage that is displayed: what the ledger has booked in the period, and what the latest report
has beyond the baseline of its row. -/
namespace NieSla.Traffic
open Counter

def finiteValue : JsNumber → Option ℚ
  | .finite value => some value
  | _ => none

/-- The `pending` of `summarizeTrafficWithPending`, for one direction. -/
def pendingTraffic (current : JsNumber) (last : Option Nat) : ℚ :=
  match current, last with
  | .finite current, some last => if (last : ℚ) ≤ current then current - last else 0
  | _, _ => 0

/-- `rx_bytes` and `tx_bytes` of `summarizeTrafficWithPending`. -/
def summarizeTrafficWithPending (row : Option MonthlyRow) (counters : Direction → JsNumber)
    (direction : Direction) : ℚ :=
  ((row.map fun row => row.bytes direction).getD 0 : Nat) +
    pendingTraffic (counters direction) (row.bind fun row => row.last direction)

/-- The ledger and the counters of the latest report. -/
structure Shown where
  ledger : Ledger
  counters : Direction → JsNumber

section Report

variable (env : Env) (target : Target) (month : Int)

def Shown.report (shown : Shown) (report : Report) : Shown :=
  ⟨(persistAgentTraffic env (some target) report shown.ledger).1, report.counters⟩

@[simp] theorem Shown.counters_report (shown : Shown) (report : Report) :
    (shown.report env target report).counters = report.counters := rfl

/-- What is displayed for the period. -/
def displayed (shown : Shown) (direction : Direction) : ℚ :=
  summarizeTrafficWithPending (shown.ledger.monthly.get? month) shown.counters direction

/-- The report does not lower what is displayed. -/
def NotLowered (shown : Shown) (report : Report) : Prop :=
  ∀ direction, displayed month shown direction ≤ displayed month (shown.report env target report) direction

instance (shown : Shown) (report : Report) : Decidable (NotLowered env target month shown report) :=
  inferInstanceAs (Decidable (∀ direction, displayed month shown direction ≤
    displayed month (shown.report env target report) direction))

/-- The report before has a counter that is not beyond the baseline, or the counter goes on from there.
A valid counter that has been reset shows what it has beyond its whole part. -/
def Continues (shown : Shown) (report : Report) : Prop :=
  ∀ direction, ∀ row ∈ shown.ledger.monthly.get? month, ∀ last ∈ row.last direction,
    ∀ before ∈ finiteValue (shown.counters direction), before ≤ (last : ℚ) ∨
      ∃ now ∈ finiteValue (report.counters direction), before ≤ now ∨
        (target.trafficEnabled = true ∧ (validCounters report.counters).isSome = true ∧
          now < last ∧ before - last ≤ Int.fract now)

instance (shown : Shown) (report : Report) : Decidable (Continues target month shown report) :=
  inferInstanceAs (Decidable (∀ direction, ∀ row ∈ shown.ledger.monthly.get? month,
    ∀ last ∈ row.last direction, ∀ before ∈ finiteValue (shown.counters direction), _))

end Report

section Pending

theorem pendingTraffic_nonneg (current : JsNumber) (last : Option Nat) : 0 ≤ pendingTraffic current last := by
  unfold pendingTraffic
  split
  · split
    · exact sub_nonneg.mpr ‹_›
    · exact le_rfl
  · exact le_rfl

/-- A counter against its own whole part. -/
theorem pendingTraffic_floor {current : ℚ} (positive : 0 ≤ current) :
    pendingTraffic (.finite current) (some ⌊current⌋₊) = Int.fract current := by
  rw [pendingTraffic, if_pos (Nat.floor_le positive), ← Int.self_sub_floor, natCast_floor_eq_intCast_floor positive]

theorem validCounter_eq_some {counter : JsNumber} {value : ℚ} (valid : validCounter counter = some value) :
    counter = .finite value ∧ 0 ≤ value := by
  cases counter with
  | finite number =>
      simp only [validCounter] at valid
      split at valid
      · cases valid
        exact ⟨rfl, (‹_ ∧ _›).1⟩
      · cases valid
  | nan | infinity | negInfinity => cases valid

theorem validCounters_eq_some {counters : Direction → JsNumber} {raw : Direction → ℚ}
    (valid : validCounters counters = some raw) (direction : Direction) :
    counters direction = .finite (raw direction) ∧ 0 ≤ raw direction := by
  unfold validCounters at valid
  split at valid
  · rename_i rx tx one two
    cases valid
    cases direction with
    | rx => exact validCounter_eq_some one
    | tx => exact validCounter_eq_some two
  · cases valid

end Pending

section Step

variable {env : Env} {target : Target} {month : Int} {shown : Shown} {report : Report}
  {row : MonthlyRow} {direction : Direction} {last : Nat}

/-- The clean-up leaves the row that was just written. -/
theorem get?_tidied {written result : Ledger} {ts : Int} (tidied : Tidied env ts written result)
    (found : written.monthly.get? month = some row) (recent : ts - 400 * 86400 ≤ row.updatedAt) :
    result.monthly.get? month = some row := by
  rcases tidied with rfl | rfl
  · exact found
  · exact (OrderedMap.get?_filter _ _).mpr ⟨found, decide_eq_true recent⟩

/-- A counter below its baseline is written at once. -/
theorem persistAgentTraffic_of_reset {raw : Direction → ℚ} (enabled : target.trafficEnabled = true)
    (valid : validCounters report.counters = some raw)
    (found : shown.ledger.monthly.get? (periodOf env target report.ts).month = some row)
    (baseline : row.last direction = some last) (reset : raw direction < last) :
    (persistAgentTraffic env (some target) report shown.ledger).2 = true := by
  have settings : trafficSettingsFromTarget (some target) env report.ts =
      ⟨target.trafficEnabled, periodOf env target report.ts⟩ := rfl
  have broken : countersContinuous (some row) raw = false := by
    simp only [countersContinuous, decide_eq_false_iff_not, not_forall]
    exact ⟨direction, by simpa [baseline] using reset⟩
  have now : throttled env row raw report.ts = false := by
    simp [throttled, broken]
  simp only [persistAgentTraffic, settings, enabled, valid, found, now, Bool.false_eq_true, if_false,
    commit_planUpdate found rfl, tidy]
  split <;> rfl

theorem enabled_of_persistAgentTraffic {ledger : Ledger}
    (wrote : (persistAgentTraffic env (some target) report ledger).2 = true) :
    target.trafficEnabled = true := by
  by_contra disabled
  have settings : trafficSettingsFromTarget (some target) env report.ts =
      ⟨target.trafficEnabled, periodOf env target report.ts⟩ := rfl
  simp only [persistAgentTraffic, settings, eq_false_of_ne_true disabled] at wrote
  cases wrote

variable (direction) in
/-- The row after a report: as it was, or with the report booked. -/
theorem row_report (inside : (periodOf env target report.ts).month = month)
    (found : shown.ledger.monthly.get? month = some row) :
    ((persistAgentTraffic env (some target) report shown.ledger).1.monthly.get? month = some row ∧
      ∀ raw, target.trafficEnabled = true → validCounters report.counters = some raw →
        ∀ last ∈ row.last direction, (last : ℚ) ≤ raw direction) ∨
      ∃ raw written, target.trafficEnabled = true ∧ validCounters report.counters = some raw ∧
        (persistAgentTraffic env (some target) report shown.ledger).1.monthly.get? month = some written ∧
        written.bytes direction = row.bytes direction + increment (row.last direction) ⌊raw direction⌋₊ ∧
        written.last direction = some ⌊raw direction⌋₊ := by
  subst inside
  rcases persistAgentTraffic_cases env target report shown.ledger with
    same | ⟨raw, written, result, valid, done, tidied, ⟨stored, there, rfl⟩ | ⟨absent, rfl⟩⟩
  · refine .inl ⟨by rwa [same], fun raw enabled valid last baseline => ?_⟩
    by_contra reset
    have wrote := persistAgentTraffic_of_reset enabled valid found baseline (not_le.mp reset)
    rw [same] at wrote
    cases wrote
  · cases there.symm.trans found
    have wrote : (persistAgentTraffic env (some target) report shown.ledger).2 = true := by
      rw [done]
    refine .inr ⟨raw, updatedRow env row row raw report.ts, enabled_of_persistAgentTraffic wrote, valid,
      ?_, rfl, rfl⟩
    rw [done]
    refine get?_tidied tidied (OrderedMap.get?_set_self _ _ _) ?_
    simp only [updatedRow]
    omega
  · rw [found] at absent
    cases absent

variable (direction) in
theorem displayed_row {shown : Shown} (found : shown.ledger.monthly.get? month = some row) :
    displayed month shown direction =
      row.bytes direction + pendingTraffic (shown.counters direction) (row.last direction) := by
  rw [displayed, summarizeTrafficWithPending, found]
  rfl

/-- A booked report shows its counter, as far as it is beyond the baseline, or its fraction. -/
theorem displayed_booked {written : MonthlyRow} {raw : Direction → ℚ}
    (valid : validCounters report.counters = some raw)
    (bytes : written.bytes direction = row.bytes direction + increment (row.last direction) ⌊raw direction⌋₊)
    (baseline : written.last direction = some ⌊raw direction⌋₊) :
    (written.bytes direction : ℚ) + pendingTraffic (report.counters direction) (written.last direction) =
      row.bytes direction + (increment (row.last direction) ⌊raw direction⌋₊ + Int.fract (raw direction)) := by
  obtain ⟨counter, positive⟩ := validCounters_eq_some valid direction
  rw [bytes, baseline, counter, pendingTraffic_floor positive]
  push_cast
  ring

variable (direction) in
/-- What the row has booked stays displayed. -/
theorem bytes_le_displayed (inside : (periodOf env target report.ts).month = month)
    (found : shown.ledger.monthly.get? month = some row) :
    (row.bytes direction : ℚ) ≤ displayed month (shown.report env target report) direction := by
  rcases row_report direction inside found with
    ⟨same, -⟩ | ⟨raw, written, -, valid, there, bytes, baseline⟩
  · rw [displayed_row direction same]
    exact le_add_of_nonneg_right (pendingTraffic_nonneg _ _)
  · rw [displayed_row direction there]
    refine le_trans ?_ (displayed_booked valid bytes baseline).ge
    exact le_add_of_nonneg_right (add_nonneg (Nat.cast_nonneg _) (Int.fract_nonneg _))

theorem increment_add_fract {raw : ℚ} (positive : 0 ≤ raw) (last : Nat) :
    (increment (some last) ⌊raw⌋₊ : ℚ) + Int.fract raw = if (last : ℚ) ≤ raw then raw - last else Int.fract raw := by
  simp only [increment]
  split
  · have whole : last ≤ ⌊raw⌋₊ := Nat.le_floor ‹_›
    rw [Nat.cast_sub whole, ← Int.self_sub_floor, ← natCast_floor_eq_intCast_floor positive]
    ring
  · have short : ⌊raw⌋₊ ≤ last := Nat.floor_le_of_le (not_le.mp ‹_›).le
    rw [Nat.sub_eq_zero_of_le short, Nat.cast_zero, zero_add]

/-- The step, for a counter that is beyond its baseline. -/
theorem displayed_le_iff (inside : (periodOf env target report.ts).month = month)
    (found : shown.ledger.monthly.get? month = some row) (baseline : row.last direction = some last)
    {before : ℚ} (counter : shown.counters direction = .finite before) (beyond : (last : ℚ) < before) :
    displayed month shown direction ≤ displayed month (shown.report env target report) direction ↔
      ∃ now ∈ finiteValue (report.counters direction), before ≤ now ∨
        (target.trafficEnabled = true ∧ (validCounters report.counters).isSome = true ∧
          now < last ∧ before - last ≤ Int.fract now) := by
  have shownNow : displayed month shown direction = row.bytes direction + (before - last) := by
    rw [displayed_row direction found, counter, baseline, pendingTraffic, if_pos beyond.le]
  rw [shownNow]
  rcases row_report direction inside found with
    ⟨same, ahead⟩ | ⟨raw, written, enabled, valid, there, bytes, newBaseline⟩
  · rw [displayed_row direction same, baseline, add_le_add_iff_left, Shown.counters_report]
    cases next : report.counters direction with
    | nan | infinity | negInfinity =>
        simp only [pendingTraffic, finiteValue, Option.mem_def, reduceCtorEq, false_and, exists_false, iff_false]
        linarith
    | finite now =>
        have noReset : ¬ (target.trafficEnabled = true ∧ (validCounters report.counters).isSome = true ∧
            now < last ∧ before - last ≤ Int.fract now) := by
          rintro ⟨enabled, valid, reset, -⟩
          obtain ⟨raw, valid⟩ := Option.isSome_iff_exists.mp valid
          have value : JsNumber.finite now = .finite (raw direction) :=
            next.symm.trans (validCounters_eq_some valid direction).1
          cases value
          exact absurd (ahead raw enabled valid last baseline) (not_le.mpr reset)
        simp only [pendingTraffic, finiteValue, Option.mem_def, Option.some.injEq, exists_eq_left', noReset, or_false]
        split
        · exact sub_le_sub_iff_right _
        · refine iff_of_false ?_ ?_
          all_goals linarith
  · obtain ⟨counter', positive⟩ := validCounters_eq_some valid direction
    rw [displayed_row direction there, Shown.counters_report, displayed_booked valid bytes newBaseline,
      add_le_add_iff_left, baseline,
      increment_add_fract positive, counter']
    simp only [finiteValue, Option.mem_def, Option.some.injEq, exists_eq_left', enabled, valid,
      Option.isSome_some, true_and]
    split
    · rw [sub_le_sub_iff_right, or_iff_left]
      exact fun reset => absurd reset.1 (not_lt.mpr ‹_›)
    · have reset : raw direction < last := not_le.mp ‹_›
      rw [or_iff_right (not_le.mpr (reset.trans beyond)), and_iff_right reset]

/-- A report lowers nothing exactly when each counter continues. -/
theorem notLowered_iff (inside : (periodOf env target report.ts).month = month) :
    NotLowered env target month shown report ↔ Continues target month shown report := by
  refine forall_congr' fun direction => ?_
  cases found : shown.ledger.monthly.get? month with
  | none =>
      have nothing : displayed month shown direction = 0 := by
        rw [displayed, summarizeTrafficWithPending, found]
        simp [pendingTraffic]
      refine iff_of_true ?_ nofun
      rw [nothing, displayed, summarizeTrafficWithPending]
      exact add_nonneg (Nat.cast_nonneg _) (pendingTraffic_nonneg _ _)
  | some row =>
      have booked := bytes_le_displayed direction inside found
      have now := displayed_row direction found
      simp only [Option.mem_def, Option.some.injEq, forall_eq']
      cases baseline : row.last direction with
      | none =>
          refine iff_of_true ?_ nofun
          rw [now, baseline]
          simpa [pendingTraffic] using booked
      | some last =>
          simp only [Option.some.injEq, forall_eq']
          cases counter : shown.counters direction with
          | nan | infinity | negInfinity =>
              refine iff_of_true ?_ nofun
              rw [now, counter]
              simpa [pendingTraffic] using booked
          | finite before =>
              simp only [finiteValue, Option.some.injEq, forall_eq']
              by_cases beyond : (last : ℚ) < before
              · rw [displayed_le_iff inside found baseline counter beyond, or_iff_right (not_le.mpr beyond)]
                rfl
              · have within_ : before ≤ last := not_lt.mp beyond
                refine iff_of_true ?_ (.inl within_)
                have none_ : pendingTraffic (.finite before) (some last) = 0 := by
                  rw [pendingTraffic]
                  split
                  · linarith
                  · rfl
                rw [now, counter, baseline, none_, add_zero]
                exact booked

end Step

/-- Along reports inside one period, what is displayed never goes down exactly when no report breaks off
a counter of which something is not booked yet. -/
theorem displayed_monotone_iff (env : Env) (target : Target) (month : Int) (start : Shown)
    (reports : List Report) (inside : ∀ report ∈ reports, (periodOf env target report.ts).month = month) :
    Runs.Along (Shown.report env target) (NotLowered env target month) start reports ↔
      Runs.Along (Shown.report env target) (Continues target month) start reports :=
  Runs.along_congr (fun report member _ => notLowered_iff (inside report member)) start

/-- Three reports of one hour; the third brings `after` received bytes. -/
def hourReports (after : ℚ) : List Report :=
  [.ofBytes 1000 1000 1700000000 (by decide), .ofBytes 5000 1000 1700000600 (by decide),
    .ofBytes after 1000 1700001200 (by decide)]

def november : Int := (periodOf {} monthlyTarget 1700000000).month

theorem hourReports_inside (after : ℚ) :
    ∀ report ∈ hourReports after, (periodOf {} monthlyTarget report.ts).month = november := by
  simp only [hourReports, List.forall_mem_cons, Report.ofBytes]
  exact ⟨rfl, by decide +kernel, by decide +kernel, nofun⟩

theorem displayed_monotone_hour :
    Runs.Along (Shown.report {} monthlyTarget) (NotLowered {} monthlyTarget november)
      ⟨.empty, fun _ => .nan⟩ (hourReports 9000) :=
  (displayed_monotone_iff {} monthlyTarget november _ _ (hourReports_inside 9000)).mpr
    (by decide +kernel)

/-- The four thousand bytes that wait to be booked are gone after the restart. -/
theorem restart_lowers_displayed :
    (∀ report ∈ hourReports 100, (periodOf {} monthlyTarget report.ts).month = november) ∧
      ¬ Runs.Along (Shown.report {} monthlyTarget) (NotLowered {} monthlyTarget november)
        ⟨.empty, fun _ => .nan⟩ (hourReports 100) :=
  ⟨hourReports_inside 100, by decide +kernel⟩

end NieSla.Traffic
