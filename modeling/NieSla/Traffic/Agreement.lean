import NieSla.Traffic.Displayed
import NieSla.Traffic.Rebuild

/-! What is displayed for a report, from the row of the period that is stored before it, against what the
report leaves in that row. -/
namespace NieSla.Traffic
open Counter

/-- A write of the ledger: a report, or the rebuild after a change of the target. -/
inductive Operation where
  | report (target : Option Target) (report : Report)
  | rebuild (target : Option Target) (d1Metric buffered : Option MetricRow) (ts : Int)

section Guards

variable (env : Env)

def Ledger.operate (ledger : Ledger) : Operation → Ledger
  | .report target report => (persistAgentTraffic env target report ledger).1
  | .rebuild target d1Metric buffered ts =>
      rebuildAgentTrafficPeriod env target d1Metric buffered ts ledger

variable (target : Option Target) (report : Report) (ledger : Ledger)

/-- Traffic is enabled, the counters are valid, and the row of the period is not held back. -/
def Writes : Bool :=
  let settings := trafficSettingsFromTarget target env report.ts
  settings.enabled && (validCounters report.counters).any fun raw =>
    (ledger.monthly.get? settings.period.month).all fun row => !throttled env row raw report.ts

/-- The row before the report, with what is pending, shows what the row after it holds. -/
def Agrees : Prop :=
  let month := (trafficSettingsFromTarget target env report.ts).period.month
  let after := (persistAgentTraffic env target report ledger).1
  (after.monthly.get? month).isSome = true ∧ ∀ direction,
    summarizeTrafficWithPending (ledger.monthly.get? month) report.counters direction =
      after.monthlyBytes month direction

/-- The period has a row and the counters beyond it are whole, or there is nothing that its first row
would hold: no finished day, no active day, no whole byte beyond the latest baseline. -/
def Covered : Prop :=
  let period := (trafficSettingsFromTarget target env report.ts).period
  ∀ direction, ∀ value ∈ finiteValue (report.counters direction),
    match ledger.monthly.get? period.month with
    | some row => ∀ last ∈ row.last direction, (last : ℚ) ≤ value → Int.fract value = 0
    | none => ledger.dailyTrafficSum period.periodStart period.periodEnd direction = 0 ∧
        carried period ledger.latest direction = 0 ∧
        ∀ last ∈ latestLast ledger.latest direction, value < last + 1

instance : Decidable (Agrees env target report ledger) :=
  inferInstanceAs (Decidable (_ ∧ ∀ _, _ = (_ : ℚ)))

variable {target} {report} {ledger}

/-- Each report that is written is shown as it is stored. -/
def ShownAsStored (ledger : Ledger) : Operation → Prop
  | .report target report =>
      Writes env target report ledger = true → Agrees env target report ledger
  | .rebuild .. => True

/-- Each report that is written comes to a row with whole counters, or has nothing to open with. -/
def AlwaysCovered (ledger : Ledger) : Operation → Prop
  | .report target report =>
      Writes env target report ledger = true → Covered env target report ledger
  | .rebuild .. => True

instance (operation : Operation) : Decidable (ShownAsStored env ledger operation) :=
  match operation with
  | .report target report =>
      inferInstanceAs (Decidable (Writes env target report ledger = true → Agrees env target report ledger))
  | .rebuild .. => .isTrue trivial

end Guards

section Step

variable {env : Env} {target : Target} {report : Report} {ledger : Ledger}

/-- A report is written exactly where the guards let it through. -/
theorem writes_eq (env : Env) (target : Option Target) (report : Report) (ledger : Ledger) :
    (persistAgentTraffic env target report ledger).2 = Writes env target report ledger := by
  unfold persistAgentTraffic Writes
  dsimp only
  cases enabled : (trafficSettingsFromTarget target env report.ts).enabled with
  | false => rfl
  | true =>
      cases valid : validCounters report.counters with
      | none => rfl
      | some raw =>
          cases found : ledger.monthly.get? (trafficSettingsFromTarget target env report.ts).period.month with
          | none =>
              simp only [commit_planInsert _ found, tidy, Option.any_some, Option.all_none, Bool.true_and]
              split <;> rfl
          | some row =>
              simp only [Option.any_some, Option.all_some, Bool.true_and]
              cases held : throttled env row raw report.ts with
              | true => rfl
              | false =>
                  simp only [Bool.false_eq_true, if_false, commit_planUpdate found rfl, tidy]
                  split <;> rfl

theorem finiteValue_of_valid {raw : Direction → ℚ} (valid : validCounters report.counters = some raw)
    (direction : Direction) : finiteValue (report.counters direction) = some (raw direction) := by
  rw [(validCounters_eq_some valid direction).1]
  rfl

/-- Over the row of the period the display is exact up to the fraction that the row leaves out. -/
theorem summarize_eq_updated_iff {row : MonthlyRow} {raw : Direction → ℚ}
    (valid : validCounters report.counters = some raw) (direction : Direction) (ts : Int) :
    summarizeTrafficWithPending (some row) report.counters direction =
        (updatedRow env row row raw ts).bytes direction ↔
      ∀ last ∈ row.last direction, (last : ℚ) ≤ raw direction → Int.fract (raw direction) = 0 := by
  obtain ⟨counter, positive⟩ := validCounters_eq_some valid direction
  simp only [summarizeTrafficWithPending, Option.map_some, Option.getD_some, Option.bind_some, counter,
    updatedRow, Nat.cast_add, add_right_inj]
  cases row.last direction with
  | none => simp [pendingTraffic, increment]
  | some last =>
      have whole := increment_add_fract positive last
      simp only [Option.mem_def, Option.some.injEq, forall_eq', pendingTraffic]
      by_cases reached : (last : ℚ) ≤ raw direction
      · simp only [reached, if_true, true_imp_iff] at whole ⊢
        constructor
        · intro same
          linarith
        · intro none_
          linarith
      · simp only [reached, if_false, false_imp_iff, iff_true] at whole ⊢
        linarith

/-- A period without a row displays nothing. -/
theorem summarize_eq_opened_iff {raw : Direction → ℚ} {period : TrafficPeriod}
    (valid : validCounters report.counters = some raw) (direction : Direction) (ts : Int) :
    summarizeTrafficWithPending none report.counters direction =
        (openedRow env period ledger.latest
          (ledger.dailyTrafficSum period.periodStart period.periodEnd) raw ts).bytes direction ↔
      ledger.dailyTrafficSum period.periodStart period.periodEnd direction = 0 ∧
        carried period ledger.latest direction = 0 ∧
        ∀ last ∈ latestLast ledger.latest direction, raw direction < last + 1 := by
  obtain ⟨counter, positive⟩ := validCounters_eq_some valid direction
  have nothing : summarizeTrafficWithPending none report.counters direction = 0 := by
    simp [summarizeTrafficWithPending, pendingTraffic, counter]
  rw [nothing, eq_comm, Nat.cast_eq_zero]
  simp only [openedRow, Nat.add_eq_zero_iff, and_assoc]
  refine and_congr_right fun _ => and_congr_right fun _ => ?_
  cases latestLast ledger.latest direction with
  | none => simp [increment]
  | some last =>
      simp only [increment, Option.mem_def, Option.some.injEq, forall_eq', Nat.sub_eq_zero_iff_le]
      rw [← Nat.lt_succ_iff, Nat.floor_lt positive, Nat.succ_eq_add_one, Nat.cast_add, Nat.cast_one]

theorem agrees_iff_covered (written : Writes env (some target) report ledger = true) :
    Agrees env (some target) report ledger ↔ Covered env (some target) report ledger := by
  rcases persistAgentTraffic_cases env target report ledger with
    skipped | ⟨raw, writtenLedger, result, valid, done, tidied, write⟩
  · rw [← writes_eq, skipped] at written
    cases written
  have period : (trafficSettingsFromTarget (some target) env report.ts).period =
      periodOf env target report.ts := rfl
  simp only [Agrees, Covered, period, done, finiteValue_of_valid valid, Option.mem_some_iff, forall_eq']
  rcases write with ⟨row, found, rfl⟩ | ⟨absent, rfl⟩
  · have stored := get?_tidied tidied (OrderedMap.get?_set_self _ _ _)
      (show report.ts - 400 * 86400 ≤ (updatedRow env row row raw report.ts).updatedAt by
        simp only [updatedRow]
        omega)
    simp only [stored, Option.isSome_some, true_and, found, monthlyBytes_of_get? stored,
      summarize_eq_updated_iff valid]
  · have stored := get?_tidied tidied (OrderedMap.get?_set_self _ _ _)
      (show report.ts - 400 * 86400 ≤ (openedRow env (periodOf env target report.ts) ledger.latest
          (ledger.dailyTrafficSum (periodOf env target report.ts).periodStart
            (periodOf env target report.ts).periodEnd) raw report.ts).updatedAt by
        simp only [openedRow]
        omega)
    simp only [stored, Option.isSome_some, true_and, absent, monthlyBytes_of_get? stored,
      summarize_eq_opened_iff valid]

theorem shownAsStored_iff (operation : Operation) :
    ShownAsStored env ledger operation ↔ AlwaysCovered env ledger operation := by
  cases operation with
  | rebuild => exact Iff.rfl
  | report target report =>
      refine imp_congr_right fun written => ?_
      cases target with
      | none => cases written
      | some target => exact agrees_iff_covered written

end Step

/-- Along reports and rebuilds from an empty ledger, every report that is written is shown as it is stored
exactly when each of them comes to a row of its period with whole counters, or opens the period with
nothing. -/
theorem shown_as_stored_iff (env : Env) (operations : List Operation) :
    Runs.Along (Ledger.operate env) (ShownAsStored env) .empty operations ↔
      Runs.Along (Ledger.operate env) (AlwaysCovered env) .empty operations :=
  Runs.along_congr (fun operation _ _ => shownAsStored_iff operation) _

theorem november_pos : (0 : Int) < 1700000000 := by decide

theorem december_pos : (0 : Int) < 1701500000 := by decide

/-- A report in November, and the first one of December. -/
def acrossMonths : List Operation :=
  [.report (some monthlyTarget) (.ofBytes 1000 1000 1700000000 november_pos),
    .report (some monthlyTarget) (.ofBytes 5000 1000 1701500000 december_pos)]

/-- Four thousand bytes are stored that were not shown. -/
theorem first_report_of_month_not_shown :
    ¬ Runs.Along (Ledger.operate {}) (ShownAsStored {}) .empty acrossMonths := by
  decide +kernel

end NieSla.Traffic
