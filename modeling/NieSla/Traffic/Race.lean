import NieSla.Traffic.Conservation

/-! Calls of `persistAgentTraffic` for one agent and one period that run at the same
time. Each of their statements is atomic; between two of them any other call may run. -/
namespace NieSla.Traffic

open Counter

/-- The statement a call runs next, and what it has read. -/
inductive Phase where
  | readRow
  | readLatest
  | readDaily (latest : Option (Int × MonthlyRow))
  | updating (row : MonthlyRow)
  | inserting (latest : Option (Int × MonthlyRow)) (daily : Direction → Nat)
  | cleaning
  | finished

/-- The ledger, the calls, and the baselines installed so far. -/
structure Race (ι : Type) where
  ledger : Ledger
  phase : ι → Phase
  installed : List (Direction → Nat)

namespace Race

variable {ι : Type} [DecidableEq ι]

/-- No call has run yet. -/
def start (ι : Type) (ledger : Ledger) : Race ι := ⟨ledger, fun _ => .readRow, []⟩

def move (race : Race ι) (call : ι) (phase : Phase) : Race ι :=
  { race with phase := Function.update race.phase call phase }

/-- The outcome of a batch: a written row counts as installed. -/
def settle (race : Race ι) (env : Env) (call : ι) (report : Report) (activeDay : Option Int)
    (outcome : Ledger × Bool) : Race ι where
  ledger := outcome.1
  phase := Function.update race.phase call
    (if outcome.2 && activeDay ≠ some (dayFromSec report.ts env) then .cleaning else .finished)
  installed := if outcome.2 then race.installed ++ [report.reading] else race.installed

/-- The next statement of a call whose report is valid. -/
def advance (env : Env) (period : TrafficPeriod) (report : Report) (raw : Direction → ℚ)
    (race : Race ι) (call : ι) : Race ι :=
  match race.phase call with
  | .readRow =>
      match race.ledger.monthly.get? period.month with
      | some row =>
          race.move call (if throttled env row raw report.ts then .finished else .updating row)
      | none => race.move call .readLatest
  | .readLatest => race.move call (.readDaily race.ledger.latest)
  | .readDaily latest =>
      race.move call (.inserting latest
        (race.ledger.dailyTrafficSum period.periodStart period.periodEnd))
  | .updating row =>
      race.settle env call report row.activeDay
        (race.ledger.commit (planUpdate env period.month row raw report.ts))
  | .inserting latest daily =>
      race.settle env call report (latest.bind fun entry => entry.2.activeDay)
        (race.ledger.commit (planInsert env period latest daily raw report.ts))
  | .cleaning => { race.move call .finished with ledger := race.ledger.cleanup env report.ts }
  | .finished => race

/-- One statement of `persistAgentTraffic`. -/
def step (env : Env) (target : Target) (calls : ι → Report) (race : Race ι) (call : ι) :
    Race ι :=
  match target.trafficEnabled, validCounters (calls call).counters with
  | true, some raw =>
      race.advance env (periodOf env target (calls call).ts) (calls call) raw call
  | _, _ => race.move call .finished

/-! A call that nothing interrupts is `persistAgentTraffic`. -/

section Alone

variable {env : Env} {target : Target} {calls : ι → Report} {call : ι}

private theorem step_finished (env : Env) (target : Target) (calls : ι → Report) {race : Race ι} (done : race.phase call = .finished) :
    (step env target calls race call).ledger = race.ledger ∧
      (step env target calls race call).phase call = .finished := by
  unfold step advance
  rw [done]
  split <;> simp [move, done]

private theorem run_finished (count : Nat) {race : Race ι} (done : race.phase call = .finished) :
    (Runs.run (step env target calls) race (List.replicate count call)).ledger = race.ledger := by
  induction count generalizing race with
  | zero => rfl
  | succ count ih =>
      obtain ⟨same, still⟩ := step_finished env target calls done
      rw [List.replicate_succ, Runs.run_cons, ih still, same]

variable {raw : Direction → ℚ} (enabled : target.trafficEnabled = true)
  (valid : validCounters (calls call).counters = some raw)
include enabled valid

private theorem step_valid (race : Race ι) :
    step env target calls race call =
      race.advance env (periodOf env target (calls call).ts) (calls call) raw call := by
  simp only [step, enabled, valid]

private theorem run_settle (count : Nat) (race : Race ι) (activeDay : Option Int)
    (outcome : Ledger × Bool) :
    (Runs.run (step env target calls) (race.settle env call (calls call) activeDay outcome)
      (List.replicate (count + 1) call)).ledger =
        (tidy env (calls call).ts activeDay outcome).1 := by
  rw [List.replicate_succ, Runs.run_cons, step_valid enabled valid]
  by_cases begins : (outcome.2 && activeDay ≠ some (dayFromSec (calls call).ts env)) = true
  · have waits : (race.settle env call (calls call) activeDay outcome).phase call = .cleaning := by
      simp only [settle, Function.update_self, begins, ↓reduceIte]
    simp only [advance, waits]
    rw [run_finished count (Function.update_self ..), tidy, if_pos begins]
    rfl
  · have waits : (race.settle env call (calls call) activeDay outcome).phase call = .finished := by
      simp only [settle, Function.update_self, begins, ↓reduceIte, Bool.false_eq_true]
    simp only [advance, waits]
    rw [run_finished count waits, tidy, if_neg begins]
    rfl

end Alone

theorem run_alone (env : Env) (target : Target) (calls : ι → Report) (race : Race ι) (call : ι)
    (fresh : race.phase call = .readRow) :
    (Runs.run (step env target calls) race (List.replicate 5 call)).ledger =
      (persistAgentTraffic env (some target) (calls call) race.ledger).1 := by
  have settings : trafficSettingsFromTarget (some target) env (calls call).ts =
      ⟨target.trafficEnabled, periodOf env target (calls call).ts⟩ := rfl
  unfold persistAgentTraffic
  rw [settings]
  dsimp only
  split
  · rename_i raw enabled valid
    rw [List.replicate_succ, Runs.run_cons, step_valid enabled valid, advance, fresh]
    cases found : race.ledger.monthly.get? (periodOf env target (calls call).ts).month with
    | some row =>
        by_cases skip : throttled env row raw (calls call).ts = true
        · simp only [skip, ↓reduceIte]
          exact run_finished 4 (Function.update_self ..)
        · simp only [skip, ↓reduceIte, Bool.false_eq_true]
          rw [List.replicate_succ, Runs.run_cons, step_valid enabled valid, advance]
          simp only [move, Function.update_self]
          exact run_settle enabled valid 2 _ _ _
    | none =>
        simp only
        rw [List.replicate_succ, Runs.run_cons, step_valid enabled valid, advance]
        simp only [move, Function.update_self]
        rw [List.replicate_succ, Runs.run_cons, step_valid enabled valid, advance]
        simp only [move, Function.update_self]
        rw [List.replicate_succ, Runs.run_cons, step_valid enabled valid, advance]
        simp only [Function.update_self]
        exact run_settle enabled valid 0 _ _ _
  · rename_i skipped
    rw [List.replicate_succ, Runs.run_cons, step]
    split
    · rename_i raw enabled valid
      exact absurd valid (skipped raw enabled)
    · exact run_finished 4 (Function.update_self ..)

end Race

end NieSla.Traffic
