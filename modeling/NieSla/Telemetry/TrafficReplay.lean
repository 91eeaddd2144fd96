import NieSla.Lib.Runs
import NieSla.Telemetry.Drain
import NieSla.Traffic.Conservation

/-! The traffic of one agent whose reports are drained and retried, within one period. The
ledger credits what a counter has gained since it was stored last, so the sum is right as
long as no call brings counters below the stored ones. -/
namespace NieSla.Telemetry

open Traffic Counter

/-- The buffer with the ledger of one agent and what its traffic calls have done. -/
structure Replay where
  buffer : ReportBuffer
  account : Account

namespace Replay

def start (ledger : Ledger) : Replay := ⟨.empty, ⟨ledger, fun _ => 0, []⟩⟩

def applyEffect (env : Env) (target : Target) (agentId : String) (account : Account) :
    Effect → Account
  | .traffic id report => if id = agentId then account.persist env target report else account
  | _ => account

def step (env : Env) (target : Target) (agentId : String) (replay : Replay) (event : Event) :
    Replay where
  buffer := Telemetry.step env replay.buffer event
  account := Runs.run (applyEffect env target agentId) replay.account
    (effectsOf env replay.buffer event)

/-- The call finds stored counters that its own ones have reached. -/
def reaches (env : Env) (target : Target) (agentId : String) (account : Account) :
    Effect → Bool
  | .traffic id report =>
      match validCounters report.counters,
          account.ledger.monthly.get? (periodOf env target report.ts).month with
      | some raw, some row => id ≠ agentId || countersContinuous (some row) raw
      | _, _ => true
  | _ => true

/-- Every traffic call of the agent that the event makes finds stored counters that its own
ones have reached: no report is persisted after a report with higher counters. -/
def InOrder (env : Env) (target : Target) (agentId : String) (replay : Replay) (event : Event) :
    Prop :=
  Runs.Along (applyEffect env target agentId)
    (fun account effect => reaches env target agentId account effect = true) replay.account
    (effectsOf env replay.buffer event)

instance (env : Env) (target : Target) (agentId : String) (replay : Replay) (event : Event) :
    Decidable (InOrder env target agentId replay event) :=
  Runs.decidableAlong _ _ _ _

/-- From the row of the period as it was, the ledger has credited what the counters have
gained between the baseline and the counters persisted last. -/
def Exact (month : Int) (opening : MonthlyRow) (base : Direction → Nat) (account : Account) :
    Prop :=
  ∃ row, account.ledger.monthly.get? month = some row ∧ ∀ direction, ∃ last,
    baseline (some (base direction))
        (account.baselines.map fun reading => reading direction) = some last ∧
      row.last direction = some last ∧ base direction ≤ last ∧
      row.bytes direction = opening.bytes direction + (last - base direction)

/-- The reports of the agent that the buffer holds lie in the period. -/
def Within (env : Env) (target : Target) (agentId : String) (period : TrafficPeriod)
    (report : QueuedReport) : Prop :=
  sanitizeAgentId report.agentId = agentId → periodOf env target report.ts = period

def Kept (env : Env) (target : Target) (agentId : String) (period : TrafficPeriod)
    (opening : MonthlyRow) (base : Direction → Nat) (replay : Replay) : Prop :=
  replay.buffer.Every (Within env target agentId period) ∧
    Exact period.month opening base replay.account

section Replay

variable {env : Env} {target : Target} {agentId : String} {period : TrafficPeriod}
  {opening : MonthlyRow} {base : Direction → Nat} {account : Account}

private theorem get?_tidied {ledger result : Ledger} {ts : Int} {month : Int} {row : MonthlyRow}
    (tidied : Tidied env ts ledger result) (found : ledger.monthly.get? month = some row)
    (recent : row.updatedAt = ts) : result.monthly.get? month = some row := by
  rcases tidied with rfl | rfl
  · exact found
  · apply (OrderedMap.get?_filter _ _).mpr
    exact ⟨found, by simp [recent]⟩

private theorem le_floor_of_continuous {row : MonthlyRow} {raw : Direction → ℚ}
    (continuous : countersContinuous (some row) raw = true) {direction : Direction} {last : Nat}
    (stored : row.last direction = some last) : last ≤ ⌊raw direction⌋₊ := by
  have reached := of_decide_eq_true continuous direction
  rw [stored, Option.any_some, decide_eq_true_eq] at reached
  exact Nat.le_floor reached

/-- One traffic call that finds counters it has reached. -/
theorem exact_persist {report : Traffic.Report}
    (same : periodOf env target report.ts = period)
    (exact_ : Exact period.month opening base account)
    (reached : reaches env target agentId account (.traffic agentId report) = true) :
    Exact period.month opening base (account.persist env target report) := by
  obtain ⟨row, found, columns⟩ := exact_
  unfold Account.persist
  rcases persistAgentTraffic_cases env target report account.ledger with
    skipped | ⟨raw, written, result, valid, done, tidied, write⟩
  · rw [skipped]
    exact ⟨row, found, columns⟩
  · rw [done]
    rw [same] at write
    rcases write with ⟨stored, present, rfl⟩ | ⟨absent, _⟩
    · rw [found, Option.some.injEq] at present
      subst present
      refine ⟨_, get?_tidied tidied (OrderedMap.get?_set_self _ _ _) rfl, fun direction => ?_⟩
      obtain ⟨last, _, stored, above, bytes⟩ := columns direction
      have continuous : countersContinuous (some row) raw = true := by
        simpa [reaches, valid, same, found] using reached
      have rising := le_floor_of_continuous continuous stored
      refine ⟨⌊raw direction⌋₊, ?_, rfl, above.trans rising, ?_⟩
      · simp [Report.reading, valid]
      · simp only [updatedRow, bytes, stored, increment]
        omega
    · rw [found] at absent
      cases absent

/-- The calls that one event makes. -/
theorem exact_effects {effects : List Effect}
    (within : ∀ report, .traffic agentId report ∈ effects →
      periodOf env target report.ts = period)
    (exact_ : Exact period.month opening base account)
    (reached : Runs.Along (applyEffect env target agentId)
      (fun account effect => reaches env target agentId account effect = true) account effects) :
    Exact period.month opening base
      (Runs.run (applyEffect env target agentId) account effects) := by
  have inPeriod : Runs.Along (applyEffect env target agentId)
      (fun _ effect => ∀ report, effect = .traffic agentId report →
        periodOf env target report.ts = period) account effects := by
    apply Runs.along_of_forall
    intro effect member report made
    exact within report (made ▸ member)
  refine Runs.run_invariant ?_ exact_ (Runs.along_and reached inPeriod)
  rintro before effect exact_ ⟨reached, inPeriod⟩
  cases effect with
  | traffic id report =>
      simp only [applyEffect]
      split
      · rename_i own
        subst own
        exact exact_persist (inPeriod report rfl) exact_ reached
      · exact exact_
  | _ => exact exact_

/-- A traffic call is made for a report that the buffer holds. -/
private theorem period_of_effect {buffer : ReportBuffer} {event : Event}
    {report : Traffic.Report}
    (held : buffer.Every (Within env target agentId period))
    (made : .traffic agentId report ∈ effectsOf env buffer event) :
    periodOf env target report.ts = period := by
  cases event with
  | finishDrain outcome =>
      simp only [effectsOf] at made
      split at made
      · cases made
      · rename_i reports running
        obtain ⟨queued, inside, own, calls⟩ := traffic_drainGroups made
        obtain ⟨net, _, rfl⟩ := Option.map_eq_some_iff.mp calls
        exact held.2 reports running queued inside own
  | _ => cases made

end Replay

/-- Drains that bring the counters in order credit exactly what they have gained, in every
state, whatever fails and is retried. -/
theorem replayed_traffic_exact (env : Env) (target : Target) (agentId : String)
    (period : TrafficPeriod) (ledger : Ledger) (opening : MonthlyRow) (base : Direction → Nat)
    (found : ledger.monthly.get? period.month = some opening)
    (based : ∀ direction, opening.last direction = some (base direction))
    (events : List Event)
    (within : ∀ report, .accept report ∈ events → sanitizeAgentId report.agentId = agentId →
      periodOf env target report.ts = period)
    (inOrder : Runs.Along (step env target agentId) (InOrder env target agentId)
      (start ledger) events) :
    Exact period.month opening base
      (Runs.run (step env target agentId) (start ledger) events).account := by
  have accepted : Runs.Along (step env target agentId) (fun _ event => ∀ report,
      event = .accept report → Within env target agentId period report) (start ledger)
      events := by
    apply Runs.along_of_forall
    intro event member report made
    exact within report (made ▸ member)
  have opened : Exact period.month opening base (start ledger).account := by
    refine ⟨opening, found, fun direction => ?_⟩
    exact ⟨base direction, rfl, based direction, le_refl _, by omega⟩
  have kept : Kept env target agentId period opening base
      (Runs.run (step env target agentId) (start ledger) events) := by
    refine Runs.run_invariant ?_ ⟨⟨by simp [start, ReportBuffer.empty],
      by simp [start, ReportBuffer.empty]⟩, opened⟩ (Runs.along_and accepted inOrder)
    rintro replay event ⟨held, exact_⟩ ⟨accepted, inOrder⟩
    exact ⟨every_step held accepted,
      exact_effects (fun _ made => period_of_effect held made) exact_ inOrder⟩
  exact kept.2

/-! One agent in January 1970. -/

def january : TrafficPeriod := ⟨0, 1, 0, 31⟩

def openingRow : MonthlyRow where
  bytes := fun _ => 1000
  last := fun _ => some 100
  activeDay := some 2
  dayBytes := fun _ => 50
  updatedAt := 0

def openingLedger : Ledger := ⟨OrderedMap.empty.set 0 openingRow, OrderedMap.empty⟩

def trafficReport (ts : Int) (ts_pos : 0 < ts) (bytes : ℚ) : QueuedReport where
  agentId := "a"
  ts
  ts_pos
  prevReportAt := none
  state := none
  points := []
  pings := []
  proxyChecks := []
  net := some fun _ => .finite bytes

/-- The first report fails and is retried before a later one comes in. -/
def failedOnce : List Event :=
  [.accept (trafficReport 172900 (by decide) 200), .startDrain,
    .finishDrain fun _ => { traffic := fun _ => false },
    .startDrain, .finishDrain fun _ => {},
    .accept (trafficReport 175000 (by decide) 300), .startDrain, .finishDrain fun _ => {}]

theorem replayed_traffic_exact_failedOnce :
    Exact 0 openingRow (fun _ => 100)
        (Runs.run (step {} monthlyTarget "a") (start openingLedger) failedOnce).account ∧
      (Runs.run (step {} monthlyTarget "a") (start openingLedger)
        failedOnce).account.ledger.monthlyBytes 0 .rx = 1200 := by
  refine ⟨replayed_traffic_exact {} monthlyTarget "a" january openingLedger openingRow
    (fun _ => 100) rfl (fun _ => rfl) failedOnce ?_ (by decide +kernel), by decide +kernel⟩
  intro report member _
  simp only [failedOnce, List.mem_cons, Event.accept.injEq, reduceCtorEq, List.not_mem_nil,
    or_false, false_or] at member
  rcases member with rfl | rfl
  all_goals decide +kernel

theorem lastReport_pos : (0 : Int) < 180000 := by decide

/-- The first report fails, a later one is persisted, and the retry moves the baseline back. -/
def retriedLate : List Event :=
  [.accept (trafficReport 172900 (by decide) 200), .accept (trafficReport 175000 (by decide) 300),
    .startDrain, .finishDrain fun _ => { traffic := fun index => index ≠ 0 },
    .startDrain, .finishDrain fun _ => {},
    .accept (trafficReport 180000 lastReport_pos 400), .startDrain, .finishDrain fun _ => {}]

/-- The counters have gained 300 bytes, and 400 are credited. -/
theorem retried_traffic_credited_twice :
    let account := (Runs.run (step {} monthlyTarget "a") (start openingLedger) retriedLate).account
    account.ledger.monthlyBytes 0 .rx = 1400 ∧
      baseline (some 100) (account.baselines.map fun reading => reading .rx) = some 400 ∧
      ¬ Exact 0 openingRow (fun _ => 100) account := by
  intro account
  have bytes : account.ledger.monthlyBytes 0 .rx = 1400 := by decide +kernel
  have persisted : baseline (some 100)
      (account.baselines.map fun reading => reading .rx) = some 400 := by decide +kernel
  refine ⟨bytes, persisted, ?_⟩
  rintro ⟨row, found, columns⟩
  obtain ⟨last, stored, _, _, gained⟩ := columns .rx
  rw [persisted, Option.some.injEq] at stored
  rw [Ledger.monthlyBytes, found, Option.map_some, Option.getD_some, gained, ← stored] at bytes
  revert bytes
  decide

end Replay

end NieSla.Telemetry
