import NieSla.Telemetry.Drain
import NieSla.Traffic.Rebuild

/-! The traffic of one agent within one period, whose reports come over WebSockets and are persisted
by drains, or over HTTP and are persisted at once, while its period may be rebuilt. -/
namespace NieSla.Telemetry

open Traffic Counter

/-- The ledger, and the baseline that the run has started from: the stored counters, or else the
first ones that a write stores. -/
structure Credit where
  ledger : Ledger
  base : Direction → Option Nat

def Credit.settle (credit : Credit) (ledger : Ledger) : Credit :=
  ⟨ledger, fun direction => (credit.base direction).or (latestLast ledger.latest direction)⟩

def Credit.persist (env : Env) (target : Target) (credit : Credit) (report : Traffic.Report) :
    Credit :=
  credit.settle (persistAgentTraffic env (some target) report credit.ledger).1

structure Uploads where
  buffer : ReportBuffer
  credit : Credit
  /-- The states of the reports received so far, from either transport. -/
  states : List MetricRow

/-- The row in D1 and the buffered state are written at intervals only: a rebuild finds in each the
state of some report received before, or none. -/
inductive Operation where
  | buffer (event : Event)
  | http (report : Traffic.Report)
  | rebuild (ts : Int) (d1Metric buffered : Option Nat)

namespace Uploads

def start (ledger : Ledger) (states : List MetricRow) : Uploads where
  buffer := .empty
  credit := ⟨ledger, latestLast ledger.latest⟩
  states

def stateOf (counters : Direction → JsNumber) (ts : Int) : MetricRow :=
  ⟨ts, fun direction => boundedCounter (counters direction)⟩

def reportState (report : QueuedReport) : MetricRow :=
  stateOf (report.net.getD fun _ => .nan) report.ts

section Steps

variable (env : Env) (target : Target) (agentId : String)

def received : Operation → List MetricRow
  | .buffer (.accept report) =>
      if sanitizeAgentId report.agentId = agentId then [reportState report] else []
  | .http report => [stateOf report.counters report.ts]
  | _ => []

/-- The calls of `persistAgentTraffic` that an operation makes for the agent. -/
def trafficCalls (uploads : Uploads) : Operation → List Traffic.Report
  | .buffer event => (effectsOf env uploads.buffer event).filterMap fun
      | .traffic id report => if id = agentId then some report else none
      | _ => none
  | .http report => [report]
  | .rebuild _ _ _ => []

def step (uploads : Uploads) (operation : Operation) : Uploads where
  buffer :=
    match operation with
    | .buffer event => Telemetry.step env uploads.buffer event
    | _ => uploads.buffer
  credit :=
    match operation with
    | .rebuild ts d1Metric buffered =>
        uploads.credit.settle (rebuildAgentTrafficPeriod env (some target)
          (d1Metric.bind fun index => uploads.states[index]?)
          (buffered.bind fun index => uploads.states[index]?) ts uploads.credit.ledger)
    | _ => Runs.run (Credit.persist env target) uploads.credit
        (trafficCalls env agentId uploads operation)
  states := uploads.states ++ received agentId operation

/-- No traffic call of the operation finds a stored counter above its own. -/
def InOrder (uploads : Uploads) (operation : Operation) : Prop :=
  Runs.Along (Credit.persist env target)
    (fun credit report => forward target credit.ledger report = true) uploads.credit
    (trafficCalls env agentId uploads operation)

instance (uploads : Uploads) (operation : Operation) :
    Decidable (InOrder env target agentId uploads operation) :=
  Runs.decidableAlong _ _ _ _

/-- The operation lies in the period. -/
def Within (period : TrafficPeriod) : Operation → Prop
  | .buffer (.accept report) =>
      sanitizeAgentId report.agentId = agentId → periodOf env target report.ts = period
  | .http report => periodOf env target report.ts = period
  | .rebuild ts _ _ => periodOf env target ts = period
  | .buffer _ => True

end Steps

/-- The largest counter of the states, or the baseline if that is larger. -/
def largest (states : List MetricRow) (direction : Direction) (base : Nat) : Nat :=
  (states.map fun state => ⌊state.net direction⌋₊).foldr max base

/-- The row of the period has grown by no more than what the counters have gained. -/
def Credited (month : Int) (opening : Direction → Nat) (uploads : Uploads) : Prop :=
  ∀ direction,
    match uploads.credit.base direction with
    | none => uploads.credit.ledger.monthlyBytes month direction ≤ opening direction
    | some base => uploads.credit.ledger.monthlyBytes month direction + base ≤
        opening direction + largest uploads.states direction base

/-- What the stored counter says of the bytes of the row. -/
def Balanced (states : List MetricRow) (opening : Nat) (direction : Direction)
    (last base : Option Nat) (bytes : Nat) : Prop :=
  match last with
  | none => base = none ∧ bytes ≤ opening
  | some last => ∃ first ∈ base, bytes + first ≤ opening + last ∧
      last ≤ largest states direction first

/-- Each report of the agent that is queued lies in the period, and its state was received. -/
def Known (env : Env) (target : Target) (agentId : String) (period : TrafficPeriod)
    (states : List MetricRow) (report : QueuedReport) : Prop :=
  sanitizeAgentId report.agentId = agentId →
    periodOf env target report.ts = period ∧ reportState report ∈ states

structure Sound (env : Env) (target : Target) (period : TrafficPeriod) (states : List MetricRow)
    (opening : Direction → Nat) (credit : Credit) : Prop where
  current : Current env target period credit.ledger
  balanced : ∀ direction, Balanced states (opening direction) direction
    (latestLast credit.ledger.latest direction) (credit.base direction)
    (credit.ledger.monthlyBytes period.month direction)

section Largest

variable {states : List MetricRow} {direction : Direction} {base : Nat}

theorem base_le_largest : base ≤ largest states direction base := by
  induction states with
  | nil => exact le_refl base
  | cons state rest ih => exact ih.trans (le_max_right _ _)

theorem le_largest {state : MetricRow} (member : state ∈ states) :
    ⌊state.net direction⌋₊ ≤ largest states direction base := by
  induction states with
  | nil => cases member
  | cons first rest ih =>
      cases List.mem_cons.mp member with
      | inl same => exact same ▸ le_max_left _ _
      | inr later => exact (ih later).trans (le_max_right _ _)

theorem largest_append {more : List MetricRow} :
    largest states direction base ≤ largest (states ++ more) direction base := by
  induction states with
  | nil => exact base_le_largest
  | cons first rest ih => exact max_le_max_left _ ih

theorem Balanced.append {more : List MetricRow} {opening bytes : Nat} {last first : Option Nat}
    (balanced : Balanced states opening direction last first bytes) :
    Balanced (states ++ more) opening direction last first bytes := by
  cases last with
  | none => exact balanced
  | some last =>
      obtain ⟨base, known, bound, top⟩ := balanced
      exact ⟨base, known, bound, top.trans largest_append⟩

end Largest

section Credit

variable {env : Env} {target : Target} {period : TrafficPeriod} {states : List MetricRow}
  {opening : Direction → Nat} {credit : Credit} {after : Ledger}

/-- A write that credits what a received counter has gained. -/
theorem sound_settle (sound : Sound env target period states opening credit)
    (current : Current env target period after) {counter : Direction → Option Nat}
    (known : ∀ direction, ∀ reading ∈ counter direction,
      ∃ state ∈ states, reading ≤ ⌊state.net direction⌋₊)
    (gains : ∀ direction, Gains period.month (counter direction) direction credit.ledger after) :
    Sound env target period states opening (credit.settle after) := by
  refine ⟨current, fun direction => ?_⟩
  have balanced := sound.balanced direction
  simp only [Credit.settle]
  cases gains direction with
  | inl same =>
      rw [same.1, same.2]
      generalize latestLast credit.ledger.latest direction = last at balanced
      cases last with
      | none => exact ⟨by rw [balanced.1, Option.none_or], balanced.2⟩
      | some last =>
          obtain ⟨first, base, bound⟩ := balanced
          exact ⟨first, by rw [Option.mem_def.mp base, Option.some_or]; rfl, bound⟩
  | inr gained =>
      obtain ⟨reading, counted, stored, above, bytes⟩ := gained
      obtain ⟨state, member, reached⟩ := known direction reading counted
      have top (base : Nat) : reading ≤ largest states direction base :=
        reached.trans (le_largest member)
      rw [stored, bytes]
      generalize latestLast credit.ledger.latest direction = last at balanced above
      cases last with
      | none =>
          refine ⟨reading, by rw [balanced.1]; rfl, ?_, top reading⟩
          have held := balanced.2
          simp only [increment]
          omega
      | some last =>
          obtain ⟨first, base, bound, _⟩ := balanced
          have rising := above last rfl
          refine ⟨first, by rw [Option.mem_def.mp base, Option.some_or]; rfl, ?_, top first⟩
          simp only [increment]
          omega

/-- A call of `persistAgentTraffic` for a report whose state was received. -/
theorem sound_persist {report : Traffic.Report}
    (sound : Sound env target period states opening credit)
    (inside : periodOf env target report.ts = period)
    (known : stateOf report.counters report.ts ∈ states)
    (ahead : forward target credit.ledger report = true) :
    Sound env target period states opening (credit.persist env target report) := by
  apply sound_settle sound (current_persist sound.current inside).1 _
    (gains_persist sound.current inside ahead)
  intro direction reading same
  refine ⟨_, known, ?_⟩
  cases Option.some.inj same
  exact reading_le_boundedCounter report direction

theorem sound_calls {reports : List Traffic.Report}
    (sound : Sound env target period states opening credit)
    (known : ∀ report ∈ reports, periodOf env target report.ts = period ∧
      stateOf report.counters report.ts ∈ states)
    (ahead : Runs.Along (Credit.persist env target)
      (fun credit report => forward target credit.ledger report = true) credit reports) :
    Sound env target period states opening (Runs.run (Credit.persist env target) credit reports) := by
  have keep (credit : Credit) (report : Traffic.Report)
      (sound : Sound env target period states opening credit)
      (allowed : forward target credit.ledger report = true ∧
        periodOf env target report.ts = period ∧ stateOf report.counters report.ts ∈ states) :
      Sound env target period states opening (credit.persist env target report) :=
    sound_persist sound allowed.2.1 allowed.2.2 allowed.1
  exact Runs.run_invariant keep sound (Runs.along_and ahead (Runs.along_of_forall _ credit known))

theorem Sound.append {more : List MetricRow}
    (sound : Sound env target period states opening credit) :
    Sound env target period (states ++ more) opening credit :=
  ⟨sound.current, fun direction => (sound.balanced direction).append⟩

end Credit

section Run

variable {env : Env} {target : Target} {agentId : String} {period : TrafficPeriod}
  {opening : Direction → Nat} {uploads : Uploads} {operation : Operation}

/-- The calls of an operation are made for reports that were received. -/
theorem known_calls (queued : uploads.buffer.Every (Known env target agentId period uploads.states))
    (within : Within env target agentId period operation) (report : Traffic.Report)
    (called : report ∈ trafficCalls env agentId uploads operation) :
    periodOf env target report.ts = period ∧
      stateOf report.counters report.ts ∈ uploads.states ++ received agentId operation := by
  cases operation with
  | rebuild _ _ _ => cases called
  | http own =>
      rw [trafficCalls, List.mem_singleton] at called
      subst called
      exact ⟨within, List.mem_append_right _ (List.mem_singleton_self _)⟩
  | buffer event =>
      obtain ⟨effect, made, own⟩ := List.mem_filterMap.mp called
      cases effect with
      | traffic id call =>
          simp only [Option.ite_none_right_eq_some, Option.some.injEq] at own
          obtain ⟨rfl, rfl⟩ := own
          cases event with
          | finishDrain outcome =>
              simp only [effectsOf] at made
              cases running : uploads.buffer.draining with
              | none =>
                  rw [running] at made
                  cases made
              | some reports =>
                  rw [running] at made
                  obtain ⟨fact, inside, same, net⟩ := traffic_drainGroups made
                  obtain ⟨counters, found, rfl⟩ := Option.map_eq_some_iff.mp net
                  obtain ⟨timely, stated⟩ := queued.2 reports running fact inside same
                  refine ⟨timely, List.mem_append_left _ ?_⟩
                  rw [reportState, found] at stated
                  exact stated
          | _ => cases made
      | _ => cases own

theorem known_step (queued : uploads.buffer.Every (Known env target agentId period uploads.states))
    (within : Within env target agentId period operation) :
    (step env target agentId uploads operation).buffer.Every
      (Known env target agentId period (step env target agentId uploads operation).states) := by
  have later : uploads.buffer.Every (Known env target agentId period
      (uploads.states ++ received agentId operation)) := by
    have more (report : QueuedReport) (known : Known env target agentId period uploads.states report) :
        Known env target agentId period (uploads.states ++ received agentId operation) report :=
      fun own => ⟨(known own).1, List.mem_append_left _ (known own).2⟩
    exact ⟨fun report member => more report (queued.1 report member),
      fun reports running report member => more report (queued.2 reports running report member)⟩
  cases operation with
  | http _ | rebuild _ _ _ => exact later
  | buffer event =>
      apply every_step later
      rintro report rfl own
      refine ⟨within own, List.mem_append_right _ ?_⟩
      have sender : sanitizeAgentId report.agentId = agentId := own
      rw [received, if_pos sender]
      exact List.mem_singleton_self _

/-- A rebuild reads a state that was received. -/
theorem mem_of_read {states : List MetricRow} {d1Metric buffered : Option Nat} {state : MetricRow}
    (found : (if env.bufferedAgentState then
      newerAgentMetricRow (d1Metric.bind fun index => states[index]?)
        (buffered.bind fun index => states[index]?)
      else d1Metric.bind fun index => states[index]?) = some state) : state ∈ states := by
  have stored {source : Option Nat} (read : source.bind (fun index => states[index]?) = some state) :
      state ∈ states := by
    obtain ⟨index, _, at_⟩ := Option.bind_eq_some_iff.mp read
    exact List.mem_of_getElem? at_
  split at found
  · cases newerAgentMetricRow_eq (d1Metric.bind fun index => states[index]?)
      (buffered.bind fun index => states[index]?) with
    | inl first => exact stored (first.symm.trans found)
    | inr second => exact stored (second.symm.trans found)
  · exact stored found

theorem sound_step (queued : uploads.buffer.Every (Known env target agentId period uploads.states))
    (sound : Sound env target period uploads.states opening uploads.credit)
    (within : Within env target agentId period operation)
    (inOrder : InOrder env target agentId uploads operation) :
    Sound env target period (step env target agentId uploads operation).states opening
      (step env target agentId uploads operation).credit := by
  have calls := sound_calls (sound.append) (known_calls queued within) inOrder
  cases operation with
  | buffer _ | http _ => exact calls
  | rebuild ts d1Metric buffered =>
      simp only [step]
      obtain ⟨current, gains⟩ := current_rebuild sound.current within
      apply (sound_settle sound current _ gains).append
      intro direction reading counted
      obtain ⟨state, found, rfl⟩ := Option.map_eq_some_iff.mp counted
      exact ⟨state, mem_of_read found, le_refl _⟩

theorem credited_of_sound
    (sound : Sound env target period uploads.states opening uploads.credit) :
    Credited period.month opening uploads := by
  intro direction
  have balanced := sound.balanced direction
  generalize latestLast uploads.credit.ledger.latest direction = last at balanced
  cases last with
  | none =>
      rw [balanced.1]
      exact balanced.2
  | some last =>
      obtain ⟨first, base, bound, top⟩ := balanced
      rw [Option.mem_def.mp base]
      exact bound.trans (Nat.add_le_add_left top _)

theorem sound_start {ledger : Ledger} (current : Current env target period ledger)
    (states : List MetricRow) :
    Sound env target period states (ledger.monthlyBytes period.month) (start ledger states).credit := by
  refine ⟨current, fun direction => ?_⟩
  simp only [start]
  cases latestLast ledger.latest direction with
  | none => exact ⟨rfl, le_refl _⟩
  | some last => exact ⟨last, rfl, le_refl _, base_le_largest⟩

end Run

/-- Within one period, in whatever order reports and rebuilds come, the row grows by no more than
the largest counter received exceeds the baseline, when no traffic call finds a stored counter above
its own. -/
theorem traffic_credited_once (env : Env) (target : Target) (agentId : String)
    (period : TrafficPeriod) (ledger : Ledger) (states : List MetricRow)
    (current : Current env target period ledger)
    (operations : List Operation)
    (within : ∀ operation ∈ operations, Within env target agentId period operation)
    (inOrder : Runs.Along (step env target agentId) (InOrder env target agentId)
      (start ledger states) operations) :
    Credited period.month (ledger.monthlyBytes period.month)
      (Runs.run (step env target agentId) (start ledger states) operations) := by
  have keep (uploads : Uploads) (operation : Operation)
      (holds : uploads.buffer.Every (Known env target agentId period uploads.states) ∧
        Sound env target period uploads.states (ledger.monthlyBytes period.month) uploads.credit)
      (allowed : Within env target agentId period operation ∧
        InOrder env target agentId uploads operation) :
      (step env target agentId uploads operation).buffer.Every
          (Known env target agentId period (step env target agentId uploads operation).states) ∧
        Sound env target period (step env target agentId uploads operation).states
          (ledger.monthlyBytes period.month) (step env target agentId uploads operation).credit :=
    ⟨known_step holds.1 allowed.1, sound_step holds.1 holds.2 allowed.1 allowed.2⟩
  have opened : (start ledger states).buffer.Every (Known env target agentId period states) := by
    constructor
    · intro report member
      cases member
    · intro reports running
      cases running
  have along := Runs.along_and
    (Runs.along_of_forall (Within env target agentId period) (start ledger states) within) inOrder
  exact credited_of_sound (Runs.run_invariant keep ⟨opened, sound_start current states⟩ along).2

section Examples

private def firstMonth : TrafficPeriod := ⟨0, 1, 0, 31⟩

private def counted (ts : Int) (ts_pos : 0 < ts) (bytes : ℚ) : Traffic.Report :=
  ⟨fun _ => .finite bytes, ts, ts_pos⟩

private def queued (ts : Int) (ts_pos : 0 < ts) (bytes : ℚ) : QueuedReport where
  agentId := "a"
  ts
  ts_pos
  prevReportAt := none
  state := none
  points := []
  pings := []
  proxyChecks := []
  net := some fun _ => .finite bytes

private def drain : List Operation := [.buffer .startDrain, .buffer (.finishDrain fun _ => {})]

private theorem first_pos : (0 : Int) < 172800 := by decide

private theorem queued_pos : (0 : Int) < 172900 := by decide

private theorem later_pos : (0 : Int) < 175000 := by decide

private theorem last_pos : (0 : Int) < 180000 := by decide

/-- The queue is drained before the next report comes over HTTP. -/
private def drainedFirst : List Operation :=
  [.http (counted 172800 first_pos 100), .buffer (.accept (queued 172900 queued_pos 200))] ++
    drain ++ [.rebuild 173000 (some 1) (some 0), .http (counted 175000 later_pos 300)]

private theorem within_drainedFirst : ∀ operation ∈ drainedFirst,
    Within {} monthlyTarget "a" firstMonth operation := by
  intro operation member
  simp only [drainedFirst, drain, List.cons_append, List.nil_append, List.mem_cons, List.not_mem_nil,
    or_false] at member
  rcases member with rfl | rfl | rfl | rfl | rfl | rfl
  · simp only [Within]
    decide +kernel
  · intro _
    decide +kernel
  · exact True.intro
  · exact True.intro
  · simp only [Within]
    decide +kernel
  · simp only [Within]
    decide +kernel

theorem traffic_credited_once_drainedFirst : Credited 0 (fun _ => 0)
      (Runs.run (step {} monthlyTarget "a") (start .empty []) drainedFirst) ∧
    (Runs.run (step {} monthlyTarget "a") (start .empty [])
      drainedFirst).credit.ledger.monthlyBytes 0 .rx = 200 :=
  ⟨traffic_credited_once {} monthlyTarget "a" firstMonth .empty []
    (current_empty {} monthlyTarget firstMonth) drainedFirst within_drainedFirst (by decide +kernel),
    by decide +kernel⟩

/-- A report comes over HTTP while an earlier one is queued. -/
private def drainedLate : List Operation :=
  [.http (counted 172800 first_pos 100), .buffer (.accept (queued 172900 queued_pos 200)),
    .http (counted 175000 later_pos 300)] ++ drain ++ [.http (counted 180000 last_pos 400)]

/-- The drain moves the baseline back to 200, and what lies between 200 and 300 is credited again:
the counter has gained 300 bytes, and 400 are credited. -/
theorem queued_traffic_credited_twice : ¬ Credited 0 (fun _ => 0)
    (Runs.run (step {} monthlyTarget "a") (start .empty []) drainedLate) := by
  intro credited
  have bound := credited .rx
  have base : (Runs.run (step {} monthlyTarget "a") (start .empty [])
      drainedLate).credit.base .rx = some 100 := by decide +kernel
  rw [base] at bound
  revert bound
  decide +kernel

end Examples

end Uploads

end NieSla.Telemetry
