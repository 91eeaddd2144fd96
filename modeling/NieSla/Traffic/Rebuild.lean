import NieSla.Traffic.Conservation

/-! `rebuildAgentTrafficPeriod`, and what it and `persistAgentTraffic` do to the row of a period,
whatever the order of the reports. -/
namespace NieSla.Traffic

open Counter

def maxSafeInteger : ℚ := 9007199254740991

/-- `boundedMetric(value, 0, Number.MAX_SAFE_INTEGER)` -/
def boundedCounter : JsNumber → ℚ
  | .finite value => max 0 (min maxSafeInteger value)
  | _ => 0

theorem le_boundedCounter {counter : JsNumber} {value : ℚ} (valid : validCounter counter = some value) :
    value ≤ boundedCounter counter := by
  unfold validCounter at valid
  split at valid
  · split at valid
    · rename_i within
      cases valid
      apply le_max_of_le_right
      exact le_min (within.2.trans (by norm_num [maxTrafficCounterBytes, maxSafeInteger])) le_rfl
    · cases valid
  · cases valid

/-- A stored counter is not above the one of the agent's state. -/
theorem reading_le_boundedCounter (report : Report) (direction : Direction) :
    report.reading direction ≤ ⌊boundedCounter (report.counters direction)⌋₊ := by
  unfold Report.reading validCounters
  cases rx : validCounter (report.counters .rx) with
  | none => exact Nat.zero_le _
  | some received =>
      cases tx : validCounter (report.counters .tx) with
      | none => exact Nat.zero_le _
      | some sent =>
          cases direction with
          | rx => exact Nat.floor_le_floor (le_boundedCounter rx)
          | tx => exact Nat.floor_le_floor (le_boundedCounter tx)

/-- The `net` of a state of the agent, and the time of the state. -/
structure MetricRow where
  updatedAt : Int
  net : Direction → ℚ

def newerAgentMetricRow (current candidate : Option MetricRow) : Option MetricRow :=
  match current, candidate with
  | _, none => current
  | none, some _ => candidate
  | some old, some new => if old.updatedAt ≤ new.updatedAt then candidate else current

theorem newerAgentMetricRow_eq (current candidate : Option MetricRow) :
    newerAgentMetricRow current candidate = current ∨
      newerAgentMetricRow current candidate = candidate := by
  unfold newerAgentMetricRow
  split
  · exact Or.inl rfl
  · exact Or.inr rfl
  · split
    · exact Or.inr rfl
    · exact Or.inl rfl

/-- The row that a rebuild stores over the finished days `daily`. -/
def rebuiltRow (env : Env) (period : TrafficPeriod) (latest : Option (Int × MonthlyRow))
    (daily : Direction → Nat) (metric : Option MetricRow) (ts : Int) : MonthlyRow :=
  let activeDay := latest.bind fun entry => entry.2.activeDay
  let includeActive := dayInTrafficPeriod activeDay period
  let current := fun direction => metric.map fun state => state.net direction
  let previous := fun direction => latest.bind fun entry => entry.2.last direction
  let pending := fun direction =>
    if includeActive then
      ((current direction).map fun raw => rawTrafficDelta raw (previous direction)).getD 0
    else 0
  let active := fun direction =>
    if includeActive then
      (latest.map fun entry => entry.2.dayBytes direction).getD 0 + pending direction
    else 0
  { bytes := fun direction => daily direction + active direction
    last := fun direction =>
      if 0 < pending direction then (current direction).map fun raw => ⌊raw⌋₊
      else (previous direction).or ((current direction).map fun raw => ⌊raw⌋₊)
    activeDay := activeDay.or (some (dayFromSec ts env))
    dayBytes := active
    updatedAt := max ts ((latest.map fun entry =>
      entry.2.updatedAt + if entry.1 = period.month then 0 else 1).getD 0) }

/-- The state of the agent is the newer one of its row in D1 and the one in the buffer. -/
def rebuildAgentTrafficPeriod (env : Env) (target : Option Target) (d1Metric buffered :
    Option MetricRow) (ts : Int) (ledger : Ledger) : Ledger :=
  let period := (trafficSettingsFromTarget target env ts).period
  let metric := if env.bufferedAgentState then newerAgentMetricRow d1Metric buffered else d1Metric
  { ledger with
    monthly := ledger.monthly.set period.month (rebuiltRow env period ledger.latest
      (ledger.dailyTrafficSum period.periodStart period.periodEnd) metric ts) }

/-! A period, whatever the order of its writes. -/

/-- The row of the period, if there is one, is the newest, and what the period holds is what its
days hold. -/
structure Current (env : Env) (target : Target) (period : TrafficPeriod) (ledger : Ledger) :
    Prop where
  older : ∀ entry ∈ ledger.monthly.entries, entry.1 ≠ period.month →
    ∀ ts, periodOf env target ts = period → entry.2.updatedAt < ts
  recent : ∀ row ∈ ledger.monthly.get? period.month,
    ∃ ts, periodOf env target ts = period ∧ ts ≤ row.updatedAt
  booked : ∀ direction, ledger.monthlyBytes period.month direction =
    bookedBefore ledger period ledger.latest direction

/-- The stored counter is kept, or moves up to `counter`, and what it has gained is credited. -/
def Gains (month : Int) (counter : Option Nat) (direction : Direction) (before after : Ledger) :
    Prop :=
  (latestLast after.latest direction = latestLast before.latest direction ∧
      after.monthlyBytes month direction = before.monthlyBytes month direction) ∨
    ∃ reading ∈ counter, latestLast after.latest direction = some reading ∧
      (∀ last ∈ latestLast before.latest direction, last ≤ reading) ∧
      after.monthlyBytes month direction = before.monthlyBytes month direction +
        increment (latestLast before.latest direction) reading

section Current

variable {env : Env} {target : Target} {period : TrafficPeriod} {ledger after : Ledger}
  {row : MonthlyRow} {ts : Int}

theorem monthlyBytes_of_get? {month : Int} (found : ledger.monthly.get? month = some row)
    (direction : Direction) : ledger.monthlyBytes month direction = row.bytes direction := by
  simp only [Ledger.monthlyBytes, found, Option.map_some, Option.getD_some]

/-- The row of the period is the newest one. -/
theorem latest_of_older (older : ∀ entry ∈ ledger.monthly.entries, entry.1 ≠ period.month →
      ∀ ts, periodOf env target ts = period → entry.2.updatedAt < ts)
    (found : ledger.monthly.get? period.month = some row)
    (inside : periodOf env target ts = period) (recent : ts ≤ row.updatedAt) :
    ledger.latest = some (period.month, row) := by
  apply latest_eq (OrderedMap.get?_eq_some.mp found)
  intro other member
  by_cases same : other.1 = period.month
  · apply Or.inl
    have stored := OrderedMap.get?_eq_some.mpr (show (other.1, other.2) ∈ _ from member)
    rw [same, found, Option.some.injEq] at stored
    exact Prod.ext same stored.symm
  · exact Or.inr ((older other member same ts inside).trans_le recent)

theorem Current.latest (current : Current env target period ledger)
    (found : ledger.monthly.get? period.month = some row) :
    ledger.latest = some (period.month, row) := by
  obtain ⟨ts, inside, recent⟩ := current.recent row found
  exact latest_of_older current.older found inside recent

theorem bookedBefore_row (direction : Direction) :
    bookedBefore ledger period (some (period.month, row)) direction =
      booked ledger period row direction := rfl

/-- A write leaves the period current when its row is booked in the days. -/
theorem current_of_written (current : Current env target period ledger)
    (inside : periodOf env target ts = period) (recent : ts ≤ row.updatedAt)
    (monthly : after.monthly = ledger.monthly.set period.month row)
    (days : ∀ direction, row.bytes direction = booked after period row direction) :
    Current env target period after ∧ after.latest = some (period.month, row) := by
  have found : after.monthly.get? period.month = some row := by
    rw [monthly, OrderedMap.get?_set_self]
  have older : ∀ entry ∈ after.monthly.entries, entry.1 ≠ period.month →
      ∀ ts, periodOf env target ts = period → entry.2.updatedAt < ts := by
    intro entry member other
    rw [monthly] at member
    cases (OrderedMap.mem_set_entries _ _ _ _).mp member with
    | inl new =>
        subst new
        exact absurd rfl other
    | inr kept => exact current.older entry kept.2 other
  have latest := latest_of_older older found inside recent
  refine ⟨⟨older, ?_, ?_⟩, latest⟩
  · intro stored same
    rw [found, Option.mem_some_iff] at same
    exact ⟨ts, inside, same ▸ recent⟩
  · intro direction
    rw [monthlyBytes_of_get? found, days, latest, bookedBefore_row]

/-- The cleanup leaves the newest row and the days of its period alone. -/
theorem Current.cleanup (current : Current env target period ledger)
    (inside : periodOf env target ts = period) (recent : ts ≤ row.updatedAt)
    (found : ledger.monthly.get? period.month = some row) :
    Current env target period (ledger.cleanup env ts) ∧
      (ledger.cleanup env ts).latest = some (period.month, row) ∧
      (ledger.cleanup env ts).monthly.get? period.month = some row := by
  have kept : (ledger.cleanup env ts).monthly.get? period.month = some row := by
    apply (OrderedMap.get?_filter _ _).mpr
    refine ⟨found, decide_eq_true ?_⟩
    omega
  have older : ∀ entry ∈ (ledger.cleanup env ts).monthly.entries, entry.1 ≠ period.month →
      ∀ ts, periodOf env target ts = period → entry.2.updatedAt < ts :=
    fun entry member => current.older entry (List.mem_of_mem_filter member)
  have latest := latest_of_older older kept inside recent
  refine ⟨⟨older, ?_, ?_⟩, latest, kept⟩
  · intro stored same
    rw [kept, Option.mem_some_iff] at same
    exact ⟨ts, inside, same ▸ recent⟩
  · intro direction
    have bytes := current.booked direction
    rw [monthlyBytes_of_get? found, current.latest found, bookedBefore_row] at bytes
    rw [monthlyBytes_of_get? kept, latest, bookedBefore_row, bytes, ← inside, booked_cleanup]

theorem current_tidied (current : Current env target period ledger)
    (latest : ledger.latest = some (period.month, row))
    (inside : periodOf env target ts = period) (recent : ts ≤ row.updatedAt)
    (tidied : Tidied env ts ledger after) :
    Current env target period after ∧ after.latest = some (period.month, row) ∧
      after.monthly.get? period.month = some row := by
  have found : ledger.monthly.get? period.month = some row :=
    OrderedMap.get?_eq_some.mpr (latest_mem latest)
  cases tidied with
  | inl same => exact same ▸ ⟨current, latest, found⟩
  | inr cleaned => exact cleaned ▸ current.cleanup inside recent found

/-! The two writers. -/

/-- The call finds no stored counter above its own. -/
def forward (target : Target) (ledger : Ledger) (report : Report) : Bool :=
  match target.trafficEnabled, validCounters report.counters with
  | true, some raw => decide (∀ direction,
      ((latestLast ledger.latest direction).all fun last : Nat =>
        decide ((last : ℚ) ≤ raw direction)) = true)
  | _, _ => true

theorem forward_le {report : Report} {raw : Direction → ℚ} (enabled : target.trafficEnabled = true)
    (valid : validCounters report.counters = some raw) (ahead : forward target ledger report = true)
    {direction : Direction} {last : Nat} (stored : last ∈ latestLast ledger.latest direction) :
    last ≤ ⌊raw direction⌋₊ := by
  simp only [forward, enabled, valid] at ahead
  have reached := of_decide_eq_true ahead direction
  rw [Option.mem_def.mp stored, Option.all_some, decide_eq_true_eq] at reached
  exact Nat.le_floor reached

theorem enabled_of_written {report : Report}
    (written : (persistAgentTraffic env (some target) report ledger).2 = true) :
    target.trafficEnabled = true := by
  cases enabled : target.trafficEnabled with
  | true => rfl
  | false => simp [persistAgentTraffic, trafficSettingsFromTarget, enabled] at written

/-- A call of `persistAgentTraffic`, in whatever order, leaves the period current; a report that is
written replaces the counters, and its increments are credited. -/
theorem current_persist {report : Report} (current : Current env target period ledger)
    (inside : periodOf env target report.ts = period) :
    Current env target period (persistAgentTraffic env (some target) report ledger).1 ∧
      (persistAgentTraffic env (some target) report ledger = (ledger, false) ∨
        ∃ raw, validCounters report.counters = some raw ∧
          (persistAgentTraffic env (some target) report ledger).2 = true ∧ ∀ direction,
            latestLast (persistAgentTraffic env (some target) report ledger).1.latest direction =
                some ⌊raw direction⌋₊ ∧
              (persistAgentTraffic env (some target) report ledger).1.monthlyBytes period.month
                  direction =
                ledger.monthlyBytes period.month direction +
                  increment (latestLast ledger.latest direction) ⌊raw direction⌋₊) := by
  rcases persistAgentTraffic_cases env target report ledger with
    skipped | ⟨raw, written, result, valid, done, tidied, write⟩
  · rw [skipped]
    exact ⟨current, Or.inl rfl⟩
  rw [done]
  rw [inside] at write
  -- Both batches store one row over the days they leave, with the counters of the report.
  obtain ⟨row, monthly, recent, last, bytes, days⟩ : ∃ row : MonthlyRow,
      written.monthly = ledger.monthly.set period.month row ∧ report.ts ≤ row.updatedAt ∧
      (∀ direction, row.last direction = some ⌊raw direction⌋₊) ∧
      (∀ direction, row.bytes direction = ledger.monthlyBytes period.month direction +
        increment (latestLast ledger.latest direction) ⌊raw direction⌋₊) ∧
      ∀ direction, row.bytes direction = booked written period row direction := by
    have today := today_mem_period env target report.ts
    rw [inside] at today
    rcases write with ⟨stored, found, rfl⟩ | ⟨absent, rfl⟩
    · refine ⟨_, rfl, le_refl _, fun _ => rfl, fun direction => ?_, fun direction => ?_⟩
      · rw [monthlyBytes_of_get? found, current.latest found]
        rfl
      · have before := current.booked direction
        rw [monthlyBytes_of_get? found, current.latest found, bookedBefore_row] at before
        have added := booked_planUpdate raw found rfl today direction
        rw [commit_planUpdate found rfl] at added
        rw [updatedLedger, added, ← before]
        rfl
    · refine ⟨_, rfl, le_max_left _ _, fun _ => rfl, fun direction => ?_, fun direction => ?_⟩
      · rw [current.booked direction]
        rfl
      · have guarded : ∀ entry ∈ ledger.latest, ledger.matches entry.1 entry.2.guard = true := by
          intro entry newest
          simp [Ledger.matches, OrderedMap.get?_eq_some.mpr (latest_mem newest)]
        have added := booked_planInsert raw absent guarded today
          (ledger.dailyTrafficSum period.periodStart period.periodEnd) direction
        rw [commit_planInsert _ absent] at added
        rw [openedLedger, added]
        rfl
  obtain ⟨kept, newest⟩ := current_of_written current inside recent monthly days
  obtain ⟨after, latest, found⟩ := current_tidied kept newest inside recent tidied
  refine ⟨after, Or.inr ⟨raw, valid, rfl, fun direction => ⟨?_, ?_⟩⟩⟩
  · rw [latest]
    exact last direction
  · rw [monthlyBytes_of_get? found, bytes]

theorem gains_persist {report : Report} (current : Current env target period ledger)
    (inside : periodOf env target report.ts = period)
    (ahead : forward target ledger report = true) (direction : Direction) :
    Gains period.month (some (report.reading direction)) direction ledger
      (persistAgentTraffic env (some target) report ledger).1 := by
  cases (current_persist current inside).2 with
  | inl skipped =>
      rw [skipped]
      exact Or.inl ⟨rfl, rfl⟩
  | inr done =>
      obtain ⟨raw, valid, written, stored⟩ := done
      have reading : report.reading direction = ⌊raw direction⌋₊ := by
        simp only [Report.reading, valid]
      refine Or.inr ⟨⌊raw direction⌋₊, congrArg some reading, (stored direction).1, ?_,
        (stored direction).2⟩
      exact fun _ last => forward_le (enabled_of_written written) valid ahead last

/-- A period that opens later than the last accepted report is current before it opens. -/
theorem Settled.current_later {next : Int} (settled : Settled env target ledger ts row)
    (later : (periodOf env target ts).month < (periodOf env target next).month) :
    Current env target (periodOf env target next) ledger := by
  have before (time : Int) (inside : periodOf env target time = periodOf env target next) :
      ts < time := by
    by_contra reached
    have back : (periodOf env target time).month ≤ (periodOf env target ts).month :=
      periodStart_mono env _ (not_lt.mp reached)
    rw [inside] at back
    exact absurd later (not_lt.mpr back)
  have absent : ledger.monthly.get? (periodOf env target next).month = none := by
    cases found : ledger.monthly.get? (periodOf env target next).month with
    | none => rfl
    | some stored =>
        have same := (settled.current (before next rfl).le found).1
        rw [same] at later
        exact absurd later (lt_irrefl _)
  refine ⟨?_, ?_, ?_⟩
  · intro entry member _ time inside
    cases settled.older entry member with
    | inl newest =>
        rw [newest, settled.updatedAt]
        exact before time inside
    | inr earlier => exact earlier.2.trans (before time inside)
  · intro stored found
    rw [absent] at found
    cases found
  · intro direction
    have gap := day_before_next_period (before next rfl).le later
    have unbooked : ledger.dailyTrafficSum (periodOf env target next).periodStart
        (periodOf env target next).periodEnd direction = 0 := by
      apply OrderedMap.total_eq_zero
      intro entry member
      have earlier := (settled.days entry member).trans_lt gap
      simp [dailyWeight, earlier.not_ge]
    simp [Ledger.monthlyBytes, absent, bookedBefore, unbooked, settled.latest, carried, activeBytes,
      dayInTrafficPeriod, settled.activeDay, gap.not_ge]

theorem current_empty (env : Env) (target : Target) (period : TrafficPeriod) :
    Current env target period .empty := by
  refine ⟨?_, ?_, fun _ => rfl⟩
  · intro entry member
    cases member
  · intro row found
    cases found

/-- What a rebuild credits above the booked days. -/
def pendingBytes (period : TrafficPeriod) (latest : Option (Int × MonthlyRow))
    (metric : Option MetricRow) (direction : Direction) : Nat :=
  if dayInTrafficPeriod (latest.bind fun entry => entry.2.activeDay) period then
    (metric.map fun state =>
      rawTrafficDelta (state.net direction) (latestLast latest direction)).getD 0
  else 0

section Rebuilt

variable {latest : Option (Int × MonthlyRow)} {daily : Direction → Nat}
  {metric : Option MetricRow} {direction : Direction}

theorem bytes_rebuiltRow : (rebuiltRow env period latest daily metric ts).bytes direction =
    daily direction + carried period latest direction +
      pendingBytes period latest metric direction := by
  simp only [rebuiltRow, carried, activeBytes, pendingBytes, latestLast]
  cases latest with
  | none => simp [dayInTrafficPeriod]
  | some entry =>
      simp only [Option.bind_some, Option.map_some, Option.getD_some]
      split
      · rw [Nat.add_assoc, Option.map_map]
        rfl
      · rfl

/-- A rebuilt row is booked in the finished days and its own active day. -/
theorem booked_rebuiltRow : booked ⟨ledger.monthly.set period.month row, ledger.daily⟩ period
      (rebuiltRow env period latest
        (ledger.dailyTrafficSum period.periodStart period.periodEnd) metric ts) direction =
    (rebuiltRow env period latest
      (ledger.dailyTrafficSum period.periodStart period.periodEnd) metric ts).bytes direction := by
  simp only [booked, activeBytes, rebuiltRow, Ledger.dailyTrafficSum]
  congr 1
  by_cases active : dayInTrafficPeriod (latest.bind fun entry => entry.2.activeDay) period = true
  · cases day : latest.bind fun entry => entry.2.activeDay with
    | none => simp [day, dayInTrafficPeriod] at active
    | some today =>
        rw [day] at active
        simp only [Option.some_or, active, if_true]
  · simp only [active, Bool.false_eq_true, if_false, ite_self]

variable (env ts daily) in
theorem last_of_pending (pending : 0 < pendingBytes period latest metric direction) :
    ∃ state ∈ metric, (rebuiltRow env period latest daily metric ts).last direction =
        some ⌊state.net direction⌋₊ ∧
      (∀ last ∈ latestLast latest direction, last ≤ ⌊state.net direction⌋₊) ∧
      pendingBytes period latest metric direction =
        increment (latestLast latest direction) ⌊state.net direction⌋₊ := by
  have positive := pending
  simp only [pendingBytes] at pending
  split at pending
  case isFalse => exact absurd pending (lt_irrefl 0)
  rename_i active
  cases metric with
  | none => exact absurd pending (lt_irrefl 0)
  | some state =>
      simp only [Option.map_some, Option.getD_some] at pending
      have amount : pendingBytes period latest (some state) direction =
          rawTrafficDelta (state.net direction) (latestLast latest direction) := by
        simp only [pendingBytes, active, if_true, Option.map_some, Option.getD_some]
      refine ⟨state, rfl, ?_, ?_, amount.trans (rawTrafficDelta_eq _ _)⟩
      · simp only [rebuiltRow, active, if_true, Option.map_some, Option.getD_some]
        exact if_pos pending
      · intro last stored
        rw [Option.mem_def.mp stored, rawTrafficDelta] at pending
        split at pending
        · rename_i reached
          exact Nat.le_floor reached
        · exact absurd pending (lt_irrefl 0)

variable (env ts daily) in
theorem last_of_not_pending (none_ : pendingBytes period latest metric direction = 0) :
    (rebuiltRow env period latest daily metric ts).last direction =
      (latestLast latest direction).or (metric.map fun state => ⌊state.net direction⌋₊) := by
  have same : (rebuiltRow env period latest daily metric ts).last direction =
      if 0 < pendingBytes period latest metric direction then
        metric.map fun state => ⌊state.net direction⌋₊
      else (latestLast latest direction).or (metric.map fun state => ⌊state.net direction⌋₊) := by
    simp only [rebuiltRow, pendingBytes, latestLast, Option.map_map]
    rfl
  rw [same, none_, if_neg (lt_irrefl 0)]

end Rebuilt

theorem current_rebuild {d1Metric buffered : Option MetricRow}
    (current : Current env target period ledger) (inside : periodOf env target ts = period) :
    Current env target period
        (rebuildAgentTrafficPeriod env (some target) d1Metric buffered ts ledger) ∧
      ∀ direction, Gains period.month
        ((if env.bufferedAgentState then newerAgentMetricRow d1Metric buffered
          else d1Metric).map fun state => ⌊state.net direction⌋₊) direction ledger
        (rebuildAgentTrafficPeriod env (some target) d1Metric buffered ts ledger) := by
  unfold rebuildAgentTrafficPeriod
  dsimp only
  rw [show (trafficSettingsFromTarget (some target) env ts).period = period from inside]
  generalize (if env.bufferedAgentState then newerAgentMetricRow d1Metric buffered
    else d1Metric) = metric
  have recent : ts ≤ (rebuiltRow env period ledger.latest
      (ledger.dailyTrafficSum period.periodStart period.periodEnd) metric ts).updatedAt :=
    le_max_left _ _
  obtain ⟨after, latest⟩ := current_of_written current inside recent rfl fun _ =>
    booked_rebuiltRow.symm
  refine ⟨after, fun direction => ?_⟩
  have bytes := monthlyBytes_of_get? (OrderedMap.get?_eq_some.mpr (latest_mem latest)) direction
  rw [bytes_rebuiltRow] at bytes
  have before := current.booked direction
  rw [bookedBefore] at before
  unfold Gains
  rw [latest, bytes, ← before]
  by_cases pending : 0 < pendingBytes period ledger.latest metric direction
  · obtain ⟨state, known, last, above, amount⟩ := last_of_pending env ts
      (ledger.dailyTrafficSum period.periodStart period.periodEnd) pending
    apply Or.inr
    refine ⟨_, ?_, last, above, ?_⟩
    · rw [Option.mem_def.mp known]
      rfl
    · rw [amount]
  · have nothing : pendingBytes period ledger.latest metric direction = 0 := by omega
    have last := last_of_not_pending env ts
      (ledger.dailyTrafficSum period.periodStart period.periodEnd) nothing
    have stored : latestLast (some (period.month, rebuiltRow env period ledger.latest
        (ledger.dailyTrafficSum period.periodStart period.periodEnd) metric ts)) direction =
        (latestLast ledger.latest direction).or (metric.map fun state => ⌊state.net direction⌋₊) :=
      last
    rw [nothing, stored]
    cases previous : latestLast ledger.latest direction with
    | some before => exact Or.inl ⟨rfl, rfl⟩
    | none =>
        cases metric with
        | none => exact Or.inl ⟨rfl, rfl⟩
        | some state =>
            apply Or.inr
            refine ⟨_, rfl, rfl, ?_, rfl⟩
            intro last known
            cases known

end Current

end NieSla.Traffic
