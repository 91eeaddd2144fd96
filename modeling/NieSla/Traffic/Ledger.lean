import NieSla.Lib.Counter
import NieSla.Lib.OrderedMap
import NieSla.Util.Day

/-! The traffic ledger of one agent: the rows of `agent_traffic_monthly` and
`agent_traffic_daily`, and `persistAgentTraffic` over them. -/
namespace NieSla.Traffic

open OrderedMap (empty)

/-- A pair of columns `rx_…`, `tx_…` is one column indexed by the direction. -/
inductive Direction where
  | rx
  | tx
deriving DecidableEq

instance : Fintype Direction := ⟨{.rx, .tx}, by rintro (_ | _) <;> simp⟩

/-- A row of `agent_traffic_monthly`, kept under its `month`. -/
structure MonthlyRow where
  bytes : Direction → Nat
  last : Direction → Option Nat
  activeDay : Option Int
  dayBytes : Direction → Nat
  updatedAt : Int

instance : DecidableEq MonthlyRow := fun first second =>
  decidable_of_iff (first.bytes = second.bytes ∧ first.last = second.last ∧
      first.activeDay = second.activeDay ∧ first.dayBytes = second.dayBytes ∧
      first.updatedAt = second.updatedAt) (by
    cases first
    cases second
    simp)

/-- A row of `agent_traffic_daily`, kept under its `day`. -/
structure DailyRow where
  bytes : Direction → Nat
  updatedAt : Int

structure Ledger where
  monthly : OrderedMap Int MonthlyRow
  daily : OrderedMap Int DailyRow

def Ledger.empty : Ledger := ⟨OrderedMap.empty, OrderedMap.empty⟩

/-! Settings. -/

structure Target where
  trafficEnabled : Bool
  trafficResetDay : Option JsNumber
  expiresAt : Int

def normalizeTrafficResetDay : JsNumber → Int
  | .finite value => max 1 (min 31 ⌊value⌋)
  | _ => 1

def trafficResetDayFromTarget (target : Target) (env : Env) : Int :=
  match target.trafficResetDay with
  | some resetDay => normalizeTrafficResetDay resetDay
  | none =>
      if 0 < target.expiresAt then
        normalizeTrafficResetDay (.finite (localDateParts target.expiresAt env).day)
      else 1

structure Settings where
  enabled : Bool
  period : TrafficPeriod
deriving DecidableEq

/-- `trafficSettingsFromTarget`; an agent without a target row has traffic disabled. -/
def trafficSettingsFromTarget (target : Option Target) (env : Env) (ts : Int) : Settings :=
  match target with
  | some target =>
      ⟨target.trafficEnabled,
        trafficPeriodFromResetDay env (.finite (trafficResetDayFromTarget target env)) ts⟩
  | none => ⟨false, trafficPeriodFromResetDay env (.finite 1) ts⟩

/-! Reports. -/

/-- The byte counters of a report and the time it is persisted for. -/
structure Report where
  counters : Direction → JsNumber
  ts : Int
  ts_pos : 0 < ts

def maxTrafficCounterBytes : ℚ := 1000000000000000

def validCounter : JsNumber → Option ℚ
  | .finite value => if 0 ≤ value ∧ value ≤ maxTrafficCounterBytes then some value else none
  | _ => none

/-- Both counters, when both are finite, not negative and not beyond the maximum. -/
def validCounters (counters : Direction → JsNumber) : Option (Direction → ℚ) :=
  match validCounter (counters .rx), validCounter (counters .tx) with
  | some rx, some tx => some fun | .rx => rx | .tx => tx
  | _, _ => none

/-- `rawTrafficDelta`: a missing baseline only adopts the counter. -/
def rawTrafficDelta (raw : ℚ) : Option Nat → Nat
  | none => 0
  | some last => if (last : ℚ) ≤ raw then ⌊raw - last⌋₊ else 0

def countersContinuous (latest : Option MonthlyRow) (raw : Direction → ℚ) : Bool :=
  match latest with
  | none => false
  | some row => decide (∀ direction,
      ((row.last direction).any fun last : Nat => decide ((last : ℚ) ≤ raw direction)) = true)

def dayInTrafficPeriod (day : Option Int) (period : TrafficPeriod) : Bool :=
  day.any fun day => period.periodStart ≤ day && day < period.periodEnd

def flushInterval (env : Env) : Int :=
  clamp (configured env.trafficPersistIntervalSec 1800) 300 3600

/-! Statements. -/

/-- The earlier of two rows in `ORDER BY updated_at DESC, month DESC`. -/
def newer (best : Option (Int × MonthlyRow)) (entry : Int × MonthlyRow) :
    Option (Int × MonthlyRow) :=
  match best with
  | none => some entry
  | some found =>
      if found.2.updatedAt < entry.2.updatedAt ∨
          (found.2.updatedAt = entry.2.updatedAt ∧ found.1 < entry.1) then
        some entry
      else some found

/-- `SELECT * … ORDER BY updated_at DESC, month DESC LIMIT 1`, with its month. -/
def Ledger.latest (ledger : Ledger) : Option (Int × MonthlyRow) :=
  ledger.monthly.entries.foldl newer none

def dailyWeight (start stop : Int) (direction : Direction) (day : Int) (row : DailyRow) : Nat :=
  if start ≤ day ∧ day < stop then row.bytes direction else 0

/-- `dailyTrafficSum`: the finished days from `start` up to `stop`. -/
def Ledger.dailyTrafficSum (ledger : Ledger) (start stop : Int) (direction : Direction) : Nat :=
  ledger.daily.total (dailyWeight start stop direction)

/-- The columns that a guarded statement compares with `IS`. -/
structure Guard where
  activeDay : Option Int
  last : Direction → Option Nat

instance : DecidableEq Guard := fun first second =>
  decidable_of_iff (first.activeDay = second.activeDay ∧ first.last = second.last) (by
    cases first
    cases second
    simp)

def MonthlyRow.guard (row : MonthlyRow) : Guard := ⟨row.activeDay, row.last⟩

def Ledger.matches (ledger : Ledger) (month : Int) (guard : Guard) : Bool :=
  (ledger.monthly.get? month).any fun row => row.guard = guard

/-- The statement of `finalizeTrafficDayStatement`. -/
structure Finalize where
  month : Int
  day : Int
  bytes : Direction → Nat
  ts : Int
  guard : Guard

/-- The `UPDATE` or `INSERT` of `agent_traffic_monthly` that ends the batch. -/
inductive Install where
  | update (month : Int) (delta : Direction → Nat) (row : MonthlyRow) (guard : Guard)
  | insert (month : Int) (row : MonthlyRow)

structure Batch where
  finalize : Option Finalize
  install : Install

def finalizeTrafficDayStatement (month : Int) (row : MonthlyRow) (ts : Int) : Option Finalize :=
  match row.activeDay with
  | none => none
  | some day =>
      if row.dayBytes .rx = 0 ∧ row.dayBytes .tx = 0 then none
      else some ⟨month, day, row.dayBytes, ts, row.guard⟩

/-- The upsert of a day adds to the bytes the day already holds. -/
def addDaily (daily : OrderedMap Int DailyRow) (day : Int) (bytes : Direction → Nat) (ts : Int) :
    OrderedMap Int DailyRow :=
  match daily.get? day with
  | none => daily.set day ⟨bytes, ts⟩
  | some row => daily.set day ⟨fun direction => row.bytes direction + bytes direction, ts⟩

def Ledger.finalize (ledger : Ledger) : Option Finalize → Ledger
  | none => ledger
  | some statement =>
      if ledger.matches statement.month statement.guard then
        { ledger with daily := addDaily ledger.daily statement.day statement.bytes statement.ts }
      else ledger

@[simp] theorem Ledger.finalize_none (ledger : Ledger) : ledger.finalize none = ledger := rfl

/-- `rx_bytes = rx_bytes + ?`, `tx_bytes = tx_bytes + ?`; every other column is replaced. -/
def MonthlyRow.updated (stored : MonthlyRow) (delta : Direction → Nat) (row : MonthlyRow) :
    MonthlyRow :=
  { row with bytes := fun direction => stored.bytes direction + delta direction }

/-- The last statement of the batch: the new ledger and whether a row changed, or `none`
where the primary key rejects the row. -/
def Ledger.install (ledger : Ledger) : Install → Option (Ledger × Bool)
  | .update month delta row guard =>
      match ledger.monthly.get? month with
      | none => some (ledger, false)
      | some stored =>
          if stored.guard = guard then
            some ({ ledger with monthly := ledger.monthly.set month (stored.updated delta row) },
              true)
          else some (ledger, false)
  | .insert month row =>
      match ledger.monthly.get? month with
      | none => some ({ ledger with monthly := ledger.monthly.set month row }, true)
      | some _ => none

/-- The batch as one transaction: a rejected row rolls the finished day back as well. -/
def Ledger.commit (ledger : Ledger) (batch : Batch) : Ledger × Bool :=
  ((ledger.finalize batch.finalize).install batch.install).getD (ledger, false)

/-- The rows older than 400 days are deleted when a day begins. -/
def Ledger.cleanup (ledger : Ledger) (env : Env) (ts : Int) : Ledger :=
  ⟨ledger.monthly.filter fun _ row => ts - 400 * 86400 ≤ row.updatedAt,
    ledger.daily.filter fun day _ => dayFromSec (ts - 400 * 86400) env ≤ day⟩

/-! `persistAgentTraffic`. -/

/-- Counters that continue on the same day are written once per flush interval. -/
def throttled (env : Env) (row : MonthlyRow) (raw : Direction → ℚ) (ts : Int) : Bool :=
  row.activeDay = some (dayFromSec ts env) && countersContinuous (some row) raw &&
    decide (ts - flushInterval env < row.updatedAt)

/-- The batch over the row of the period. -/
def planUpdate (env : Env) (month : Int) (row : MonthlyRow) (raw : Direction → ℚ) (ts : Int) :
    Batch :=
  let today := dayFromSec ts env
  let delta := fun direction => rawTrafficDelta (raw direction) (row.last direction)
  let crossedDay := row.activeDay.any fun day => day ≠ today
  { finalize := if crossedDay then finalizeTrafficDayStatement month row ts else none
    install := .update month delta
      { bytes := row.bytes
        last := fun direction => some ⌊raw direction⌋₊
        activeDay := some today
        dayBytes := fun direction =>
          if crossedDay ∨ row.activeDay = none then delta direction
          else row.dayBytes direction + delta direction
        updatedAt := ts }
      row.guard }

/-- The batch that opens the period, from the latest row of the agent and the finished days
that already lie in the period. -/
def planInsert (env : Env) (period : TrafficPeriod) (latest : Option (Int × MonthlyRow))
    (daily : Direction → Nat) (raw : Direction → ℚ) (ts : Int) : Batch :=
  let today := dayFromSec ts env
  let activeDay := latest.bind fun entry => entry.2.activeDay
  let delta := fun direction =>
    rawTrafficDelta (raw direction) (latest.bind fun entry => entry.2.last direction)
  let carried := fun direction =>
    if dayInTrafficPeriod activeDay period then
      (latest.map fun entry => entry.2.dayBytes direction).getD 0
    else 0
  { finalize := latest.bind fun entry =>
      if entry.2.activeDay.any fun day => day ≠ today then
        finalizeTrafficDayStatement entry.1 entry.2 ts
      else none
    install := .insert period.month
      { bytes := fun direction => daily direction + carried direction + delta direction
        last := fun direction => some ⌊raw direction⌋₊
        activeDay := some today
        dayBytes := fun direction =>
          if activeDay = some today then carried direction + delta direction else delta direction
        updatedAt := max ts ((latest.map fun entry => entry.2.updatedAt + 1).getD 0) } }

/-- A write that begins a day also deletes the old rows. -/
def tidy (env : Env) (ts : Int) (activeDay : Option Int) (outcome : Ledger × Bool) :
    Ledger × Bool :=
  if outcome.2 && activeDay ≠ some (dayFromSec ts env) then
    (outcome.1.cleanup env ts, outcome.2)
  else outcome

/-- `persistAgentTraffic` without interruption: the new ledger and whether a row was written. -/
def persistAgentTraffic (env : Env) (target : Option Target) (report : Report)
    (ledger : Ledger) : Ledger × Bool :=
  let settings := trafficSettingsFromTarget target env report.ts
  let period := settings.period
  match settings.enabled, validCounters report.counters with
  | true, some raw =>
      match ledger.monthly.get? period.month with
      | some row =>
          if throttled env row raw report.ts then (ledger, false)
          else
            tidy env report.ts row.activeDay
              (ledger.commit (planUpdate env period.month row raw report.ts))
      | none =>
          let daily := ledger.dailyTrafficSum period.periodStart period.periodEnd
          tidy env report.ts (ledger.latest.bind fun entry => entry.2.activeDay)
            (ledger.commit (planInsert env period ledger.latest daily raw report.ts))
  | _, _ => (ledger, false)

end NieSla.Traffic
