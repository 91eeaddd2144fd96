import NieSla.Traffic.Ledger

/-! What the two batches of `persistAgentTraffic` book. A byte of a period is booked
twice, in the monthly row and either in a finished day or in the active day; the
booked days of a row are the second account. -/
namespace NieSla.Traffic

open Counter

/-- A delta is the increment of the stored counter. -/
theorem rawTrafficDelta_eq (raw : ℚ) (previous : Option Nat) :
    rawTrafficDelta raw previous = increment previous ⌊raw⌋₊ := by
  cases previous with
  | none => rfl
  | some last =>
      simp only [rawTrafficDelta, increment]
      split
      · exact Nat.floor_sub_natCast raw last
      · rename_i fallen
        have := Nat.floor_le_of_le (not_le.mp fallen).le
        omega

/-! Finished days. -/

theorem dailyWeight_addDaily (daily : OrderedMap Int DailyRow) (day : Int)
    (bytes : Direction → Nat) (ts start stop : Int) (direction : Direction) :
    (addDaily daily day bytes ts).total (dailyWeight start stop direction) =
      daily.total (dailyWeight start stop direction) +
        if start ≤ day ∧ day < stop then bytes direction else 0 := by
  unfold addDaily
  cases found : daily.get? day with
  | none =>
      have set := daily.total_set (dailyWeight start stop direction) day ⟨bytes, ts⟩
      simp only [OrderedMap.weightAt, found, Option.map_none, Option.getD_none] at set
      simpa [dailyWeight] using set
  | some row =>
      have set := daily.total_set (dailyWeight start stop direction) day
        ⟨fun direction => row.bytes direction + bytes direction, ts⟩
      simp only [OrderedMap.weightAt, found, Option.map_some, Option.getD_some] at set
      unfold dailyWeight at *
      split at set <;> simp_all
      all_goals omega

theorem addDaily_get?_of_ne (daily : OrderedMap Int DailyRow) {day other : Int}
    (bytes : Direction → Nat) (ts : Int) (ne : other ≠ day) :
    (addDaily daily day bytes ts).get? other = daily.get? other := by
  unfold addDaily
  split <;> exact OrderedMap.get?_set_of_ne _ _ ne

/-- What the active day of a row holds for a period. -/
def activeBytes (period : TrafficPeriod) (row : MonthlyRow) (direction : Direction) : Nat :=
  if dayInTrafficPeriod row.activeDay period then row.dayBytes direction else 0

/-- The booked days of a row: the finished days of the period and its active day. -/
def booked (ledger : Ledger) (period : TrafficPeriod) (row : MonthlyRow)
    (direction : Direction) : Nat :=
  ledger.dailyTrafficSum period.periodStart period.periodEnd direction +
    activeBytes period row direction

/-- The finished day of a row adds its active bytes to the period's days when its
statement finds the row it was made from. -/
theorem dailyTrafficSum_finalize {ledger : Ledger} {month : Int} {row : MonthlyRow}
    (guarded : ledger.matches month row.guard = true) (ts : Int) (period : TrafficPeriod)
    (direction : Direction) :
    (ledger.finalize (finalizeTrafficDayStatement month row ts)).dailyTrafficSum
        period.periodStart period.periodEnd direction =
      ledger.dailyTrafficSum period.periodStart period.periodEnd direction +
        activeBytes period row direction := by
  unfold finalizeTrafficDayStatement activeBytes
  cases row.activeDay with
  | none => simp [dayInTrafficPeriod]
  | some day =>
      simp only
      by_cases idle : row.dayBytes .rx = 0 ∧ row.dayBytes .tx = 0
      · have : row.dayBytes direction = 0 := by cases direction <;> simp [idle]
        simp [idle, this]
      · simp only [idle, ↓reduceIte, Ledger.finalize, guarded, Ledger.dailyTrafficSum,
          dailyWeight_addDaily, dayInTrafficPeriod, Option.any_some, Bool.and_eq_true,
          decide_eq_true_eq]

@[simp] theorem monthly_finalize (ledger : Ledger) (statement : Option Finalize) :
    (ledger.finalize statement).monthly = ledger.monthly := by
  cases statement with
  | none => rfl
  | some statement =>
      by_cases guarded : ledger.matches statement.month statement.guard = true <;>
        simp [Ledger.finalize, guarded]

theorem mem_addDaily {daily : OrderedMap Int DailyRow} {day : Int} {bytes : Direction → Nat}
    {ts : Int} {entry : Int × DailyRow} (member : entry ∈ (addDaily daily day bytes ts).entries) :
    entry.1 = day ∨ entry ∈ daily.entries := by
  unfold addDaily at member
  split at member
  all_goals
    rcases (OrderedMap.mem_set_entries _ _ _ _).mp member with rfl | ⟨_, kept⟩
    · exact .inl rfl
    · exact .inr kept

theorem day_of_finalizeTrafficDayStatement {month : Int} {row : MonthlyRow} {ts : Int}
    {statement : Finalize} (made : finalizeTrafficDayStatement month row ts = some statement) :
    row.activeDay = some statement.day := by
  unfold finalizeTrafficDayStatement at made
  cases active : row.activeDay with
  | none => simp [active] at made
  | some day =>
      simp only [active, Option.ite_none_left_eq_some, Option.some.injEq] at made
      rw [← made.2]

/-- A statement adds its own day at most. -/
theorem mem_daily_finalize {ledger : Ledger} {statement : Option Finalize}
    {entry : Int × DailyRow} (member : entry ∈ (ledger.finalize statement).daily.entries) :
    (∃ made, statement = some made ∧ entry.1 = made.day) ∨ entry ∈ ledger.daily.entries := by
  cases statement with
  | none => exact .inr member
  | some made =>
      simp only [Ledger.finalize] at member
      split at member
      · exact (mem_addDaily member).imp_left fun same => ⟨made, rfl, same⟩
      · exact .inr member

/-! The batch over the row of the period. -/

section Update

variable {env : Env} {month : Int} {ledger : Ledger} {row stored : MonthlyRow}
  {raw : Direction → ℚ} {ts : Int}

/-- The row that the batch installs over a stored row. -/
def updatedRow (env : Env) (row stored : MonthlyRow) (raw : Direction → ℚ) (ts : Int) :
    MonthlyRow where
  bytes := fun direction =>
    stored.bytes direction + increment (row.last direction) ⌊raw direction⌋₊
  last := fun direction => some ⌊raw direction⌋₊
  activeDay := some (dayFromSec ts env)
  dayBytes := fun direction =>
    (if row.activeDay = some (dayFromSec ts env) then row.dayBytes direction else 0) +
      increment (row.last direction) ⌊raw direction⌋₊
  updatedAt := ts

private theorem updated_planUpdate (env : Env) (month : Int) (row stored : MonthlyRow)
    (raw : Direction → ℚ) (ts : Int) :
    (match (planUpdate env month row raw ts).install with
      | .update _ delta new _ => stored.updated delta new
      | .insert _ new => new) = updatedRow env row stored raw ts := by
  simp only [planUpdate, MonthlyRow.updated, updatedRow, rawTrafficDelta_eq, MonthlyRow.mk.injEq,
    true_and, and_true]
  funext direction
  cases row.activeDay with
  | none => simp
  | some day => by_cases same : day = dayFromSec ts env <;> simp [same]

/-- The finished days after the batch. -/
def finishedDays (env : Env) (month : Int) (ledger : Ledger) (row : MonthlyRow) (ts : Int) :
    OrderedMap Int DailyRow :=
  (ledger.finalize (if row.activeDay.any fun day => day ≠ dayFromSec ts env then
    finalizeTrafficDayStatement month row ts else none)).daily

/-- The only day that the batch may add is the active day of the row. -/
theorem day_mem_finishedDays {entry : Int × DailyRow}
    (member : entry ∈ (finishedDays env month ledger row ts).entries) :
    row.activeDay = some entry.1 ∨ entry ∈ ledger.daily.entries := by
  refine (mem_daily_finalize member).imp_left ?_
  rintro ⟨made, statement, same⟩
  split at statement
  · rw [same, day_of_finalizeTrafficDayStatement statement]
  · cases statement

/-- A batch whose row is still in place installs its row. -/
theorem commit_planUpdate (found : ledger.monthly.get? month = some stored)
    (fresh : stored.guard = row.guard) :
    ledger.commit (planUpdate env month row raw ts) =
      (⟨ledger.monthly.set month (updatedRow env row stored raw ts),
        finishedDays env month ledger row ts⟩, true) := by
  have installed := updated_planUpdate env month row stored raw ts
  simp only [planUpdate] at installed
  unfold Ledger.commit planUpdate finishedDays
  simp only [Ledger.install, monthly_finalize, found, fresh, ↓reduceIte, Option.getD_some,
    installed]

/-- A batch whose row is gone changes nothing. -/
theorem commit_planUpdate_of_stale
    (stale : ∀ stored, ledger.monthly.get? month = some stored → stored.guard ≠ row.guard) :
    ledger.commit (planUpdate env month row raw ts) = (ledger, false) := by
  have mismatch : ledger.matches month row.guard = false := by
    unfold Ledger.matches
    cases found : ledger.monthly.get? month with
    | none => rfl
    | some stored => simpa using stale stored found
  have unfinished : ledger.finalize (planUpdate env month row raw ts).finalize = ledger := by
    simp only [planUpdate, finalizeTrafficDayStatement]
    cases row.activeDay with
    | none => rfl
    | some day =>
        simp only
        split
        · split
          · rfl
          · simp [Ledger.finalize, mismatch]
        · rfl
  unfold Ledger.commit
  simp only [unfinished]
  simp only [planUpdate, Ledger.install]
  cases found : ledger.monthly.get? month with
  | none => rfl
  | some stored => simp [stale stored found]

/-- The batch books the increment once in the monthly row and once in the days. -/
theorem booked_planUpdate (raw : Direction → ℚ) {period : TrafficPeriod}
    (found : ledger.monthly.get? month = some stored) (fresh : stored.guard = row.guard)
    (inside : dayInTrafficPeriod (some (dayFromSec ts env)) period = true)
    (direction : Direction) :
    booked (ledger.commit (planUpdate env month row raw ts)).1 period
        (updatedRow env row stored raw ts) direction =
      booked ledger period row direction +
        increment (row.last direction) ⌊raw direction⌋₊ := by
  have guarded : ledger.matches month row.guard = true := by
    simp [Ledger.matches, found, fresh]
  rw [commit_planUpdate found fresh]
  simp only [booked, activeBytes, updatedRow, inside, ↓reduceIte]
  have finished := dailyTrafficSum_finalize guarded ts period direction
  unfold finishedDays Ledger.dailyTrafficSum activeBytes at *
  cases active : row.activeDay with
  | none => simp [dayInTrafficPeriod]
  | some day =>
      by_cases same : day = dayFromSec ts env
      · subst same
        simp [inside, Nat.add_assoc]
      · rw [active] at finished
        have other : ¬ some day = some (dayFromSec ts env) := by simpa using same
        simp only [Option.any_some, same, ne_eq, not_false_eq_true, decide_true, ↓reduceIte,
          finished, other]
        omega

end Update

/-! The batch that opens a period. -/

section Insert

variable {env : Env} {ledger : Ledger} {period : TrafficPeriod}
  {latest : Option (Int × MonthlyRow)} {raw : Direction → ℚ} {ts : Int}

/-- The counters that the latest row of the agent stored. -/
def latestLast (latest : Option (Int × MonthlyRow)) (direction : Direction) : Option Nat :=
  latest.bind fun entry => entry.2.last direction

/-- What the latest row carries into the period. -/
def carried (period : TrafficPeriod) (latest : Option (Int × MonthlyRow))
    (direction : Direction) : Nat :=
  (latest.map fun entry => activeBytes period entry.2 direction).getD 0

/-- The row that opens the period over the finished days `daily`. -/
def openedRow (env : Env) (period : TrafficPeriod) (latest : Option (Int × MonthlyRow))
    (daily : Direction → Nat) (raw : Direction → ℚ) (ts : Int) : MonthlyRow where
  bytes := fun direction => daily direction + carried period latest direction +
    increment (latestLast latest direction) ⌊raw direction⌋₊
  last := fun direction => some ⌊raw direction⌋₊
  activeDay := some (dayFromSec ts env)
  dayBytes := fun direction =>
    (if (latest.bind fun entry => entry.2.activeDay) = some (dayFromSec ts env) then
      carried period latest direction else 0) +
      increment (latestLast latest direction) ⌊raw direction⌋₊
  updatedAt := max ts ((latest.map fun entry => entry.2.updatedAt + 1).getD 0)

private theorem install_planInsert (daily : Direction → Nat) :
    (planInsert env period latest daily raw ts).install =
      .insert period.month (openedRow env period latest daily raw ts) := by
  cases latest with
  | none =>
      simp only [planInsert, openedRow, carried, latestLast, rawTrafficDelta_eq]
      simp [dayInTrafficPeriod]
  | some entry =>
      simp only [planInsert, openedRow, carried, latestLast, rawTrafficDelta_eq, activeBytes,
        Option.bind_some, Option.map_some, Option.getD_some, Install.insert.injEq, true_and,
        MonthlyRow.mk.injEq, and_true]
      funext direction
      split <;> simp

/-- The finished days after the batch. -/
def openedDays (env : Env) (latest : Option (Int × MonthlyRow)) (ledger : Ledger) (ts : Int) :
    OrderedMap Int DailyRow :=
  match latest with
  | none => ledger.daily
  | some entry => finishedDays env entry.1 ledger entry.2 ts

/-- The batch opens the period where the period has no row. -/
theorem commit_planInsert (daily : Direction → Nat)
    (absent : ledger.monthly.get? period.month = none) :
    ledger.commit (planInsert env period latest daily raw ts) =
      (⟨ledger.monthly.set period.month (openedRow env period latest daily raw ts),
        openedDays env latest ledger ts⟩, true) := by
  unfold Ledger.commit
  simp only [install_planInsert, Ledger.install, monthly_finalize, absent, Option.getD_some]
  cases latest <;> rfl

/-- Where the period has a row the batch is rolled back. -/
theorem commit_planInsert_of_conflict (daily : Direction → Nat) {stored : MonthlyRow}
    (found : ledger.monthly.get? period.month = some stored) :
    ledger.commit (planInsert env period latest daily raw ts) = (ledger, false) := by
  unfold Ledger.commit
  simp only [install_planInsert, Ledger.install, monthly_finalize, found, Option.getD_none]

/-- The days booked for the period before its row is opened. -/
def bookedBefore (ledger : Ledger) (period : TrafficPeriod)
    (latest : Option (Int × MonthlyRow)) (direction : Direction) : Nat :=
  ledger.dailyTrafficSum period.periodStart period.periodEnd direction +
    carried period latest direction

/-- Opening a period books its bytes once in the monthly row and once in the days. -/
theorem booked_planInsert (raw : Direction → ℚ) (absent : ledger.monthly.get? period.month = none)
    (stored : ∀ entry ∈ latest, ledger.matches entry.1 entry.2.guard = true)
    (inside : dayInTrafficPeriod (some (dayFromSec ts env)) period = true)
    (daily : Direction → Nat) (direction : Direction) :
    booked (ledger.commit (planInsert env period latest daily raw ts)).1 period
        (openedRow env period latest daily raw ts) direction =
      bookedBefore ledger period latest direction +
        increment (latestLast latest direction) ⌊raw direction⌋₊ := by
  rw [commit_planInsert daily absent]
  simp only [booked, bookedBefore, activeBytes, openedRow, inside, ↓reduceIte]
  cases latest with
  | none => simp [openedDays, carried, Ledger.dailyTrafficSum]
  | some entry =>
      have finished := dailyTrafficSum_finalize (stored entry rfl) ts period direction
      unfold openedDays finishedDays carried Ledger.dailyTrafficSum activeBytes at *
      cases active : entry.2.activeDay with
      | none => simp [dayInTrafficPeriod, active]
      | some day =>
          rw [active] at finished
          by_cases same : day = dayFromSec ts env
          · subst same
            simp [active, inside, Nat.add_assoc]
          · have other : ¬ some day = some (dayFromSec ts env) := by simpa using same
            simp only [Option.any_some, same, ne_eq, not_false_eq_true, decide_true, ↓reduceIte,
              finished, other, Option.bind_some, active, Option.map_some, Option.getD_some]
            omega

end Insert

end NieSla.Traffic
