import NieSla.Traffic.Agreement

/-! Changes of the reset day between the reports of one agent, one operation after the other from an empty
ledger: whether the rebuilt row holds what its days hold, and whether the bytes credited to a day are found
in the finished days once a later day has begun. -/
namespace NieSla.Traffic
open Counter

/-- A target with its ledger, the bytes credited to each day so far, and the time of the last write. -/
structure Books where
  target : Target
  ledger : Ledger
  credited : Int → Direction → Nat
  writtenAt : Option Int

def Books.empty (target : Target) : Books := ⟨target, .empty, fun _ _ => 0, none⟩

inductive Action where
  | report (report : Report)
  | changeResetDay (resetDay : JsNumber) (d1Metric buffered : Option MetricRow) (ts : Int)

def Action.ts : Action → Int
  | .report given => given.ts
  | .changeResetDay _ _ _ ts => ts

def Target.withResetDay (target : Target) (resetDay : JsNumber) : Target :=
  { target with trafficResetDay := some (.finite (normalizeTrafficResetDay resetDay)) }

/-- The bytes that a written report credits, over the row of its period or else the latest row. -/
def reportedBytes (env : Env) (target : Target) (report : Report) (ledger : Ledger)
    (direction : Direction) : Nat :=
  let row := (ledger.monthly.get? (periodOf env target report.ts).month).or (ledger.latest.map Prod.snd)
  ((validCounters report.counters).map fun raw =>
    rawTrafficDelta (raw direction) (row.bind fun row => row.last direction)).getD 0

def credit (credited : Int → Direction → Nat) (day : Option Int) (bytes : Direction → Nat) :
    Int → Direction → Nat :=
  fun other direction => credited other direction + if day = some other then bytes direction else 0

section Step

variable (env : Env)

/-- The state of the agent that a rebuild reads. -/
def latestMetric (d1Metric buffered : Option MetricRow) : Option MetricRow :=
  if env.bufferedAgentState then newerAgentMetricRow d1Metric buffered else d1Metric

/-- A report credits its bytes to its own day, a rebuild to the active day. -/
def Books.step (books : Books) : Action → Books
  | .report report =>
      let written := persistAgentTraffic env (some books.target) report books.ledger
      if written.2 then
        { books with
          ledger := written.1
          credited := credit books.credited (some (dayFromSec report.ts env))
            (reportedBytes env books.target report books.ledger)
          writtenAt := some report.ts }
      else { books with ledger := written.1 }
  | .changeResetDay resetDay d1Metric buffered ts =>
      let target := books.target.withResetDay resetDay
      { target := target
        ledger := rebuildAgentTrafficPeriod env (some target) d1Metric buffered ts books.ledger
        credited := credit books.credited (books.ledger.latest.bind fun entry => entry.2.activeDay)
          (pendingBytes (periodOf env target ts) books.ledger.latest (latestMetric env d1Metric buffered))
        writtenAt := some ts }

/-- The row of the period of the last write holds what its days hold. -/
def Booked (books : Books) : Prop :=
  ∀ ts ∈ books.writtenAt, ∃ row,
    books.ledger.monthly.get? (periodOf env books.target ts).month = some row ∧
      ∀ direction, row.bytes direction =
        booked books.ledger (periodOf env books.target ts) row direction

/-- Each of the days asked for that lies before the active day of that row has in the finished days what was
credited to it. -/
def Finished (asked : Int → Int → Prop) (books : Books) : Prop :=
  ∀ ts ∈ books.writtenAt, ∀ row ∈ books.ledger.monthly.get? (periodOf env books.target ts).month,
    ∀ day ∈ row.activeDay, ∀ earlier < day, asked ts earlier → ∀ direction,
      books.ledger.dailyTrafficSum earlier (earlier + 1) direction = books.credited earlier direction

/-- The days that a write at `ts` does not remove for their age. -/
def Retained (ts day : Int) : Prop := dayFromSec (ts - 400 * 86400) env ≤ day

/-- A rebuild finds the active day of the latest row in the new period, or without bytes; the row that a
report updates is preceded by all rows of other periods. -/
def Regular (books : Books) : Action → Prop
  | .report report =>
      Writes env (some books.target) report books.ledger = true →
        ∀ row ∈ books.ledger.monthly.get? (periodOf env books.target report.ts).month,
        ∀ entry ∈ books.ledger.monthly.entries, entry.1 ≠ (periodOf env books.target report.ts).month →
          Precedes entry ((periodOf env books.target report.ts).month, { row with updatedAt := report.ts })
  | .changeResetDay resetDay _ _ ts =>
      ∀ entry ∈ books.ledger.latest,
        dayInTrafficPeriod entry.2.activeDay (periodOf env (books.target.withResetDay resetDay) ts) = true ∨
          ∀ direction, entry.2.dayBytes direction = 0

instance (books : Books) (action : Action) : Decidable (Regular env books action) :=
  match action with
  | .report report =>
      inferInstanceAs (Decidable (Writes env (some books.target) report books.ledger = true →
        ∀ row ∈ books.ledger.monthly.get? (periodOf env books.target report.ts).month,
        ∀ entry ∈ books.ledger.monthly.entries, entry.1 ≠ (periodOf env books.target report.ts).month →
          Precedes entry ((periodOf env books.target report.ts).month, { row with updatedAt := report.ts })))
  | .changeResetDay resetDay _ _ ts =>
      inferInstanceAs (Decidable (∀ entry ∈ books.ledger.latest,
        dayInTrafficPeriod entry.2.activeDay (periodOf env (books.target.withResetDay resetDay) ts) = true ∨
          ∀ direction, entry.2.dayBytes direction = 0))

end Step

/-! The row of the last write, in every run. -/

/-- The row of the period of `ts` is booked in the days; no row lies in a later period. -/
structure Standing (env : Env) (target : Target) (ledger : Ledger) (ts : Int) (row : MonthlyRow) : Prop where
  found : ledger.monthly.get? (periodOf env target ts).month = some row
  begun : ∀ entry ∈ ledger.monthly.entries, entry.1 ≤ dayFromSec ts env
  booked : ∀ direction, row.bytes direction = booked ledger (periodOf env target ts) row direction

/-- Nothing is written yet, or the row of the last write stands. -/
def Stands (env : Env) (books : Books) (now : Int) : Prop :=
  (books.ledger = .empty ∧ books.writtenAt = none) ∨
    ∃ ts row, books.writtenAt = some ts ∧ ts ≤ now ∧ Standing env books.target books.ledger ts row

section Standing

variable {env : Env} {target : Target} {ledger : Ledger} {ts next : Int} {row : MonthlyRow}

theorem month_le_day (env : Env) (target : Target) (ts : Int) :
    (periodOf env target ts).month ≤ dayFromSec ts env :=
  (dayFromSec_mem_period env (.finite (trafficResetDayFromTarget target env)) ts).1

/-- No later period has a row. -/
theorem Standing.current {stored : MonthlyRow} (standing : Standing env target ledger ts row)
    (before : ts ≤ next) (found : ledger.monthly.get? (periodOf env target next).month = some stored) :
    periodOf env target next = periodOf env target ts ∧ stored = row := by
  have begun := standing.begun _ (OrderedMap.get?_eq_some.mp found)
  have later := (dayFromSec_mem_period env (.finite (trafficResetDayFromTarget target env)) next).2
  have same : periodOf env target ts = periodOf env target next :=
    period_eq_of_mem env _ begun ((dayFromSec_mono env before).trans_lt later)
  rw [← same, standing.found, Option.some.injEq] at found
  exact ⟨same.symm, found.symm⟩

theorem begun_set {month : Int} {written : MonthlyRow} (reached : month ≤ dayFromSec next env)
    (begun : ∀ entry ∈ ledger.monthly.entries, entry.1 ≤ dayFromSec next env) :
    ∀ entry ∈ (ledger.monthly.set month written).entries, entry.1 ≤ dayFromSec next env := by
  intro entry member
  rcases (OrderedMap.mem_set_entries _ _ _ _).mp member with rfl | ⟨_, kept⟩
  · exact reached
  · exact begun entry kept

theorem Standing.cleanup (standing : Standing env target ledger ts row) (recent : ts ≤ row.updatedAt) :
    Standing env target (ledger.cleanup env ts) ts row := by
  refine ⟨?_, ?_, ?_⟩
  · refine (OrderedMap.get?_filter _ _).mpr ⟨standing.found, decide_eq_true ?_⟩
    omega
  · intro entry member
    exact standing.begun entry (List.mem_of_mem_filter member)
  · intro direction
    rw [standing.booked direction, booked_cleanup]

theorem Standing.tidied {result : Ledger} (standing : Standing env target ledger ts row)
    (recent : ts ≤ row.updatedAt) (tidied : Tidied env ts ledger result) :
    Standing env target result ts row := by
  rcases tidied with rfl | rfl
  · exact standing
  · exact standing.cleanup recent

theorem standing_update (found : ledger.monthly.get? (periodOf env target ts).month = some row)
    (begun : ∀ entry ∈ ledger.monthly.entries, entry.1 ≤ dayFromSec ts env)
    (before : ∀ direction, row.bytes direction = booked ledger (periodOf env target ts) row direction)
    (raw : Direction → ℚ) :
    Standing env target (updatedLedger env (periodOf env target ts).month ledger row raw ts) ts
      (updatedRow env row row raw ts) := by
  refine ⟨OrderedMap.get?_set_self _ _ _, begun_set (month_le_day env target ts) begun, fun direction => ?_⟩
  have added := booked_planUpdate raw found rfl (today_mem_period env target ts) direction
  rw [commit_planUpdate found rfl] at added
  rw [updatedLedger, added, ← before direction]
  rfl

theorem standing_open (absent : ledger.monthly.get? (periodOf env target ts).month = none)
    (begun : ∀ entry ∈ ledger.monthly.entries, entry.1 ≤ dayFromSec ts env) (raw : Direction → ℚ) :
    Standing env target (openedLedger env (periodOf env target ts) ledger raw ts) ts
      (openedRow env (periodOf env target ts) ledger.latest
        (ledger.dailyTrafficSum (periodOf env target ts).periodStart
          (periodOf env target ts).periodEnd) raw ts) := by
  refine ⟨OrderedMap.get?_set_self _ _ _, begun_set (month_le_day env target ts) begun, fun direction => ?_⟩
  have guarded : ∀ entry ∈ ledger.latest, ledger.matches entry.1 entry.2.guard = true := by
    intro entry newest
    simp [Ledger.matches, OrderedMap.get?_eq_some.mpr (latest_mem newest)]
  have added := booked_planInsert raw absent guarded (today_mem_period env target ts)
    (ledger.dailyTrafficSum (periodOf env target ts).periodStart
      (periodOf env target ts).periodEnd) direction
  rw [commit_planInsert _ absent] at added
  rw [openedLedger, added]
  rfl

theorem standing_rebuild (begun : ∀ entry ∈ ledger.monthly.entries, entry.1 ≤ dayFromSec ts env)
    (d1Metric buffered : Option MetricRow) :
    Standing env target (rebuildAgentTrafficPeriod env (some target) d1Metric buffered ts ledger) ts
      (rebuiltRow env (periodOf env target ts) ledger.latest
        (ledger.dailyTrafficSum (periodOf env target ts).periodStart
          (periodOf env target ts).periodEnd) (latestMetric env d1Metric buffered) ts) := by
  refine ⟨OrderedMap.get?_set_self _ _ _, begun_set (month_le_day env target ts) begun, fun direction => ?_⟩
  exact booked_rebuiltRow.symm

end Standing

theorem Stands.begun {env : Env} {books : Books} {now : Int} (stands : Stands env books now) :
    ∀ entry ∈ books.ledger.monthly.entries, entry.1 ≤ dayFromSec now env := by
  intro entry member
  rcases stands with ⟨none_, -⟩ | ⟨ts, row, -, before, standing⟩
  · rw [none_] at member
    cases member
  · exact (standing.begun entry member).trans (dayFromSec_mono env before)

theorem stands_step {env : Env} {books : Books} {action : Action} (stands : Stands env books action.ts) :
    Stands env (books.step env action) action.ts := by
  cases action with
  | changeResetDay resetDay d1Metric buffered ts =>
      exact .inr ⟨ts, _, rfl, le_refl _, standing_rebuild stands.begun d1Metric buffered⟩
  | report report =>
      rcases persistAgentTraffic_cases env books.target report books.ledger with
        skipped | ⟨raw, written, result, valid, done, tidied, write⟩
      · have same : books.step env (.report report) = books := by
          simp only [Books.step, skipped]
          rfl
        rw [same]
        exact stands
      · refine .inr ?_
        simp only [Books.step, done, if_true]
        rcases write with ⟨row, found, rfl⟩ | ⟨absent, rfl⟩
        · refine ⟨report.ts, _, rfl, le_refl _, Standing.tidied (standing_update found stands.begun ?_ raw)
            (le_refl _) tidied⟩
          rcases stands with ⟨none_, -⟩ | ⟨ts, stored, -, (before : ts ≤ report.ts), standing⟩
          · rw [none_] at found
            cases found
          · obtain ⟨same, rfl⟩ := standing.current before found
            rw [same]
            exact standing.booked
        · exact ⟨report.ts, _, rfl, le_refl _, (standing_open absent stands.begun raw).tidied
            (le_max_left _ _) tidied⟩

/-! The finished days, in runs of regular actions. -/

section Finished

variable {env : Env} {ledger : Ledger} {month ts start stop : Int} {row : MonthlyRow} {day : Int}
  {direction : Direction}

theorem finishedDays_of_same (same : day = dayFromSec ts env) (active : row.activeDay = some day) :
    finishedDays env month ledger row ts = ledger.daily := by
  simp [finishedDays, active, same]

/-- A batch that begins a day adds the bytes of the day before. -/
theorem dailyTrafficSum_finishedDays (guarded : ledger.matches month row.guard = true)
    (active : row.activeDay = some day) (begins : day ≠ dayFromSec ts env)
    (monthly : OrderedMap Int MonthlyRow) :
    Ledger.dailyTrafficSum ⟨monthly, finishedDays env month ledger row ts⟩ start stop direction =
      ledger.dailyTrafficSum start stop direction +
        if start ≤ day ∧ day < stop then row.dayBytes direction else 0 := by
  have finished := dailyTrafficSum_finalize guarded ts ⟨start, 0, start, stop⟩ direction
  simp only [activeBytes, dayInTrafficPeriod, active, Option.any_some, Bool.and_eq_true,
    decide_eq_true_eq] at finished
  rw [← finished]
  simp [finishedDays, Ledger.dailyTrafficSum, active, begins]

theorem dailyTrafficSum_of_later (days : ∀ entry ∈ ledger.daily.entries, entry.1 < start) :
    ledger.dailyTrafficSum start stop direction = 0 := by
  refine OrderedMap.total_eq_zero _ _ fun entry member => ?_
  simp [dailyWeight, (days entry member).not_ge]

/-- A cleanup leaves the days alone that it retains. -/
theorem dailyTrafficSum_cleanup (retained : Retained env ts start) :
    (ledger.cleanup env ts).dailyTrafficSum start stop direction =
      ledger.dailyTrafficSum start stop direction := by
  unfold Ledger.dailyTrafficSum Ledger.cleanup
  rw [OrderedMap.total_filter]
  intro other daily dropped
  have before : other < start := by
    simp only [decide_eq_false_iff_not, not_le] at dropped
    exact dropped.trans_le retained
  simp [dailyWeight, before.not_ge]

end Finished

/-- The row of the last write is the latest; the finished days lie before its active day and hold what was
credited to them, and the row what was credited to the active day. -/
structure Kept (env : Env) (books : Books) (ts : Int) (row : MonthlyRow) (day : Int) : Prop where
  standing : Standing env books.target books.ledger ts row
  newest : ∀ entry ∈ books.ledger.monthly.entries,
    entry = ((periodOf env books.target ts).month, row) ∨
      Precedes entry ((periodOf env books.target ts).month, row)
  active : row.activeDay = some day
  reached : day ≤ dayFromSec ts env
  days : ∀ entry ∈ books.ledger.daily.entries, entry.1 < day
  finished : ∀ earlier < day, Retained env ts earlier → ∀ direction,
    books.ledger.dailyTrafficSum earlier (earlier + 1) direction = books.credited earlier direction
  pending : ∀ direction, row.dayBytes direction = books.credited day direction
  later : ∀ other, day < other → ∀ direction, books.credited other direction = 0

section Kept

variable {env : Env} {books : Books} {ts next : Int} {row : MonthlyRow} {day : Int}

theorem Kept.latest (kept : Kept env books ts row day) :
    books.ledger.latest = some ((periodOf env books.target ts).month, row) :=
  latest_of_precedes (OrderedMap.get?_eq_some.mp kept.standing.found) kept.newest

theorem Retained.mono {earlier : Int} (retained : Retained env next earlier) (before : ts ≤ next) :
    Retained env ts earlier := by
  refine le_trans (dayFromSec_mono env ?_) retained
  omega

theorem Kept.matches (kept : Kept env books ts row day) :
    books.ledger.matches (periodOf env books.target ts).month row.guard = true := by
  simp [Ledger.matches, kept.standing.found]

/-- A report that is written over the latest row keeps the books. -/
theorem Kept.report {result : Ledger} {written : MonthlyRow} {amount : Direction → Nat}
    (kept : Kept env books ts row day) (before : ts ≤ next)
    (daily : result.daily = finishedDays env (periodOf env books.target ts).month books.ledger row next)
    (standing : Standing env books.target result next written)
    (newest : ∀ entry ∈ result.monthly.entries,
      entry = ((periodOf env books.target next).month, written) ∨
        Precedes entry ((periodOf env books.target next).month, written))
    (active : written.activeDay = some (dayFromSec next env))
    (bytes : ∀ direction, written.dayBytes direction =
      (if day = dayFromSec next env then row.dayBytes direction else 0) + amount direction) :
    Kept env { books with
      ledger := result
      credited := credit books.credited (some (dayFromSec next env)) amount
      writtenAt := some next } next written (dayFromSec next env) := by
  have reached : day ≤ dayFromSec next env := kept.reached.trans (dayFromSec_mono env before)
  refine ⟨standing, newest, active, le_refl _, ?_, ?_, ?_, ?_⟩
  · intro entry member
    rw [daily] at member
    by_cases same : day = dayFromSec next env
    · rw [finishedDays_of_same same kept.active] at member
      exact (kept.days entry member).trans_le reached
    · have earlier : day < dayFromSec next env := lt_of_le_of_ne reached same
      rcases day_mem_finishedDays member with finished | old
      · rw [kept.active, Option.some.injEq] at finished
        exact finished ▸ earlier
      · exact (kept.days entry old).trans earlier
  · intro earlier begun retained direction
    have other : some (dayFromSec next env) ≠ some earlier := fun same => begun.ne' (Option.some.inj same)
    simp only [credit, if_neg other, add_zero]
    have sum : result.dailyTrafficSum earlier (earlier + 1) direction =
        books.ledger.dailyTrafficSum earlier (earlier + 1) direction +
          if earlier = day then row.dayBytes direction else 0 := by
      have shape : result.dailyTrafficSum earlier (earlier + 1) direction =
          Ledger.dailyTrafficSum ⟨result.monthly, finishedDays env (periodOf env books.target ts).month
            books.ledger row next⟩ earlier (earlier + 1) direction := by
        rw [← daily]
      rw [shape]
      by_cases same : day = dayFromSec next env
      · rw [finishedDays_of_same same kept.active, if_neg (by omega)]
        rfl
      · rw [dailyTrafficSum_finishedDays kept.matches kept.active same]
        congr 1
        refine if_congr ?_ rfl rfl
        omega
    rw [sum]
    rcases lt_trichotomy earlier day with before_ | rfl | after
    · rw [if_neg before_.ne, add_zero]
      exact kept.finished earlier before_ (retained.mono before) direction
    · rw [if_pos rfl, dailyTrafficSum_of_later kept.days, zero_add]
      exact kept.pending direction
    · rw [if_neg after.ne', add_zero, kept.later earlier after direction]
      exact dailyTrafficSum_of_later fun entry member => (kept.days entry member).trans after
  · intro direction
    rw [bytes direction]
    simp only [credit, if_true]
    congr 1
    by_cases same : day = dayFromSec next env
    · rw [if_pos same, kept.pending direction, same]
    · rw [if_neg same, kept.later _ (lt_of_le_of_ne reached same) direction]
  · intro other after direction
    have different : some (dayFromSec next env) ≠ some other := fun same => after.ne (Option.some.inj same)
    simp only [credit, if_neg different, add_zero]
    exact kept.later other (reached.trans_lt after) direction

theorem Kept.tidied {result : Ledger} (kept : Kept env books ts row day) (recent : ts ≤ row.updatedAt)
    (tidied : Tidied env ts books.ledger result) : Kept env { books with ledger := result } ts row day := by
  have standing := kept.standing.tidied recent tidied
  rcases tidied with rfl | rfl
  · exact kept
  · refine ⟨standing, ?_, kept.active, kept.reached, ?_, ?_, kept.pending, kept.later⟩
    · intro entry member
      exact kept.newest entry (List.mem_of_mem_filter member)
    · intro entry member
      exact kept.days entry (List.mem_of_mem_filter member)
    · intro earlier begun retained direction
      rw [dailyTrafficSum_cleanup retained]
      exact kept.finished earlier begun retained direction

theorem reportedBytes_eq {target : Target} {report : Report} {ledger : Ledger} {raw : Direction → ℚ}
    (valid : validCounters report.counters = some raw)
    (over_ : (ledger.monthly.get? (periodOf env target report.ts).month).or
      (ledger.latest.map Prod.snd) = some row) (direction : Direction) :
    reportedBytes env target report ledger direction =
      increment (row.last direction) ⌊raw direction⌋₊ := by
  simp only [reportedBytes, over_, valid, Option.map_some, Option.bind_some, Option.getD_some,
    rawTrafficDelta_eq]

/-- A report over the row of its period keeps the books. -/
theorem Kept.update {report : Report} {raw : Direction → ℚ} {result : Ledger} {stored : MonthlyRow}
    (kept : Kept env books ts row day) (before : ts ≤ report.ts)
    (valid : validCounters report.counters = some raw)
    (found : books.ledger.monthly.get? (periodOf env books.target report.ts).month = some stored)
    (precede : ∀ entry ∈ books.ledger.monthly.entries,
      entry.1 ≠ (periodOf env books.target report.ts).month →
        Precedes entry ((periodOf env books.target report.ts).month, { stored with updatedAt := report.ts }))
    (tidied : Tidied env report.ts (updatedLedger env (periodOf env books.target report.ts).month
      books.ledger stored raw report.ts) result) :
    ∃ written, Kept env { books with
      ledger := result
      credited := credit books.credited (some (dayFromSec report.ts env))
        (reportedBytes env books.target report books.ledger)
      writtenAt := some report.ts } report.ts written (dayFromSec report.ts env) := by
  obtain ⟨same, rfl⟩ := kept.standing.current before found
  have bookedBefore : ∀ direction, stored.bytes direction =
      booked books.ledger (periodOf env books.target report.ts) stored direction := by
    rw [same]
    exact kept.standing.booked
  have standing := standing_update found
    (fun entry member => (kept.standing.begun entry member).trans (dayFromSec_mono env before))
    bookedBefore raw
  refine ⟨_, Kept.tidied (kept.report before ?_ standing ?_ rfl fun direction => ?_) (le_refl _) tidied⟩
  · rw [← same]
    rfl
  · intro entry member
    rcases (OrderedMap.mem_set_entries _ _ _ _).mp member with rfl | ⟨other, old⟩
    · exact .inl rfl
    · exact .inr (precede entry old other)
  · rw [reportedBytes_eq valid (by rw [found]; rfl) direction]
    simp only [updatedRow, kept.active, Option.some.injEq]

/-- A report that opens a period keeps the books. -/
theorem Kept.open {report : Report} {raw : Direction → ℚ} {result : Ledger}
    (kept : Kept env books ts row day) (before : ts ≤ report.ts)
    (valid : validCounters report.counters = some raw)
    (absent : books.ledger.monthly.get? (periodOf env books.target report.ts).month = none)
    (tidied : Tidied env report.ts (openedLedger env (periodOf env books.target report.ts)
      books.ledger raw report.ts) result) :
    ∃ written, Kept env { books with
      ledger := result
      credited := credit books.credited (some (dayFromSec report.ts env))
        (reportedBytes env books.target report books.ledger)
      writtenAt := some report.ts } report.ts written (dayFromSec report.ts env) := by
  have standing := standing_open absent
    (fun entry member => (kept.standing.begun entry member).trans (dayFromSec_mono env before)) raw
  refine ⟨_, Kept.tidied (kept.report before ?_ standing ?_ rfl fun direction => ?_)
    (le_max_left _ _) tidied⟩
  · simp only [openedLedger, openedDays, kept.latest]
  · intro entry member
    rcases (OrderedMap.mem_set_entries _ _ _ _).mp member with rfl | ⟨-, old⟩
    · exact .inl rfl
    · refine .inr (.inl ?_)
      simp only [openedRow, kept.latest, Option.map_some, Option.getD_some]
      have older : entry.2.updatedAt ≤ row.updatedAt := by
        rcases kept.newest entry old with rfl | newer | ⟨same, -⟩
        · exact le_refl _
        · exact newer.le
        · exact same.le
      omega
  · have previous : (books.ledger.monthly.get? (periodOf env books.target report.ts).month).or
        (books.ledger.latest.map Prod.snd) = some row := by
      simp only [absent, kept.latest, Option.none_or, Option.map_some]
    rw [reportedBytes_eq valid previous direction]
    have today := today_mem_period env books.target report.ts
    simp only [openedRow, kept.latest, Option.bind_some, kept.active, Option.some.injEq, latestLast,
      carried, Option.map_some, Option.getD_some, activeBytes]
    by_cases same : day = dayFromSec report.ts env
    · simp only [same, today, if_true]
    · simp only [same, if_false]

theorem dayBytes_rebuiltRow {period : TrafficPeriod} {latest : Option (Int × MonthlyRow)}
    {daily : Direction → Nat} {metric : Option MetricRow} {direction : Direction} :
    (rebuiltRow env period latest daily metric ts).dayBytes direction =
      carried period latest direction + pendingBytes period latest metric direction := by
  have bytes : (rebuiltRow env period latest daily metric ts).bytes direction =
      daily direction + carried period latest direction + pendingBytes period latest metric direction :=
    bytes_rebuiltRow
  simp only [rebuiltRow] at bytes ⊢
  omega

/-- A rebuilt row is dated after the latest row, unless it replaces that row. -/
theorem precedes_rebuilt (now : Int) {entry newest : Int × MonthlyRow} {month : Int} {written : MonthlyRow}
    (older : entry = newest ∨ Precedes entry newest) (other : entry.1 ≠ month)
    (date : written.updatedAt = max now (newest.2.updatedAt + if newest.1 = month then 0 else 1)) :
    Precedes entry (month, written) := by
  unfold Precedes at older ⊢
  dsimp only
  rcases older with rfl | older
  · rw [if_neg other] at date
    omega
  · split at date <;> omega

/-- A rebuild that finds the active day in its period, or without bytes, keeps the books. -/
theorem Kept.rebuild {resetDay : JsNumber} {d1Metric buffered : Option MetricRow}
    (kept : Kept env books ts row day) (before : ts ≤ next)
    (carries : dayInTrafficPeriod row.activeDay (periodOf env (books.target.withResetDay resetDay) next) = true ∨
      ∀ direction, row.dayBytes direction = 0) :
    ∃ written, Kept env (books.step env (.changeResetDay resetDay d1Metric buffered next)) next written day := by
  have standing : Standing env (books.target.withResetDay resetDay)
      (rebuildAgentTrafficPeriod env (some (books.target.withResetDay resetDay)) d1Metric buffered next
        books.ledger) next _ := standing_rebuild (fun entry member =>
      (kept.standing.begun entry member).trans (dayFromSec_mono env before)) d1Metric buffered
  refine ⟨_, standing, ?_, ?_, kept.reached.trans (dayFromSec_mono env before), kept.days, ?_, ?_, ?_⟩
  · intro entry member
    rcases (OrderedMap.mem_set_entries _ _ _ _).mp member with rfl | ⟨other, old⟩
    · exact .inl rfl
    · refine .inr (precedes_rebuilt next (kept.newest entry old) other ?_)
      simp only [rebuiltRow, kept.latest, Option.map_some, Option.getD_some]
      rfl
  · simp only [rebuiltRow, kept.latest, Option.bind_some, kept.active, Option.some_or]
  · intro earlier begun retained direction
    have other : some day ≠ some earlier := fun same => begun.ne' (Option.some.inj same)
    simp only [Books.step, kept.latest, Option.bind_some, kept.active, credit, if_neg other, add_zero]
    exact kept.finished earlier begun (retained.mono before) direction
  · intro direction
    rw [dayBytes_rebuiltRow]
    simp only [Books.step, kept.latest, Option.bind_some, kept.active, credit, if_true, carried,
      Option.map_some, Option.getD_some, activeBytes]
    congr 1
    rcases carries with inside | nothing
    · rw [kept.active] at inside
      rw [if_pos inside, kept.pending direction]
    · rw [nothing direction, ite_self, ← kept.pending direction, nothing direction]
  · intro other after direction
    have different : some day ≠ some other := fun same => after.ne (Option.some.inj same)
    simp only [Books.step, kept.latest, Option.bind_some, kept.active, credit, if_neg different, add_zero]
    exact kept.later other after direction

theorem reportedBytes_empty (target : Target) (report : Report) (direction : Direction) :
    reportedBytes env target report .empty direction = 0 := by
  unfold reportedBytes
  cases validCounters report.counters <;> rfl

theorem credit_zero {bytes : Direction → Nat} (nothing : ∀ direction, bytes direction = 0)
    (given : Option Int) : credit (fun _ _ => 0) given bytes = fun _ _ => 0 := by
  funext other direction
  simp only [credit, nothing, ite_self, add_zero]

/-- The first row of an empty ledger, without bytes, starts the books. -/
theorem kept_first {target : Target} {result : Ledger} (standing : Standing env target result ts row)
    (monthly : result.monthly = OrderedMap.empty.set (periodOf env target ts).month row)
    (daily : result.daily = OrderedMap.empty) (active : row.activeDay = some (dayFromSec ts env))
    (nothing : ∀ direction, row.dayBytes direction = 0) :
    Kept env ⟨target, result, fun _ _ => 0, some ts⟩ ts row (dayFromSec ts env) := by
  refine ⟨standing, ?_, active, le_refl _, ?_, ?_, nothing, fun _ _ _ => rfl⟩
  · intro entry member
    rw [monthly] at member
    rcases (OrderedMap.mem_set_entries _ _ _ _).mp member with rfl | ⟨-, old⟩
    · exact .inl rfl
    · cases old
  · intro entry member
    rw [daily] at member
    cases member
  · intro earlier _ _ direction
    refine dailyTrafficSum_of_later fun entry member => ?_
    rw [daily] at member
    cases member

end Kept

/-- Nothing is written yet, or the books are kept since the last write. -/
def KeptUntil (env : Env) (books : Books) (now : Int) : Prop :=
  (∃ target, books = .empty target) ∨
    ∃ ts row day, books.writtenAt = some ts ∧ ts ≤ now ∧ Kept env books ts row day

section Run

variable {env : Env} {books : Books}

theorem keptUntil_report {report : Report} (kept : KeptUntil env books report.ts)
    (regular : Regular env books (.report report)) :
    KeptUntil env (books.step env (.report report)) report.ts := by
  rcases persistAgentTraffic_cases env books.target report books.ledger with
    skipped | ⟨raw, written, result, valid, done, tidied, write⟩
  · have same : books.step env (.report report) = books := by
      simp only [Books.step, skipped]
      rfl
    rw [same]
    exact kept
  · have writes : Writes env (some books.target) report books.ledger = true := by
      rw [← writes_eq, done]
    have result_ : books.step env (.report report) = { books with
        ledger := result
        credited := credit books.credited (some (dayFromSec report.ts env))
          (reportedBytes env books.target report books.ledger)
        writtenAt := some report.ts } := by
      simp only [Books.step, done, if_true]
    rw [result_]
    rcases kept with ⟨target, rfl⟩ | ⟨ts, row, day, -, before, kept⟩
    · rcases write with ⟨row, found, -⟩ | ⟨absent, rfl⟩
      · cases found
      · have standing := standing_open absent (fun entry member => by cases member) raw
        have first := kept_first standing rfl rfl rfl fun _ => rfl
        simp only [Books.empty]
        rw [credit_zero (reportedBytes_empty target report)]
        exact .inr ⟨report.ts, _, _, rfl, le_refl _, first.tidied (le_max_left _ _) tidied⟩
    · rcases write with ⟨stored, found, rfl⟩ | ⟨absent, rfl⟩
      · obtain ⟨written, after⟩ := kept.update before valid found (regular writes stored found) tidied
        exact .inr ⟨report.ts, written, _, rfl, le_refl _, after⟩
      · obtain ⟨written, after⟩ := kept.open before valid absent tidied
        exact .inr ⟨report.ts, written, _, rfl, le_refl _, after⟩

theorem keptUntil_changeResetDay {resetDay : JsNumber} {d1Metric buffered : Option MetricRow} {now : Int}
    (kept : KeptUntil env books now)
    (regular : Regular env books (.changeResetDay resetDay d1Metric buffered now)) :
    KeptUntil env (books.step env (.changeResetDay resetDay d1Metric buffered now)) now := by
  rcases kept with ⟨target, rfl⟩ | ⟨ts, row, day, -, before, kept⟩
  · have standing : Standing env (target.withResetDay resetDay)
        (rebuildAgentTrafficPeriod env (some (target.withResetDay resetDay)) d1Metric buffered now .empty)
        now _ := standing_rebuild (fun entry member => by cases member) d1Metric buffered
    have nothing (direction : Direction) :
        pendingBytes (periodOf env (target.withResetDay resetDay) now) Ledger.empty.latest
          (latestMetric env d1Metric buffered) direction = 0 := rfl
    simp only [Books.step, Books.empty]
    rw [credit_zero nothing]
    exact .inr ⟨now, _, _, rfl, le_refl _, kept_first standing rfl rfl rfl fun _ => rfl⟩
  · obtain ⟨written, after⟩ := kept.rebuild before (regular _ kept.latest)
    exact .inr ⟨now, written, day, rfl, le_refl _, after⟩

theorem keptUntil_step {action : Action} (kept : KeptUntil env books action.ts)
    (regular : Regular env books action) : KeptUntil env (books.step env action) action.ts := by
  cases action with
  | report report => exact keptUntil_report kept regular
  | changeResetDay => exact keptUntil_changeResetDay kept regular

theorem Stands.mono {now later : Int} (stands : Stands env books now) (before : now ≤ later) :
    Stands env books later :=
  stands.imp_right fun ⟨ts, row, written, earlier, standing⟩ =>
    ⟨ts, row, written, earlier.trans before, standing⟩

theorem KeptUntil.mono {now later : Int} (kept : KeptUntil env books now) (before : now ≤ later) :
    KeptUntil env books later :=
  kept.imp_right fun ⟨ts, row, day, written, earlier, standing⟩ =>
    ⟨ts, row, day, written, earlier.trans before, standing⟩

theorem booked_of_stands {now : Int} (stands : Stands env books now) : Booked env books := by
  intro ts written
  rcases stands with ⟨-, none_⟩ | ⟨last, row, at_, -, standing⟩
  · rw [none_] at written
    cases written
  · cases Option.mem_some_iff.mp (at_ ▸ written)
    exact ⟨row, standing.found, standing.booked⟩

theorem finished_of_keptUntil {now : Int} (kept : KeptUntil env books now) :
    Finished env (Retained env) books := by
  intro ts written stored found day active earlier before retained direction
  rcases kept with ⟨target, rfl⟩ | ⟨last, row, today, at_, -, kept⟩
  · cases written
  · cases Option.mem_some_iff.mp (at_ ▸ written)
    rw [Option.mem_def, kept.standing.found, Option.some.injEq] at found
    subst found
    rw [Option.mem_def, kept.active, Option.some.injEq] at active
    exact kept.finished earlier (active ▸ before) retained direction

variable {target : Target} {actions : List Action}

theorem stands_run (ordered : actions.Pairwise fun earlier later => earlier.ts ≤ later.ts) :
    ∀ now, (∀ action ∈ actions, action.ts ≤ now) →
      Stands env (Runs.run (Books.step env) (.empty target) actions) now := by
  induction actions using List.reverseRecOn with
  | nil => exact fun _ _ => .inl ⟨rfl, rfl⟩
  | append_singleton actions action ih =>
      intro now bound
      obtain ⟨orderedBefore, -, before⟩ := List.pairwise_append.mp ordered
      rw [Runs.run_concat]
      refine (stands_step (ih orderedBefore action.ts fun earlier member => ?_)).mono (bound action (by simp))
      exact before earlier member action List.mem_cons_self

theorem keptUntil_run (ordered : actions.Pairwise fun earlier later => earlier.ts ≤ later.ts)
    (regular : Runs.Along (Books.step env) (Regular env) (.empty target) actions) :
    ∀ now, (∀ action ∈ actions, action.ts ≤ now) →
      KeptUntil env (Runs.run (Books.step env) (.empty target) actions) now := by
  induction actions using List.reverseRecOn with
  | nil => exact fun _ _ => .inl ⟨target, rfl⟩
  | append_singleton actions action ih =>
      intro now bound
      obtain ⟨orderedBefore, -, before⟩ := List.pairwise_append.mp ordered
      obtain ⟨regularBefore, last, -⟩ := Runs.along_append.mp regular
      rw [Runs.run_concat]
      refine (keptUntil_step (ih orderedBefore regularBefore action.ts fun earlier member => ?_) last).mono
        (bound action (by simp))
      exact before earlier member action List.mem_cons_self

end Run

theorem exists_bound (actions : List Action) : ∃ now, ∀ action ∈ actions, action.ts ≤ now := by
  induction actions with
  | nil => exact ⟨0, by simp⟩
  | cons action rest ih =>
      obtain ⟨now, bound⟩ := ih
      refine ⟨max action.ts now, List.forall_mem_cons.mpr ⟨le_max_left _ _, fun other member => ?_⟩⟩
      exact (bound other member).trans (le_max_right _ _)

/-- After every write the row of its period is booked in its days; when the actions are regular, each day
before the active one that is not too old has in the finished days exactly what was credited to it. -/
theorem reset_day_changes_conserve (env : Env) (target : Target) {actions : List Action}
    (ordered : actions.Pairwise fun earlier later => earlier.ts ≤ later.ts) :
    Booked env (Runs.run (Books.step env) (.empty target) actions) ∧
      (Runs.Along (Books.step env) (Regular env) (.empty target) actions →
        Finished env (Retained env) (Runs.run (Books.step env) (.empty target) actions)) := by
  obtain ⟨now, bound⟩ := exists_bound actions
  exact ⟨booked_of_stands (stands_run ordered now bound),
    fun regular => finished_of_keptUntil (keptUntil_run ordered regular now bound)⟩

def received (rx : ℚ) (ts : Int) (ts_pos : 0 < ts) : Action := .report (.ofBytes rx 1000 ts ts_pos)

def resetTo (resetDay : ℚ) (ts : Int) : Action := .changeResetDay (.finite resetDay) none none ts

theorem fifteenth_pos : (0 : Int) < 1700000000 := by decide

theorem fifteenth_later_pos : (0 : Int) < 1700010000 := by decide

/-- Four thousand bytes on the fifteenth of November. -/
def fourThousand : List Action :=
  [received 1000 1700000000 fifteenth_pos, received 5000 1700010000 fifteenth_later_pos]

/-- The new period begins on the tenth. -/
def fromTenth : List Action :=
  fourThousand ++ [resetTo 10 1700600000, received 5000 1700700000 (by decide)]

theorem reset_day_changes_conserve_fromTenth :
    Booked {} (Runs.run (Books.step {}) (.empty monthlyTarget) fromTenth) ∧
      Finished {} (Retained {}) (Runs.run (Books.step {}) (.empty monthlyTarget) fromTenth) := by
  have ordered : fromTenth.Pairwise fun earlier later => earlier.ts ≤ later.ts := by decide
  have conserve := reset_day_changes_conserve {} monthlyTarget ordered
  exact ⟨conserve.1, conserve.2 (by decide +kernel)⟩

/-- The new period begins on the twentieth, after the active day. -/
def fromTwentieth : List Action :=
  fourThousand ++ [resetTo 20 1700600000, received 5000 1700700000 (by decide)]

/-- The day is written, and removed when it is too old. -/
def afterTwoYears : List Action :=
  fourThousand ++ [received 5000 1700100000 (by decide), received 5000 1740100000 (by decide)]

/-- Three changes in the last second of the fifteenth, and one more in the next second. -/
def inOneSecond : List Action :=
  fourThousand ++ [resetTo 5 1700063999, resetTo 10 1700063999, resetTo 7 1700063999,
    received 5000 1700064000 (by decide), resetTo 12 1700064000, received 5000 1700164000 (by decide)]

theorem not_finished {books : Books} (ts day earlier : Int) (direction : Direction)
    (written : books.writtenAt = some ts)
    (active : ((books.ledger.monthly.get? (periodOf {} books.target ts).month).bind
      fun row => row.activeDay) = some day)
    (before : earlier < day)
    (differs : books.ledger.dailyTrafficSum earlier (earlier + 1) direction ≠
      books.credited earlier direction) :
    ¬ Finished {} (fun _ _ => True) books := by
  intro finished
  obtain ⟨row, found, active⟩ := Option.bind_eq_some_iff.mp active
  exact differs (finished ts written row found day active earlier before trivial direction)

/-- The bytes of the fifteenth are lost, removed for their age, and counted twice. -/
theorem fifteenth_not_conserved :
    ¬ Finished {} (fun _ _ => True) (Runs.run (Books.step {}) (.empty monthlyTarget) fromTwentieth) ∧
      ¬ Finished {} (fun _ _ => True) (Runs.run (Books.step {}) (.empty monthlyTarget) afterTwoYears) ∧
      ¬ Finished {} (fun _ _ => True) (Runs.run (Books.step {}) (.empty monthlyTarget) inOneSecond) := by
  refine ⟨?_, ?_, ?_⟩
  · exact not_finished 1700700000 19684 19676 .rx (by decide +kernel) (by decide +kernel) (by decide)
      (by decide +kernel)
  · exact not_finished 1740100000 20140 19676 .rx (by decide +kernel) (by decide +kernel) (by decide)
      (by decide +kernel)
  · exact not_finished 1700164000 19678 19676 .rx (by decide +kernel) (by decide +kernel) (by decide)
      (by decide +kernel)

end NieSla.Traffic
