import NieSla.Lib.Runs
import NieSla.Traffic.Booking

/-! Conservation of traffic over the reports of one agent, persisted one after the
other from an empty ledger: what the monthly row holds is what its days hold, and
what is credited are the increments of the accepted baselines. -/
namespace NieSla.Traffic

open Counter

def periodOf (env : Env) (target : Target) (ts : Int) : TrafficPeriod :=
  (trafficSettingsFromTarget (some target) env ts).period

/-- The counters of a report as they are stored. -/
def Report.reading (report : Report) (direction : Direction) : Nat :=
  match validCounters report.counters with
  | some raw => ⌊raw direction⌋₊
  | none => 0

/-! The two writes of `persistAgentTraffic`. -/

/-- A write keeps the written ledger or, where a day begins, also cleans it up. -/
def Tidied (env : Env) (ts : Int) (written result : Ledger) : Prop :=
  result = written ∨ result = written.cleanup env ts

/-- The ledger after the update of the row of the period. -/
def updatedLedger (env : Env) (month : Int) (ledger : Ledger) (row : MonthlyRow)
    (raw : Direction → ℚ) (ts : Int) : Ledger :=
  ⟨ledger.monthly.set month (updatedRow env row row raw ts),
    finishedDays env month ledger row ts⟩

/-- The ledger after the period is opened. -/
def openedLedger (env : Env) (period : TrafficPeriod) (ledger : Ledger)
    (raw : Direction → ℚ) (ts : Int) : Ledger :=
  ⟨ledger.monthly.set period.month (openedRow env period ledger.latest
      (ledger.dailyTrafficSum period.periodStart period.periodEnd) raw ts),
    openedDays env ledger.latest ledger ts⟩

private theorem tidied_tidy (env : Env) (ts : Int) (activeDay : Option Int) (written : Ledger) :
    ∃ result, tidy env ts activeDay (written, true) = (result, true) ∧
      Tidied env ts written result := by
  by_cases begins : activeDay = some (dayFromSec ts env)
  · exact ⟨written, by simp [tidy, begins], .inl rfl⟩
  · exact ⟨written.cleanup env ts, by simp [tidy, begins], .inr rfl⟩

/-- All that `persistAgentTraffic` can do. -/
theorem persistAgentTraffic_cases (env : Env) (target : Target) (report : Report)
    (ledger : Ledger) :
    persistAgentTraffic env (some target) report ledger = (ledger, false) ∨
      ∃ raw written result, validCounters report.counters = some raw ∧
        persistAgentTraffic env (some target) report ledger = (result, true) ∧
        Tidied env report.ts written result ∧
        ((∃ row, ledger.monthly.get? (periodOf env target report.ts).month = some row ∧
            written = updatedLedger env (periodOf env target report.ts).month ledger row raw
              report.ts) ∨
          (ledger.monthly.get? (periodOf env target report.ts).month = none ∧
            written = openedLedger env (periodOf env target report.ts) ledger raw
              report.ts)) := by
  have settings : trafficSettingsFromTarget (some target) env report.ts =
      ⟨target.trafficEnabled, periodOf env target report.ts⟩ := rfl
  unfold persistAgentTraffic
  rw [settings]
  dsimp only
  split
  · rename_i raw enabled valid
    split
    · rename_i row found
      split
      · exact .inl rfl
      · rw [commit_planUpdate found rfl]
        obtain ⟨result, done, tidied⟩ := tidied_tidy env report.ts row.activeDay
          (updatedLedger env (periodOf env target report.ts).month ledger row raw report.ts)
        exact .inr ⟨raw, _, result, valid, done, tidied, .inl ⟨row, found, rfl⟩⟩
    · rename_i absent
      rw [commit_planInsert _ absent]
      obtain ⟨result, done, tidied⟩ := tidied_tidy env report.ts
        (ledger.latest.bind fun entry => entry.2.activeDay)
        (openedLedger env (periodOf env target report.ts) ledger raw report.ts)
      exact .inr ⟨raw, _, result, valid, done, tidied, .inr ⟨absent, rfl⟩⟩
  · exact .inl rfl

/-! The newest row. -/

/-- The order in which the latest row comes last. -/
def Precedes (first second : Int × MonthlyRow) : Prop :=
  first.2.updatedAt < second.2.updatedAt ∨
    (first.2.updatedAt = second.2.updatedAt ∧ first.1 < second.1)

instance (first second : Int × MonthlyRow) : Decidable (Precedes first second) :=
  inferInstanceAs (Decidable (_ ∨ _ ∧ _))

theorem newer_of_precedes {first second : Int × MonthlyRow} (before : Precedes first second) :
    newer (some first) second = some second ∧ newer (some second) first = some second := by
  have later : ¬ (second.2.updatedAt < first.2.updatedAt ∨
      (second.2.updatedAt = first.2.updatedAt ∧ second.1 < first.1)) := by
    unfold Precedes at before
    omega
  exact ⟨if_pos before, if_neg later⟩

theorem newer_self (entry : Int × MonthlyRow) : newer (some entry) entry = some entry := ite_self _

private theorem foldl_newer {entry : Int × MonthlyRow} {entries : List (Int × MonthlyRow)}
    {best : Option (Int × MonthlyRow)}
    (older : ∀ other ∈ entries, other = entry ∨ Precedes other entry)
    (olderBest : ∀ other ∈ best, other = entry ∨ Precedes other entry)
    (member : entry ∈ entries ∨ best = some entry) :
    entries.foldl newer best = some entry := by
  induction entries generalizing best with
  | nil => simpa using member
  | cons head rest ih =>
      have olderHead := older head List.mem_cons_self
      refine ih (fun other inside => older other (List.mem_cons_of_mem head inside)) ?_ ?_
      · intro other picked
        unfold newer at picked
        split at picked
        · cases picked
          exact olderHead
        · split at picked <;> cases picked
          · exact olderHead
          · exact olderBest _ rfl
      · by_cases inside : entry ∈ rest
        · exact .inl inside
        · refine .inr ?_
          obtain rfl | rfl : entry = head ∨ best = some entry := by
            rcases member with member | picked
            · exact .inl ((List.mem_cons.mp member).resolve_right inside)
            · exact .inr picked
          · cases best with
            | none => rfl
            | some found =>
                rcases olderBest found rfl with rfl | before
                · exact newer_self _
                · exact (newer_of_precedes before).1
          · rcases olderHead with rfl | before
            · exact newer_self _
            · exact (newer_of_precedes before).2

/-- The row that all others precede is the latest. -/
theorem latest_of_precedes {ledger : Ledger} {entry : Int × MonthlyRow}
    (member : entry ∈ ledger.monthly.entries)
    (older : ∀ other ∈ ledger.monthly.entries, other = entry ∨ Precedes other entry) :
    ledger.latest = some entry :=
  foldl_newer older (by simp) (.inl member)

/-- The row newer than all others is the latest. -/
theorem latest_eq {ledger : Ledger} {entry : Int × MonthlyRow}
    (member : entry ∈ ledger.monthly.entries)
    (older : ∀ other ∈ ledger.monthly.entries,
      other = entry ∨ other.2.updatedAt < entry.2.updatedAt) :
    ledger.latest = some entry :=
  latest_of_precedes member fun other inside => (older other inside).imp_right Or.inl

/-- The latest row is a row of the ledger. -/
theorem latest_mem {ledger : Ledger} {entry : Int × MonthlyRow}
    (found : ledger.latest = some entry) : entry ∈ ledger.monthly.entries := by
  have picked : ∀ (entries : List (Int × MonthlyRow)) (best : Option (Int × MonthlyRow)),
      entries.foldl newer best = some entry → entry ∈ entries ∨ best = some entry := by
    intro entries
    induction entries with
    | nil => exact fun best => .inr
    | cons head rest ih =>
        intro best found
        rcases ih _ found with inside | kept
        · exact .inl (List.mem_cons_of_mem head inside)
        · unfold newer at kept
          split at kept
          · cases kept
            exact .inl List.mem_cons_self
          · split at kept
            · cases kept
              exact .inl List.mem_cons_self
            · exact .inr kept
  exact (picked _ _ found).resolve_right (by simp)

/-! The invariant. -/

/-- The last accepted report, at `ts`, has left the newest row, in the latest period; the
finished days lie before its day, and its bytes are booked in the days of its period. -/
structure Settled (env : Env) (target : Target) (ledger : Ledger) (ts : Int)
    (row : MonthlyRow) : Prop where
  found : ((periodOf env target ts).month, row) ∈ ledger.monthly.entries
  activeDay : row.activeDay = some (dayFromSec ts env)
  updatedAt : row.updatedAt = ts
  older : ∀ entry ∈ ledger.monthly.entries, entry = ((periodOf env target ts).month, row) ∨
    (entry.1 < (periodOf env target ts).month ∧ entry.2.updatedAt < ts)
  days : ∀ entry ∈ ledger.daily.entries, entry.1 ≤ dayFromSec ts env
  conserved : ∀ direction, row.bytes direction =
    booked ledger (periodOf env target ts) row direction

section Settled

variable {env : Env} {target : Target} {ledger : Ledger} {ts : Int} {row : MonthlyRow}

theorem today_mem_period (env : Env) (target : Target) (ts : Int) :
    dayInTrafficPeriod (some (dayFromSec ts env)) (periodOf env target ts) = true := by
  simp only [dayInTrafficPeriod, Option.any_some, Bool.and_eq_true, decide_eq_true_eq]
  exact dayFromSec_mem_period env (.finite (trafficResetDayFromTarget target env)) ts

theorem Settled.get? (settled : Settled env target ledger ts row) :
    ledger.monthly.get? (periodOf env target ts).month = some row :=
  OrderedMap.get?_eq_some.mpr settled.found

theorem Settled.latest (settled : Settled env target ledger ts row) :
    ledger.latest = some ((periodOf env target ts).month, row) := by
  refine latest_eq settled.found fun other member => ?_
  rcases settled.older other member with same | ⟨_, before⟩
  · exact .inl same
  · exact .inr (before.trans_eq settled.updatedAt.symm)

/-- The cleanup leaves the days of the period alone. -/
theorem booked_cleanup (env : Env) (target : Target) (ledger : Ledger) (ts : Int)
    (row : MonthlyRow) (direction : Direction) :
    booked (ledger.cleanup env ts) (periodOf env target ts) row direction =
      booked ledger (periodOf env target ts) row direction := by
  unfold booked Ledger.dailyTrafficSum Ledger.cleanup
  rw [OrderedMap.total_filter]
  intro day daily dropped
  have retained := retention_before_period env (.finite (trafficResetDayFromTarget target env)) ts
  have before : day < (periodOf env target ts).periodStart := by
    simp only [decide_eq_false_iff_not, not_le] at dropped
    exact dropped.trans retained
  simp [dailyWeight, before.not_ge]

theorem Settled.cleanup (settled : Settled env target ledger ts row) :
    Settled env target (ledger.cleanup env ts) ts row := by
  refine ⟨?_, settled.activeDay, settled.updatedAt, ?_, ?_, ?_⟩
  · refine List.mem_filter.mpr ⟨settled.found, ?_⟩
    simp [settled.updatedAt]
  · intro entry member
    exact settled.older entry (List.mem_of_mem_filter member)
  · intro entry member
    exact settled.days entry (List.mem_of_mem_filter member)
  · intro direction
    rw [settled.conserved direction, booked_cleanup]

theorem Settled.tidied {result : Ledger} (settled : Settled env target ledger ts row)
    (tidied : Tidied env ts ledger result) : Settled env target result ts row := by
  rcases tidied with rfl | rfl
  · exact settled
  · exact settled.cleanup

/-- The days of a period lie behind once a later period has begun. -/
theorem day_before_next_period {next : Int} (before : ts ≤ next)
    (begun : (periodOf env target ts).month < (periodOf env target next).month) :
    dayFromSec ts env < (periodOf env target next).periodStart := by
  by_contra reached
  have later := (dayFromSec_mem_period env (.finite (trafficResetDayFromTarget target env)) next).2
  have same : periodOf env target ts = periodOf env target next :=
    period_eq_of_mem env _ (not_lt.mp reached) ((dayFromSec_mono env before).trans_lt later)
  rw [same] at begun
  exact lt_irrefl _ begun

/-! The update of the row of the period. -/

/-- A row of the current period is the row of the last accepted report. -/
theorem Settled.current {next : Int} {stored : MonthlyRow}
    (settled : Settled env target ledger ts row) (before : ts ≤ next)
    (found : ledger.monthly.get? (periodOf env target next).month = some stored) :
    periodOf env target next = periodOf env target ts ∧ stored = row := by
  have forward : (periodOf env target ts).month ≤ (periodOf env target next).month :=
    periodStart_mono env _ before
  rcases settled.older _ (OrderedMap.get?_eq_some.mp found) with same | ⟨earlier, _⟩
  · obtain ⟨month, rfl⟩ := Prod.mk.inj same
    exact ⟨period_eq_of_start_eq env _ month, rfl⟩
  · exact absurd forward (not_le.mpr earlier)

theorem Settled.update {next : Int} (settled : Settled env target ledger ts row)
    (before : ts ≤ next) (same : periodOf env target next = periodOf env target ts)
    (raw : Direction → ℚ) :
    Settled env target (updatedLedger env (periodOf env target next).month ledger row raw next)
      next (updatedRow env row row raw next) := by
  have found := settled.get?
  rw [← same] at found
  refine ⟨OrderedMap.get?_eq_some.mp (OrderedMap.get?_set_self _ _ _), rfl, rfl, ?_, ?_, ?_⟩
  · intro entry member
    rcases (OrderedMap.mem_set_entries _ _ _ _).mp member with rfl | ⟨other, kept⟩
    · exact .inl rfl
    · rcases settled.older entry kept with rfl | ⟨earlier, stale⟩
      · exact absurd (by rw [same]) other
      · exact .inr ⟨by rwa [same], stale.trans_le before⟩
  · intro entry member
    rcases day_mem_finishedDays member with active | kept
    · rw [settled.activeDay, Option.some.injEq] at active
      exact active ▸ dayFromSec_mono env before
    · exact (settled.days entry kept).trans (dayFromSec_mono env before)
  · intro direction
    have booked := booked_planUpdate raw found rfl
      (today_mem_period env target next) direction
    rw [commit_planUpdate found rfl] at booked
    rw [updatedLedger, booked, same, ← settled.conserved direction]
    rfl

/-! The opening of a period. -/

theorem settled_open (absent : ledger.monthly.get? (periodOf env target ts).month = none)
    (stored : ∀ entry ∈ ledger.latest, entry ∈ ledger.monthly.entries)
    (older : ∀ entry ∈ ledger.monthly.entries,
      entry.1 < (periodOf env target ts).month ∧ entry.2.updatedAt < ts)
    (days : ∀ entry ∈ ledger.daily.entries, entry.1 ≤ dayFromSec ts env)
    (latestDay : ∀ entry ∈ ledger.latest, ∀ day ∈ entry.2.activeDay, day ≤ dayFromSec ts env)
    (positive : 0 < ts) (raw : Direction → ℚ) :
    Settled env target (openedLedger env (periodOf env target ts) ledger raw ts) ts
      (openedRow env (periodOf env target ts) ledger.latest
        (ledger.dailyTrafficSum (periodOf env target ts).periodStart
          (periodOf env target ts).periodEnd) raw ts) := by
  refine ⟨OrderedMap.get?_eq_some.mp (OrderedMap.get?_set_self _ _ _), rfl, ?_, ?_, ?_, ?_⟩
  · unfold openedRow
    cases newest : ledger.latest with
    | none => simp [positive.le]
    | some entry =>
        have before := (older entry (stored entry newest)).2
        simp only [Option.map_some, Option.getD_some]
        omega
  · intro entry member
    rcases (OrderedMap.mem_set_entries _ _ _ _).mp member with rfl | ⟨_, kept⟩
    · exact .inl rfl
    · exact .inr (older entry kept)
  · intro entry member
    simp only [openedLedger, openedDays] at member
    split at member
    · exact days entry member
    · rename_i newest found
      rcases day_mem_finishedDays member with active | kept
      · exact latestDay newest found _ active
      · exact days entry kept
  · intro direction
    have guarded : ∀ entry ∈ ledger.latest, ledger.matches entry.1 entry.2.guard = true := by
      intro entry newest
      simp [Ledger.matches, OrderedMap.get?_eq_some.mpr (stored entry newest)]
    have booked := booked_planInsert raw absent guarded
      (today_mem_period env target ts)
      (ledger.dailyTrafficSum (periodOf env target ts).periodStart
        (periodOf env target ts).periodEnd) direction
    rw [commit_planInsert _ absent] at booked
    rw [openedLedger, booked]
    rfl

end Settled

/-! One report. -/

/-- What the monthly row of a period holds. -/
def Ledger.monthlyBytes (ledger : Ledger) (month : Int) (direction : Direction) : Nat :=
  ((ledger.monthly.get? month).map fun row => row.bytes direction).getD 0

/-- The ledger before a report at `now`: empty, or settled by an earlier report. -/
def Ready (env : Env) (target : Target) (ledger : Ledger) (now : Int) : Prop :=
  ledger = .empty ∨ ∃ ts row, ts ≤ now ∧ Settled env target ledger ts row

section Report

variable {env : Env} {target : Target} {ledger : Ledger}

/-- A period opens with the increment alone: no day booked before lies in it. -/
private theorem settled_opened {ts next : Int} {row : MonthlyRow}
    (settled : Settled env target ledger ts row) (before : ts ≤ next)
    (absent : ledger.monthly.get? (periodOf env target next).month = none)
    (positive : 0 < next) (raw : Direction → ℚ) :
    ∃ opened, Settled env target (openedLedger env (periodOf env target next) ledger raw next)
        next opened ∧ (∀ direction, opened.last direction = some ⌊raw direction⌋₊) ∧
      ∀ direction, opened.bytes direction =
        increment (latestLast ledger.latest direction) ⌊raw direction⌋₊ := by
  have forward : (periodOf env target ts).month ≤ (periodOf env target next).month :=
    periodStart_mono env _ before
  have begun : (periodOf env target ts).month < (periodOf env target next).month := by
    refine lt_of_le_of_ne forward fun same => ?_
    rw [← same, settled.get?] at absent
    cases absent
  have later : ts < next := by
    refine lt_of_le_of_ne before fun same => ?_
    rw [same] at begun
    exact lt_irrefl _ begun
  have gap := day_before_next_period before begun
  refine ⟨_, settled_open absent ?_ ?_ ?_ ?_ positive raw, fun _ => rfl, ?_⟩
  · intro entry newest
    rw [settled.latest, Option.mem_some_iff] at newest
    exact newest ▸ settled.found
  · intro entry member
    rcases settled.older entry member with rfl | ⟨earlier, stale⟩
    · exact ⟨begun, settled.updatedAt.trans_lt later⟩
    · exact ⟨earlier.trans begun, stale.trans later⟩
  · intro entry member
    exact (settled.days entry member).trans (dayFromSec_mono env before)
  · intro entry newest day active
    rw [settled.latest, Option.mem_some_iff] at newest
    subst newest
    rw [settled.activeDay, Option.mem_some_iff] at active
    exact active ▸ dayFromSec_mono env before
  · intro direction
    have unbooked : ledger.dailyTrafficSum (periodOf env target next).periodStart
        (periodOf env target next).periodEnd direction = 0 := by
      refine OrderedMap.total_eq_zero _ _ fun entry member => ?_
      have earlier := (settled.days entry member).trans_lt gap
      simp [dailyWeight, earlier.not_ge]
    have uncarried : carried (periodOf env target next) ledger.latest direction = 0 := by
      simp [settled.latest, carried, activeBytes, dayInTrafficPeriod, settled.activeDay,
        gap.not_ge]
    simp only [openedRow, unbooked, uncarried, zero_add]

private theorem settled_first (report : Report) (raw : Direction → ℚ) :
    ∃ opened, Settled env target
        (openedLedger env (periodOf env target report.ts) .empty raw report.ts) report.ts opened ∧
      (∀ direction, opened.last direction = some ⌊raw direction⌋₊) ∧
      ∀ direction, opened.bytes direction = increment none ⌊raw direction⌋₊ := by
  refine ⟨_, settled_open rfl ?_ ?_ ?_ ?_ report.ts_pos raw, fun _ => rfl, fun _ => rfl⟩
  · intro entry newest
    cases newest
  · intro entry member
    cases member
  · intro entry member
    cases member
  · intro entry newest
    cases newest

/-- An accepted write settles the ledger at its report and credits its increment. -/
theorem settled_persistAgentTraffic {report : Report}
    (ready : Ready env target ledger report.ts) :
    persistAgentTraffic env (some target) report ledger = (ledger, false) ∨
      ∃ row result, persistAgentTraffic env (some target) report ledger = (result, true) ∧
        Settled env target result report.ts row ∧
        (∀ direction, row.last direction = some (report.reading direction)) ∧
        ∀ direction, row.bytes direction =
          ledger.monthlyBytes (periodOf env target report.ts).month direction +
            increment (latestLast ledger.latest direction) (report.reading direction) := by
  rcases persistAgentTraffic_cases env target report ledger with
    skipped | ⟨raw, written, result, valid, done, tidied, write⟩
  · exact .inl skipped
  · have reading : ∀ direction, report.reading direction = ⌊raw direction⌋₊ := by
      intro direction
      simp [Report.reading, valid]
    simp only [reading]
    refine .inr ?_
    rcases write with ⟨row, found, rfl⟩ | ⟨absent, rfl⟩
    · rcases ready with rfl | ⟨ts, newest, before, settled⟩
      · cases found
      · obtain ⟨same, rfl⟩ := settled.current before found
        refine ⟨_, result, done, (settled.update before same raw).tidied tidied,
          fun _ => rfl, fun direction => ?_⟩
        simp [Ledger.monthlyBytes, found, settled.latest, latestLast, updatedRow]
    · have unopened : ∀ direction, ledger.monthlyBytes
          (periodOf env target report.ts).month direction = 0 := by
        intro direction
        simp [Ledger.monthlyBytes, absent]
      simp only [unopened, zero_add]
      obtain ⟨opened, settled, last, bytes⟩ : ∃ opened, Settled env target
          (openedLedger env (periodOf env target report.ts) ledger raw report.ts) report.ts
            opened ∧ (∀ direction, opened.last direction = some ⌊raw direction⌋₊) ∧
          ∀ direction, opened.bytes direction =
            increment (latestLast ledger.latest direction) ⌊raw direction⌋₊ := by
        rcases ready with rfl | ⟨ts, newest, before, settled⟩
        · exact settled_first report raw
        · exact settled_opened settled before absent report.ts_pos raw
      exact ⟨opened, result, done, settled.tidied tidied, last, bytes⟩

end Report

/-! Runs of reports. -/

/-- A ledger with its history: the bytes credited to the monthly rows and the accepted
baselines. -/
structure Account where
  ledger : Ledger
  credited : Direction → Int
  baselines : List (Direction → Nat)

def Account.empty : Account := ⟨.empty, fun _ => 0, []⟩

/-- Persist one more report. -/
def Account.persist (env : Env) (target : Target) (account : Account) (report : Report) :
    Account :=
  let month := (periodOf env target report.ts).month
  let written := persistAgentTraffic env (some target) report account.ledger
  { ledger := written.1
    credited := fun direction => account.credited direction +
      (written.1.monthlyBytes month direction - account.ledger.monthlyBytes month direction)
    baselines :=
      if written.2 then account.baselines ++ [report.reading] else account.baselines }

/-- The stored baseline is the last accepted one, and the increments up to it are credited. -/
structure Balanced (account : Account) : Prop where
  last : ∀ direction, latestLast account.ledger.latest direction =
    baseline none (account.baselines.map fun reading => reading direction)
  credited : ∀ direction, account.credited direction =
    increments none (account.baselines.map fun reading => reading direction)

section Account

variable {env : Env} {target : Target} {account : Account} {report : Report}

theorem ready_persist (ready : Ready env target account.ledger report.ts) :
    Ready env target (account.persist env target report).ledger report.ts := by
  unfold Account.persist
  rcases settled_persistAgentTraffic ready with skipped | ⟨row, result, done, settled, _, _⟩
  · rwa [skipped]
  · rw [done]
    exact .inr ⟨report.ts, row, le_refl _, settled⟩

theorem balanced_persist (ready : Ready env target account.ledger report.ts)
    (balanced : Balanced account) : Balanced (account.persist env target report) := by
  unfold Account.persist
  rcases settled_persistAgentTraffic ready with skipped | ⟨row, result, done, settled, last, bytes⟩
  · rw [skipped]
    exact ⟨balanced.last, fun direction => by simp [balanced.credited direction]⟩
  · rw [done]
    refine ⟨fun direction => ?_, fun direction => ?_⟩
    · simp [settled.latest, latestLast, last direction]
    · simp only [↓reduceIte, List.map_append, List.map_cons, List.map_nil, increments_concat]
      rw [balanced.credited direction, ← balanced.last direction]
      simp only [Ledger.monthlyBytes, settled.get?, Option.map_some, Option.getD_some,
        bytes direction]
      push_cast
      omega

theorem Ready.mono {ledger : Ledger} {now later : Int} (ready : Ready env target ledger now)
    (before : now ≤ later) : Ready env target ledger later :=
  ready.imp_right fun ⟨ts, row, earlier, settled⟩ => ⟨ts, row, earlier.trans before, settled⟩

/-- Reports in order keep the ledger ready for the next one and the account balanced. -/
theorem persist_run (env : Env) (target : Target) {reports : List Report}
    (ordered : reports.Pairwise fun earlier later => earlier.ts ≤ later.ts) :
    (∀ now, (∀ report ∈ reports, report.ts ≤ now) →
        Ready env target (Runs.run (Account.persist env target) .empty reports).ledger now) ∧
      Balanced (Runs.run (Account.persist env target) .empty reports) := by
  induction reports using List.reverseRecOn with
  | nil => exact ⟨fun _ _ => .inl rfl, fun _ => rfl, fun _ => rfl⟩
  | append_singleton reports report ih =>
      obtain ⟨orderedBefore, _, before⟩ := List.pairwise_append.mp ordered
      obtain ⟨ready, balanced⟩ := ih orderedBefore
      have readyNow := ready report.ts fun earlier member =>
        before earlier member report List.mem_cons_self
      rw [Runs.run_concat]
      refine ⟨fun now bound => ?_, balanced_persist readyNow balanced⟩
      exact (ready_persist readyNow).mono (bound report (by simp))

end Account

/-- After every accepted write the row of its period holds what the finished days of the
period and its active day hold, and over the whole run the credited bytes are the
increments between the accepted baselines. -/
theorem traffic_ledger_conserved (env : Env) (target : Target) (reports : List Report)
    (ordered : reports.Pairwise fun earlier later => earlier.ts ≤ later.ts) :
    (∀ before report after, reports = before ++ report :: after →
      let ledger := (Runs.run (Account.persist env target) .empty before).ledger
      let written := persistAgentTraffic env (some target) report ledger
      let period := periodOf env target report.ts
      written.2 = true →
        ∃ row, written.1.monthly.get? period.month = some row ∧
          (∀ direction, row.last direction = some (report.reading direction)) ∧
          ∀ direction, row.bytes direction =
            written.1.dailyTrafficSum period.periodStart period.periodEnd direction +
              if dayInTrafficPeriod row.activeDay period then row.dayBytes direction else 0) ∧
      ∀ direction,
        (Runs.run (Account.persist env target) .empty reports).credited direction =
          increments none ((Runs.run (Account.persist env target) .empty reports).baselines.map
            fun reading => reading direction) := by
  refine ⟨?_, (persist_run env target ordered).2.credited⟩
  rintro before report after rfl ledger written period accepted
  obtain ⟨orderedBefore, _, bound⟩ := List.pairwise_append.mp ordered
  have ready := (persist_run env target orderedBefore).1 report.ts
    fun earlier member => bound earlier member report List.mem_cons_self
  rcases settled_persistAgentTraffic ready with skipped | ⟨row, result, done, settled, last, _⟩
  · simp [written, ledger, skipped] at accepted
  · refine ⟨row, ?_, last, ?_⟩
    · simp only [written, ledger, done]
      exact settled.get?
    · simp only [written, ledger, done]
      exact settled.conserved

def Report.ofBytes (rx tx : ℚ) (ts : Int) (ts_pos : 0 < ts) : Report :=
  ⟨fun | .rx => .finite rx | .tx => .finite tx, ts, ts_pos⟩

def monthlyTarget : Target := ⟨true, some (.finite 1), 0⟩

/-- Two days, with a reboot on the second. -/
def twoDays : List Report :=
  [.ofBytes 1000 100 86400 (by decide), .ofBytes 1500 150 90000 (by decide),
    .ofBytes 1700 160 172800 (by decide), .ofBytes 40 30 180000 (by decide)]

theorem traffic_ledger_conserved_twoDays :
    (Runs.run (Account.persist {} monthlyTarget) .empty twoDays).credited .rx = 700 := by
  rw [(traffic_ledger_conserved {} monthlyTarget twoDays (by decide)).2 .rx]
  decide +kernel

end NieSla.Traffic
