import NieSla.Traffic.Race

/-! What interleaved calls credit. The guard of a batch compares the active day and the
baselines of the row it was made from; as long as no commit brings these columns back to
values that a call in flight has read, every increment and every finished day is booked
once. -/
namespace NieSla.Traffic

open Counter

/-! The account of a period before the calls. -/

/-- The bytes that the monthly row of the period starts from. -/
def openingBytes (ledger : Ledger) (period : TrafficPeriod) (direction : Direction) : Nat :=
  match ledger.monthly.get? period.month with
  | some row => row.bytes direction
  | none => bookedBefore ledger period ledger.latest direction

/-- The bytes that the days of the period start from. -/
def openingDays (ledger : Ledger) (period : TrafficPeriod) (direction : Direction) : Nat :=
  match ledger.monthly.get? period.month with
  | some row => booked ledger period row direction
  | none => bookedBefore ledger period ledger.latest direction

/-- The baseline of the first increment. -/
def openingLast (ledger : Ledger) (period : TrafficPeriod) (direction : Direction) : Option Nat :=
  match ledger.monthly.get? period.month with
  | some row => row.last direction
  | none => latestLast ledger.latest direction

namespace Race

variable {ι : Type}

/-- The monthly row and the days of the period hold what they held at the start and the
increments between the installed baselines, once. -/
def CreditedOnce (period : TrafficPeriod) (start : Ledger) (race : Race ι) : Prop :=
  ∀ row, race.ledger.monthly.get? period.month = some row → ∀ direction,
    row.bytes direction = openingBytes start period direction +
        increments (openingLast start period direction)
          (race.installed.map fun reading => reading direction) ∧
      booked race.ledger period row direction = openingDays start period direction +
        increments (openingLast start period direction)
          (race.installed.map fun reading => reading direction)

/-- A call whose row has lost its active day, its baselines or its day bytes, or that would
open a period that is open, is stale. -/
def Stale (period : TrafficPeriod) (race : Race ι) (call : ι) : Prop :=
  match race.phase call with
  | .updating row => ∀ stored, race.ledger.monthly.get? period.month = some stored →
      stored.guard = row.guard → stored.dayBytes ≠ row.dayBytes
  | .inserting _ _ => race.ledger.monthly.get? period.month ≠ none
  | _ => False

/-! When a read row comes back. -/

/-- The columns that a call compares when it commits. -/
def readGuard : Phase → Option Guard
  | .updating row => some row.guard
  | _ => none

/-- The columns that a report installs. -/
def installedGuard (env : Env) (report : Report) : Guard :=
  ⟨some (dayFromSec report.ts env), fun direction => some (report.reading direction)⟩

/-- The next statement of the call is not a commit that brings the row back, from other
columns, to columns that a call in flight has read. -/
def NoReturn (env : Env) (target : Target) (calls : ι → Report) (race : Race ι) (call : ι) :
    Prop :=
  ∀ guard ∈ readGuard (race.phase call),
    race.ledger.matches (periodOf env target (calls call).ts).month guard = true →
    installedGuard env (calls call) ≠ guard →
    ∀ other, readGuard (race.phase other) ≠ some (installedGuard env (calls call))

instance [Fintype ι] (env : Env) (target : Target) (calls : ι → Report) (race : Race ι)
    (call : ι) : Decidable (NoReturn env target calls race call) := by
  unfold NoReturn
  infer_instance

/-! The invariant. -/

/-- What a call has read is still what its commit relies on. -/
def Coherent (period : TrafficPeriod) (calls : ι → Report) (start ledger : Ledger) :
    Phase → Prop
  | .readDaily latest => ledger.monthly.get? period.month = none → latest = start.latest
  | .inserting latest daily => ledger.monthly.get? period.month = none →
      latest = start.latest ∧ daily = start.dailyTrafficSum period.periodStart period.periodEnd
  | .updating read => ∃ row, ledger.monthly.get? period.month = some row ∧
      (row.guard = read.guard → row.dayBytes = read.dayBytes)
  | .cleaning => ∃ row, ledger.monthly.get? period.month = some row ∧
      ∃ call, (calls call).ts ≤ row.updatedAt
  | _ => True

structure Sound (period : TrafficPeriod) (calls : ι → Report) (start : Ledger) (race : Race ι) :
    Prop where
  unopened : race.ledger.monthly.get? period.month = none →
    race.ledger = start ∧ race.installed = []
  credited : CreditedOnce period start race
  last : ∀ row, race.ledger.monthly.get? period.month = some row → ∀ direction,
    row.last direction = baseline (openingLast start period direction)
      (race.installed.map fun reading => reading direction)
  coherent : ∀ call, Coherent period calls start race.ledger (race.phase call)

section Sound

variable {env : Env} {target : Target} {calls : ι → Report} {period : TrafficPeriod}
  {start : Ledger}

theorem sound_start (calls : ι → Report) (period : TrafficPeriod) (ledger : Ledger) :
    Sound period calls ledger (Race.start ι ledger) := by
  refine ⟨fun _ => ⟨rfl, rfl⟩, ?_, ?_, fun _ => trivial⟩
  · intro row found direction
    change ledger.monthly.get? period.month = some row at found
    simp [openingBytes, openingDays, found, Race.start, increments]
  · intro row found direction
    change ledger.monthly.get? period.month = some row at found
    simp [openingLast, found, Race.start]

theorem coherent_of_get? {ledger ledger' : Ledger} {phase : Phase}
    (same : ledger'.monthly.get? period.month = ledger.monthly.get? period.month)
    (coherent : Coherent period calls start ledger phase) :
    Coherent period calls start ledger' phase := by
  unfold Coherent at *
  rwa [same]

variable [DecidableEq ι] {race : Race ι} {call : ι}

theorem Sound.move (sound : Sound period calls start race) (call : ι) (phase : Phase)
    (coherent : Coherent period calls start race.ledger phase) :
    Sound period calls start (race.move call phase) := by
  refine ⟨sound.unopened, sound.credited, sound.last, fun other => ?_⟩
  by_cases same : other = call
  · subst same
    simpa [Race.move] using coherent
  · simpa [Race.move, same] using sound.coherent other

/-- A batch that changes nothing ends its call. -/
theorem Sound.settle_unchanged (sound : Sound period calls start race) (activeDay : Option Int) :
    Sound period calls start
      (race.settle env call (calls call) activeDay (race.ledger, false)) := by
  simpa [Race.settle, Race.move] using sound.move call .finished trivial

/-- A batch that installs `row` keeps the invariant when the row and the days take one
increment and no other call relies on what the row replaces. -/
theorem Sound.settle_installed (sound : Sound period calls start race) (activeDay : Option Int)
    {written : Ledger} {row : MonthlyRow}
    (found : written.monthly.get? period.month = some row)
    (bytes : ∀ direction, row.bytes direction = openingBytes start period direction +
      increments (openingLast start period direction)
        ((race.installed ++ [(calls call).reading]).map fun reading => reading direction))
    (days : ∀ direction, booked written period row direction =
      openingDays start period direction + increments (openingLast start period direction)
        ((race.installed ++ [(calls call).reading]).map fun reading => reading direction))
    (last : ∀ direction, row.last direction = some ((calls call).reading direction))
    (recent : (calls call).ts ≤ row.updatedAt)
    (others : ∀ other read, race.phase other = .updating read → row.guard = read.guard →
      row.dayBytes = read.dayBytes) :
    Sound period calls start
      (race.settle env call (calls call) activeDay (written, true)) := by
  refine ⟨fun absent => ?_, fun stored member direction => ?_,
    fun stored member direction => ?_, fun other => ?_⟩
  · change written.monthly.get? period.month = none at absent
    rw [absent] at found
    cases found
  · change written.monthly.get? period.month = some stored at member
    rw [member, Option.some.injEq] at found
    exact found ▸ ⟨bytes direction, days direction⟩
  · change written.monthly.get? period.month = some stored at member
    rw [member, Option.some.injEq] at found
    subst found
    simp [Race.settle, last direction]
  · by_cases same : other = call
    · subst same
      simp only [Race.settle, Function.update_self]
      split
      · exact ⟨row, found, other, recent⟩
      · trivial
    · simp only [Race.settle, Function.update_of_ne same]
      have coherent := sound.coherent other
      cases waits : race.phase other with
      | updating read => exact ⟨row, found, others other read waits⟩
      | cleaning => exact ⟨row, found, call, recent⟩
      | readDaily latest =>
          intro absent
          rw [absent] at found
          cases found
      | inserting latest daily =>
          intro absent
          rw [absent] at found
          cases found
      | readRow => trivial
      | readLatest => trivial
      | finished => trivial

variable {raw : Direction → ℚ} (valid : validCounters (calls call).counters = some raw)
  (same : periodOf env target (calls call).ts = period)
include valid

omit [DecidableEq ι] in
private theorem reading_eq (direction : Direction) :
    (calls call).reading direction = ⌊raw direction⌋₊ := by
  simp [Report.reading, valid]

omit [DecidableEq ι] in
private theorem guard_updatedRow (read stored : MonthlyRow) :
    (updatedRow env read stored raw (calls call).ts).guard = installedGuard env (calls call) := by
  simp only [MonthlyRow.guard, updatedRow, installedGuard, reading_eq valid]

include same

theorem Sound.update {read : MonthlyRow} (sound : Sound period calls start race)
    (waits : race.phase call = .updating read) (noReturn : NoReturn env target calls race call) :
    Sound period calls start (race.settle env call (calls call) read.activeDay
      (race.ledger.commit (planUpdate env period.month read raw (calls call).ts))) := by
  obtain ⟨stored, found, unchanged⟩ : Coherent period calls start race.ledger (.updating read) :=
    waits ▸ sound.coherent call
  by_cases fresh : stored.guard = read.guard
  · have lasts : stored.last = read.last := congrArg Guard.last fresh
    have active : stored.activeDay = read.activeDay := congrArg Guard.activeDay fresh
    have days := unchanged fresh
    have account := sound.credited stored found
    have base := sound.last stored found
    rw [commit_planUpdate found fresh]
    refine sound.settle_installed _ (OrderedMap.get?_set_self _ _ _) (fun direction => ?_)
      (fun direction => ?_) (fun direction => ?_) (le_refl _) ?_
    · simp only [updatedRow, List.map_append, List.map_cons, List.map_nil, increments_concat,
        ← base direction, (account direction).1, reading_eq valid, lasts]
      omega
    · have inside := today_mem_period env target (calls call).ts
      rw [same] at inside
      have step := booked_planUpdate raw found fresh inside direction
      rw [commit_planUpdate found fresh] at step
      have same_days : booked race.ledger period read direction =
          booked race.ledger period stored direction := by
        simp only [booked, activeBytes, active, days]
      simp only [step, same_days, (account direction).2, List.map_append, List.map_cons,
        List.map_nil, increments_concat, ← base direction, reading_eq valid, lasts]
      omega
    · simp only [updatedRow, reading_eq valid]
    · intro other back reads installs
      rw [guard_updatedRow valid] at installs
      by_cases moves : installedGuard env (calls call) = read.guard
      · -- The columns stay, so the increment is 0 and the day bytes stay too.
        obtain ⟨row, found', kept⟩ :
            Coherent period calls start race.ledger (.updating back) :=
          reads ▸ sound.coherent other
        rw [found, Option.some.injEq] at found'
        subst found'
        rw [← kept (by rw [fresh, ← moves, installs]), days]
        have today : read.activeDay = some (dayFromSec (calls call).ts env) :=
          (congrArg Guard.activeDay moves).symm
        have idle : ∀ direction, read.last direction = some ⌊raw direction⌋₊ := by
          intro direction
          rw [← reading_eq valid]
          exact (congrFun (congrArg Guard.last moves) direction).symm
        funext direction
        simp [updatedRow, today, idle, increment]
      · have guarded : race.ledger.matches (periodOf env target (calls call).ts).month
            read.guard = true := by
          simp [same, Ledger.matches, found, fresh]
        have away := noReturn read.guard (by simp [waits, readGuard]) guarded moves other
        rw [reads, readGuard, ← installs] at away
        exact absurd rfl away
  · rw [commit_planUpdate_of_stale]
    · exact sound.settle_unchanged _
    · intro other found'
      rw [found, Option.some.injEq] at found'
      exact found' ▸ fresh

theorem Sound.insert {latest : Option (Int × MonthlyRow)} {daily : Direction → Nat}
    (sound : Sound period calls start race) (waits : race.phase call = .inserting latest daily) :
    Sound period calls start (race.settle env call (calls call)
      (latest.bind fun entry => entry.2.activeDay)
      (race.ledger.commit (planInsert env period latest daily raw (calls call).ts))) := by
  cases found : race.ledger.monthly.get? period.month with
  | some stored =>
      rw [commit_planInsert_of_conflict daily found]
      exact sound.settle_unchanged _
  | none =>
      obtain ⟨untouched, uninstalled⟩ := sound.unopened found
      obtain ⟨rfl, rfl⟩ : latest = start.latest ∧
          daily = start.dailyTrafficSum period.periodStart period.periodEnd := by
        have coherent := sound.coherent call
        rw [waits] at coherent
        exact coherent found
      have absent : start.monthly.get? period.month = none := untouched ▸ found
      have guarded : ∀ entry ∈ start.latest, start.matches entry.1 entry.2.guard = true := by
        intro entry newest
        simp [Ledger.matches, OrderedMap.get?_eq_some.mpr (latest_mem newest)]
      have inside := today_mem_period env target (calls call).ts
      rw [same] at inside
      rw [untouched]
      have opened := booked_planInsert raw absent guarded inside
        (start.dailyTrafficSum period.periodStart period.periodEnd)
      rw [commit_planInsert _ absent] at opened ⊢
      refine sound.settle_installed _ (OrderedMap.get?_set_self _ _ _) (fun direction => ?_)
        (fun direction => ?_) (fun direction => ?_) (le_max_left _ _) ?_
      · simp [openedRow, openingBytes, openingLast, absent, uninstalled, increments,
          bookedBefore, reading_eq valid]
      · simp [opened direction, openingDays, openingLast, absent, uninstalled, increments,
          reading_eq valid]
      · simp only [openedRow, reading_eq valid]
      · intro other read reads
        obtain ⟨row, present, _⟩ :
            Coherent period calls start race.ledger (.updating read) :=
          reads ▸ sound.coherent other
        rw [found] at present
        cases present

omit valid in
theorem Sound.clean (every : ∀ other, periodOf env target (calls other).ts = period)
    (sound : Sound period calls start race) (waits : race.phase call = .cleaning) :
    Sound period calls start
      { race.move call .finished with ledger := race.ledger.cleanup env (calls call).ts } := by
  obtain ⟨row, found, writer, recent⟩ :
      Coherent period calls start race.ledger .cleaning := waits ▸ sound.coherent call
  have young : (calls call).ts - 400 * 86400 ≤ row.updatedAt := by
    by_contra old
    have before := retention_before_period env
      (.finite (trafficResetDayFromTarget target env)) (calls call).ts
    have inside := (dayFromSec_mem_period env
      (.finite (trafficResetDayFromTarget target env)) (calls writer).ts).1
    have later := dayFromSec_mono env (recent.trans (not_le.mp old).le)
    have first : (periodOf env target (calls call).ts).periodStart =
        (periodOf env target (calls writer).ts).periodStart := by rw [same, every writer]
    exact absurd (inside.trans later) (not_le.mpr (before.trans_eq first))
  have kept : (race.ledger.cleanup env (calls call).ts).monthly.get? period.month =
      race.ledger.monthly.get? period.month := by
    rw [found]
    exact (OrderedMap.get?_filter _ _).mpr ⟨found, by simpa using young⟩
  refine ⟨fun absent => ?_, fun stored member direction => ?_, fun stored member => ?_,
    fun other => ?_⟩
  · rw [kept, found] at absent
    cases absent
  · rw [kept] at member
    have untouched := booked_cleanup env target race.ledger (calls call).ts stored direction
    rw [same] at untouched
    rw [untouched]
    exact sound.credited stored member direction
  · rw [kept] at member
    exact sound.last stored member
  · refine coherent_of_get? kept ?_
    by_cases self : other = call
    · subst self
      simp [Race.move, Coherent]
    · simpa [Race.move, self] using sound.coherent other

omit valid same in
/-- The step lemma. -/
theorem Sound.step (every : ∀ other, periodOf env target (calls other).ts = period)
    (sound : Sound period calls start race) (noReturn : NoReturn env target calls race call) :
    Sound period calls start (Race.step env target calls race call) := by
  unfold Race.step
  split
  · rename_i raw _ valid
    rw [every call, Race.advance]
    have read := sound.coherent call
    split <;> rename_i waits
    · split
      · rename_i row found
        refine sound.move _ _ ?_
        split
        · trivial
        · exact ⟨row, found, fun _ => rfl⟩
      · exact sound.move _ _ trivial
    · exact sound.move _ _ fun absent => by rw [(sound.unopened absent).1]
    · rw [waits] at read
      exact sound.move _ _ fun absent => ⟨read absent, by rw [(sound.unopened absent).1]⟩
    · exact sound.update valid (every call) waits noReturn
    · exact sound.insert valid (every call) waits
    · exact sound.clean (every call) every waits
    · exact sound
  · exact sound.move _ _ trivial

end Sound

/-- A stale call changes neither the monthly rows nor the days. -/
theorem step_of_stale [DecidableEq ι] {env : Env} {target : Target} {calls : ι → Report}
    {period : TrafficPeriod} {start : Ledger} {race : Race ι} {call : ι}
    (same : periodOf env target (calls call).ts = period)
    (sound : Sound period calls start race) (stale : Stale period race call) :
    (step env target calls race call).ledger = race.ledger := by
  unfold Race.step
  split
  · rename_i raw _ valid
    rw [same, Race.advance]
    unfold Stale at stale
    split at stale
    · rename_i read waits
      obtain ⟨stored, found, unchanged⟩ :
          Coherent period calls start race.ledger (.updating read) := waits ▸ sound.coherent call
      rw [waits]
      simp only [settle]
      rw [commit_planUpdate_of_stale]
      intro other found' fresh
      rw [found, Option.some.injEq] at found'
      exact stale stored found (found' ▸ fresh) (unchanged (found' ▸ fresh))
    · rename_i latest daily waits
      rw [waits]
      obtain ⟨stored, found⟩ := Option.ne_none_iff_exists'.mp stale
      simp only [settle, commit_planInsert_of_conflict daily found]
    · exact stale.elim
  · rfl

/-- As long as no commit brings back columns that a call in flight has read, what is
installed is credited once, in the monthly row and in the days, and a stale call changes
nothing. -/
theorem credited_once [DecidableEq ι] (env : Env) (target : Target) (calls : ι → Report)
    (period : TrafficPeriod) (every : ∀ call, periodOf env target (calls call).ts = period)
    (ledger : Ledger) (schedule : List ι)
    (noReturn : Runs.Along (step env target calls) (NoReturn env target calls)
      (Race.start ι ledger) schedule) :
    let race := Runs.run (step env target calls) (Race.start ι ledger) schedule
    CreditedOnce period ledger race ∧
      ∀ call, Stale period race call → (step env target calls race call).ledger = race.ledger := by
  intro race
  have sound : Sound period calls ledger race :=
    Runs.run_invariant (fun _ _ sound allowed => sound.step every allowed)
      (sound_start calls period ledger) noReturn
  exact ⟨sound.credited, fun call stale => step_of_stale (every call) sound stale⟩

/-! Two schedules over one ledger, whose row still holds the bytes of an unfinished day. -/

def january : TrafficPeriod := ⟨0, 1, 0, 31⟩

def unfinished : MonthlyRow where
  bytes := fun _ => 1000
  last := fun _ => some 100
  activeDay := some 2
  dayBytes := fun _ => 50
  updatedAt := 170000

def unfinishedLedger : Ledger := ⟨OrderedMap.empty.set 0 unfinished, OrderedMap.empty⟩

/-- Two calls of the next day that read the same row. -/
def twoCalls : Bool → Report
  | false => .ofBytes 150 150 259200 (by decide)
  | true => .ofBytes 200 200 259260 (by decide)

theorem credited_once_twoCalls :
    let race := Runs.run (step {} monthlyTarget twoCalls) (Race.start Bool unfinishedLedger)
      [false, true, true, false, true]
    CreditedOnce january unfinishedLedger race ∧
      race.ledger.monthlyBytes 0 .rx = 1100 ∧ race.ledger.dailyTrafficSum 0 31 .rx = 50 := by
  refine ⟨(credited_once {} monthlyTarget twoCalls january (by decide +kernel) unfinishedLedger
    [false, true, true, false, true] (by decide +kernel)).1, ?_, ?_⟩
  all_goals decide +kernel

/-- Two calls of the next day and one that was made just before midnight and runs late;
the counters do not move. -/
def lateCalls : Fin 3 → Report
  | 0 => .ofBytes 100 100 259200 (by decide)
  | 1 => .ofBytes 100 100 259260 (by decide)
  | 2 => .ofBytes 100 100 230300 (by decide)

/-- The late call brings the row back to the day that the first call has read, and the
first call books the finished day a second time. -/
theorem finished_day_booked_twice :
    let race := Runs.run (step {} monthlyTarget lateCalls) (Race.start (Fin 3) unfinishedLedger)
      [0, 1, 1, 1, 2, 2, 0]
    (∀ call, periodOf {} monthlyTarget (lateCalls call).ts = january) ∧
      increments (openingLast unfinishedLedger january .rx)
        (race.installed.map fun reading => reading .rx) = 0 ∧
      openingDays unfinishedLedger january .rx = 50 ∧
      race.ledger.monthlyBytes 0 .rx = 1000 ∧
      race.ledger.dailyTrafficSum 0 31 .rx = 100 ∧
      ¬ CreditedOnce january unfinishedLedger race := by
  refine ⟨by decide +kernel, by decide +kernel, by decide +kernel, by decide +kernel,
    by decide +kernel, fun once => ?_⟩
  have days := (once ⟨fun _ => 1000, fun _ => some 100, some 3, fun _ => 0, 259200⟩
    (by decide +kernel) .rx).2
  revert days
  decide +kernel

end Race

end NieSla.Traffic
