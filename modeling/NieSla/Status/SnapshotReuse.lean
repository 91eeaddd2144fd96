import NieSla.Lib.Runs
import NieSla.Status.Independent

/-! Snapshots that are built from the snapshot before. Along a chain of builds the rows of a snapshot are
those of a build without reuse exactly as long as no row of a finished day leaves R2 and D1. -/
namespace NieSla.Status

open CheckBuckets
open OrderedMap (lastBy)

def defaultStatusDays : Int := 30

/-- What is stored, the snapshot, and the build that the snapshot is of: what was stored then, and when. -/
structure SnapshotRun where
  world : World
  snapshot : Option Snapshot
  built : Option (World × Int)

/-- `store` is any change of what is stored, `clear` an edit that deletes the snapshot; a build that fails
before the object is there has not `put` it, and `view` is a payload of so many days for a reader. -/
inductive SnapshotEvent where
  | store (world : World)
  | clear
  | write (now generatedAt : Int) (force put : Bool)
  | view (now days : Int)

section Chain

variable (env : Env) (settings : SnapshotSettings)

/-- `summaries` of a build from what is stored alone. -/
def directSummaries (world : World) (now days : Int) : List SummaryRow :=
  buildSummaries env world settings none false now days

def SnapshotRun.summaries (run : SnapshotRun) (now days : Int) : List SummaryRow :=
  buildSummaries env run.world settings run.snapshot true now days

def SnapshotRun.tooSoon (run : SnapshotRun) (now : Int) (force : Bool) : Bool :=
  let every := clamp (configured settings.statusSnapshotEverySec 60) 30 3600
  let last := (run.snapshot.map Snapshot.generatedAt).getD 0
  !force && last ≠ 0 && now - every < last

def writeStatusSnapshot (run : SnapshotRun) (now generatedAt : Int) (force put : Bool) : SnapshotRun :=
  if !env.archiveBound || !settings.statusSnapshotToR2 then run
  else if run.tooSoon settings now force then run
  else if put then
    { run with
      snapshot := some ⟨generatedAt, run.summaries env settings now defaultStatusDays⟩
      built := some (run.world, now) }
  else run

def SnapshotRun.step (run : SnapshotRun) : SnapshotEvent → SnapshotRun
  | .store world => { run with world }
  | .clear => { run with snapshot := none, built := none }
  | .write now generatedAt force put => writeStatusSnapshot env settings run now generatedAt force put
  | .view _ _ => run

/-- The rows of finished days are those of a build without reuse. -/
def SameRowsAt (run : SnapshotRun) (now days : Int) : Prop :=
  ∀ targetId day, targetId ≠ "" → day < dayFromSec now env →
    dailyRow (run.summaries env settings now days) targetId day =
      dailyRow (directSummaries env settings run.world now days) targetId day

def Unchanged (run : SnapshotRun) : SnapshotEvent → Prop
  | .store _ | .clear => True
  | .write now _ _ _ => SameRowsAt env settings run now defaultStatusDays
  | .view now days => SameRowsAt env settings run now days

/-- While the snapshot is fresh, each row of a finished day that was stored when it was built is still
stored, for the targets that are shown. -/
def StillStored (run : SnapshotRun) (now days : Int) : Prop :=
  ∀ snapshot ∈ run.snapshot, snapshotFresh env settings now snapshot = true → ∀ world at_,
    run.built = some (world, at_) → ∀ targetId day, run.world.active targetId = true →
      run.world.noPublic targetId = false → startDayOf env now days ≤ day → day < dayFromSec now env →
        (dailyRow (directSummaries env settings world at_ defaultStatusDays) targetId day).isSome = true →
          (dailyRow (directSummaries env settings run.world now days) targetId day).isSome = true

def Stays (run : SnapshotRun) : SnapshotEvent → Prop
  | .store _ | .clear => True
  | .write now _ _ _ => StillStored env settings run now defaultStatusDays
  | .view now days => StillStored env settings run now days

end Chain

section Reuse

variable {env : Env} {settings : SnapshotSettings} {world : World} {run : SnapshotRun} {now days day : Int}
  {targetId : String}

theorem sameRows_refl (targetId : String) (world : World) : SameRows targetId world world := ⟨rfl, rfl, fun _ => rfl⟩

/-- A build that uses a snapshot shows a row of it where there is no other. -/
theorem dailyRow_reuse (bound : env.databaseBound = true) (named : targetId ≠ "") (snapshot : Option Snapshot) :
    dailyRow (buildSummaries env world settings snapshot true now days) targetId day =
      (dailyRow (directSummaries env settings world now days) targetId day).or
        (if world.noPublic targetId = true then none
        else dailyRow (cachedSummaries env world settings snapshot true now days) targetId day) := by
  have unused : cachedSummaries env world settings none false now days = [] := rfl
  have d1 (cached : List SummaryRow) :
      dailyRow (fallbackRows env world now days cached) targetId day =
        dailyRow (fallbackRows env world now days []) targetId day := by
    rw [dailyRow_fallbackRows, dailyRow_fallbackRows, get?_d1Summary_congr bound (sameRows_refl targetId world) rfl]
  rw [directSummaries, dailyRow_buildSummaries named, dailyRow_buildSummaries named, Option.or_assoc, unused,
    d1 (cachedSummaries env world settings snapshot true now days)]
  split
  · simp
  · simp only [shownRow, unused, Option.or_assoc]
    rfl

/-- The rows of a snapshot that a build can use. -/
theorem dailyRow_cachedSummaries (named : targetId ≠ "") (snapshot : Snapshot) :
    dailyRow (cachedSummaries env world settings (some snapshot) true now days) targetId day =
      if snapshotFresh env settings now snapshot = true ∧ world.active targetId = true ∧
          startDayOf env now days ≤ day ∧ day < dayFromSec now env then
        dailyRow snapshot.summaries targetId day
      else none := by
  by_cases fresh : snapshotFresh env settings now snapshot = true
  · simp only [cachedSummaries, readRecentSnapshotSummaries, if_true, fresh, true_and]
    split
    next kept =>
      obtain ⟨active, start, stop⟩ := kept
      rw [List.filter_filter]
      refine OrderedMap.lastBy_filter _ fun row same => ?_
      obtain ⟨own, at_⟩ := Prod.mk.inj same
      simp [own, at_, active, named, start, stop]
    next dropped =>
      refine OrderedMap.lastBy_eq_none.mpr fun row member same => dropped ?_
      obtain ⟨own, at_⟩ := Prod.mk.inj same
      obtain ⟨inside, active⟩ := List.mem_filter.mp member
      have bounds := (List.mem_filter.mp inside).2
      simp only [Bool.and_eq_true, decide_eq_true_eq] at bounds
      exact ⟨own ▸ active, at_ ▸ bounds.1.2, at_ ▸ bounds.2⟩
  · simp [cachedSummaries, readRecentSnapshotSummaries, fresh, dailyRow]

/-- The rows of the snapshot are those of what was stored when it was built. -/
def Faithful (env : Env) (settings : SnapshotSettings) (run : SnapshotRun) : Prop :=
  match run.snapshot, run.built with
  | none, none => True
  | some snapshot, some (world, at_) => ∀ targetId day, targetId ≠ "" →
      dailyRow snapshot.summaries targetId day =
        dailyRow (directSummaries env settings world at_ defaultStatusDays) targetId day
  | _, _ => False

theorem sameRowsAt_iff (bound : env.databaseBound = true) (faithful : Faithful env settings run) :
    SameRowsAt env settings run now days ↔ StillStored env settings run now days := by
  simp only [SameRowsAt, StillStored, SnapshotRun.summaries]
  obtain ⟨world, snapshot, built⟩ := run
  cases snapshot with
  | none =>
      have nothing : cachedSummaries env world settings none true now days = [] := rfl
      constructor
      · rintro - snapshot ⟨⟩
      · intro _ targetId day named _
        rw [dailyRow_reuse bound named, nothing]
        simp [dailyRow]
  | some snapshot =>
      obtain _ | ⟨earlier, at_⟩ := built
      · exact faithful.elim
      have stored : ∀ targetId day, targetId ≠ "" → dailyRow snapshot.summaries targetId day =
          dailyRow (directSummaries env settings earlier at_ defaultStatusDays) targetId day := faithful
      constructor
      · rintro same _ ⟨⟩ fresh _ _ ⟨⟩ targetId day active visible start stop there
        have named : targetId ≠ "" := by
          rintro rfl
          simp [World.active] at active
        have row := same targetId day named stop
        rw [dailyRow_reuse bound named, visible, if_neg Bool.false_ne_true, dailyRow_cachedSummaries named,
          if_pos ⟨fresh, active, start, stop⟩, stored targetId day named] at row
        cases direct : dailyRow (directSummaries env settings world now days) targetId day with
        | some shown => rfl
        | none =>
            rw [direct, Option.none_or] at row
            rw [row] at there
            cases there
      · intro stays targetId day named stop
        rw [dailyRow_reuse bound named]
        split
        · rw [Option.or_none]
        next visible =>
          rw [dailyRow_cachedSummaries named]
          split
          next kept =>
            obtain ⟨fresh, active, start, -⟩ := kept
            rw [stored targetId day named]
            cases there : dailyRow (directSummaries env settings earlier at_ defaultStatusDays) targetId day with
            | none => rw [Option.or_none]
            | some row =>
                have still := stays snapshot rfl fresh earlier at_ rfl targetId day active
                  (eq_false_of_ne_true visible) start stop (by simp [there])
                obtain ⟨shown, direct⟩ := Option.isSome_iff_exists.mp still
                rw [direct, Option.some_or]
          · rw [Option.or_none]

theorem unchanged_iff (bound : env.databaseBound = true) (faithful : Faithful env settings run)
    (event : SnapshotEvent) : Unchanged env settings run event ↔ Stays env settings run event := by
  cases event with
  | store | clear => exact Iff.rfl
  | write now generatedAt force put => exact sameRowsAt_iff bound faithful
  | view now days => exact sameRowsAt_iff bound faithful

/-- No row of the present day or a later one comes from a snapshot. -/
theorem dailyRow_unfinished (bound : env.databaseBound = true) (named : targetId ≠ "")
    (later : dayFromSec now env ≤ day) (snapshot : Option Snapshot) :
    dailyRow (buildSummaries env world settings snapshot true now days) targetId day =
      dailyRow (directSummaries env settings world now days) targetId day := by
  have unused : dailyRow (cachedSummaries env world settings snapshot true now days) targetId day = none := by
    cases snapshot with
    | none => rfl
    | some snapshot => rw [dailyRow_cachedSummaries named, if_neg fun kept => kept.2.2.2.not_ge later]
  rw [dailyRow_reuse bound named, unused, ite_self, Option.or_none]

theorem faithful_step (bound : env.databaseBound = true) (faithful : Faithful env settings run)
    (event : SnapshotEvent) (unchanged : Unchanged env settings run event) :
    Faithful env settings (run.step env settings event) := by
  cases event with
  | store world => exact faithful
  | clear => trivial
  | view now days => exact faithful
  | write now generatedAt force put =>
      simp only [SnapshotRun.step, writeStatusSnapshot]
      split
      · exact faithful
      split
      · exact faithful
      split
      · intro targetId day named
        by_cases finished : day < dayFromSec now env
        · exact unchanged targetId day named finished
        · exact dailyRow_unfinished bound named (not_lt.mp finished) _
      · exact faithful

theorem along_unchanged_iff (bound : env.databaseBound = true) (faithful : Faithful env settings run)
    (events : List SnapshotEvent) :
    Runs.Along (SnapshotRun.step env settings) (Unchanged env settings) run events ↔
      Runs.Along (SnapshotRun.step env settings) (Stays env settings) run events := by
  induction events generalizing run with
  | nil => exact Iff.rfl
  | cons event rest ih =>
      constructor
      · rintro ⟨unchanged, along⟩
        exact ⟨(unchanged_iff bound faithful event).mp unchanged,
          (ih (faithful_step bound faithful event unchanged)).mp along⟩
      · rintro ⟨stays, along⟩
        have unchanged := (unchanged_iff bound faithful event).mpr stays
        exact ⟨unchanged, (ih (faithful_step bound faithful event unchanged)).mpr along⟩

end Reuse

/-- No snapshot has been built. -/
def unbuilt (world : World) : SnapshotRun := ⟨world, none, none⟩

/-- For every history of what is stored and every chain of builds. -/
theorem snapshot_reuse_iff {env : Env} (bound : env.databaseBound = true) (settings : SnapshotSettings)
    (world : World) (events : List SnapshotEvent) :
    Runs.Along (SnapshotRun.step env settings) (Unchanged env settings) (unbuilt world) events ↔
      Runs.Along (SnapshotRun.step env settings) (Stays env settings) (unbuilt world) events := by
  have faithful : Faithful env settings (unbuilt world) := trivial
  exact along_unchanged_iff bound faithful events

/-- A build before midnight and one after it, with the rows in R2. -/
def aroundMidnight : List SnapshotEvent := [.write 259100 259101 false true, .write 259300 259301 false true]

theorem snapshot_reuse_aroundMidnight :
    Runs.Along (SnapshotRun.step utc {}) (Unchanged utc {}) (unbuilt webWorld) aroundMidnight := by
  have same : directSummaries utc {} webWorld 259100 30 = directSummaries utc {} webWorld 259300 30 := by
    decide +kernel
  refine (snapshot_reuse_iff rfl {} webWorld aroundMidnight).mpr ⟨?_, ?_, trivial⟩
  · rintro snapshot ⟨⟩
  · rintro snapshot - - world at_ built targetId day - - - - there
    cases built
    have stored : (dailyRow (directSummaries utc {} webWorld 259100 30) targetId day).isSome = true := there
    rw [same] at stored
    exact stored

/-- A target whose checks are in D1 alone, with twenty checks of the day so far. -/
def bucketWorld : World where
  targets := [⟨"web", false⟩]
  r2State := .empty
  latestStatus := OrderedMap.empty.set "web" ⟨258900, true, "auto"⟩
  stores := ⟨OrderedMap.empty.set ("web", 258900) ⟨2, 20, 20, 400, true, some 20, none, none, "auto", none⟩, .empty⟩
  checkBucketDays := .empty
  agentAvailability := []

/-- What was counted before midnight stays until the day is summed up, where a build without reuse has no
row of the day. -/
theorem partial_day_survives :
    ¬ Runs.Along (SnapshotRun.step utc {}) (Unchanged utc {}) (unbuilt bucketWorld) aroundMidnight := by
  rintro ⟨-, unchanged, -⟩
  have row := unchanged "web" 2 (by decide) (by decide +kernel)
  revert row
  decide +kernel

end NieSla.Status
