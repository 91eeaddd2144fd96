import NieSla.Availability.Segments

/-! The rows of `agent_daily_availability` of one agent, and `recordAgentAvailability`. -/
namespace NieSla.Availability

structure AvailabilityRow where
  totalSec : Int
  onlineSec : Int
  updatedAt : Int
deriving DecidableEq

abbrev Table := OrderedMap Int AvailabilityRow

def AvailabilityRow.seconds (row : AvailabilityRow) : DaySeconds := ⟨row.totalSec, row.onlineSec⟩

/-- What the table has accumulated for a day. -/
def tableAt (table : Table) (day : Int) : DaySeconds :=
  ((table.get? day).map AvailabilityRow.seconds).getD 0

/-- The upsert of one segment. -/
def upsertRow (updatedAt : Int) (table : Table) (segment : Int × DaySeconds) : Table :=
  match table.get? segment.1 with
  | none => table.set segment.1 ⟨segment.2.total, segment.2.okCount, updatedAt⟩
  | some row =>
      table.set segment.1
        ⟨row.totalSec + segment.2.total, row.onlineSec + segment.2.okCount, updatedAt⟩

def localDay (timestamp : Int) (env : Env) : Option Int :=
  if timestamp = 0 then none else some (dayFromSec timestamp env)

/-- `DELETE … WHERE day < cutoff`. -/
def pruneDays (table : Table) (currentAt : Int) (env : Env) : Table :=
  table.filter fun day _ =>
    (localDay (currentAt - retentionDays env * 86400) env).all fun cutoff => cutoff ≤ day

/-- The statement that fails, if one does. -/
inductive Fault where
  | batch
  | prune
deriving DecidableEq

/-- `recordAgentAvailability`: the new table, and whether the call returned. -/
def recordAgentAvailability (env : Env) (previousAt currentAt : Int) (fault : Option Fault)
    (table : Table) : Table × Bool :=
  let segments := agentAvailabilitySegments previousAt currentAt env
  if segments = [] then (table, true)
  else if fault = some .batch then (table, false)
  else
    let written := segments.foldl (upsertRow currentAt) table
    if localDay previousAt env = localDay currentAt env then (written, true)
    else if fault = some .prune then (written, false)
    else (pruneDays written currentAt env, true)

theorem tableAt_upsertRow (updatedAt : Int) (table : Table) (segment : Int × DaySeconds)
    (day : Int) :
    tableAt (upsertRow updatedAt table segment) day =
      tableAt table day + if segment.1 = day then segment.2 else 0 := by
  unfold upsertRow tableAt
  by_cases same : segment.1 = day
  · subst same
    cases found : table.get? segment.1 with
    | none => simp [AvailabilityRow.seconds]
    | some row => ext <;> simp [AvailabilityRow.seconds]
  · have other : day ≠ segment.1 := Ne.symm same
    split <;> simp [OrderedMap.get?_set_of_ne _ _ other, same]

theorem tableAt_foldl_upsertRow (updatedAt : Int) (segments : List (Int × DaySeconds))
    (table : Table) (day : Int) :
    tableAt (segments.foldl (upsertRow updatedAt) table) day =
      tableAt table day + segmentsAt segments day := by
  induction segments generalizing table with
  | nil => simp [segmentsAt]
  | cons segment rest ih =>
      rw [List.foldl_cons, ih, tableAt_upsertRow, add_assoc]
      rfl

theorem tableAt_pruneDays {env : Env} {currentAt day : Int} (table : Table)
    (retained : dayFromSec (currentAt - retentionDays env * 86400) env ≤ day) :
    tableAt (pruneDays table currentAt env) day = tableAt table day := by
  have kept : (pruneDays table currentAt env).get? day = table.get? day := by
    ext row
    rw [pruneDays, OrderedMap.get?_filter]
    refine and_iff_left_of_imp fun _ => ?_
    unfold localDay
    split <;> simp [retained]
  rw [tableAt, tableAt, kept]

/-- A call that returns has added its segments to the days that are retained. -/
theorem tableAt_recordAgentAvailability {env : Env} {previousAt currentAt : Int}
    {fault : Option Fault} {table : Table}
    (returned : (recordAgentAvailability env previousAt currentAt fault table).2 = true)
    {day : Int} (retained : dayFromSec (currentAt - retentionDays env * 86400) env ≤ day) :
    tableAt (recordAgentAvailability env previousAt currentAt fault table).1 day =
      tableAt table day +
        segmentsAt (agentAvailabilitySegments previousAt currentAt env) day := by
  unfold recordAgentAvailability at *
  dsimp only at *
  split
  · rename_i nothing
    simp [nothing, segmentsAt]
  · split
    · simp_all
    · split
      · exact tableAt_foldl_upsertRow ..
      · split
        · simp_all
        · rw [tableAt_pruneDays _ retained]
          exact tableAt_foldl_upsertRow ..

/-- Whether a call returns does not depend on the rows. -/
theorem recordAgentAvailability_returned (env : Env) (previousAt currentAt : Int)
    (fault : Option Fault) (table table' : Table) :
    (recordAgentAvailability env previousAt currentAt fault table).2 =
      (recordAgentAvailability env previousAt currentAt fault table').2 := by
  unfold recordAgentAvailability
  dsimp only
  split
  · rfl
  · split
    · rfl
    · split
      · rfl
      · split <;> rfl

/-- A call that throws leaves the rows alone, unless its batch is committed and the deletion
of the old days fails. -/
theorem recordAgentAvailability_thrown {env : Env} {previousAt currentAt : Int}
    {fault : Option Fault} {table : Table}
    (thrown : (recordAgentAvailability env previousAt currentAt fault table).2 = false)
    (sameDay : fault = some .prune → localDay previousAt env = localDay currentAt env) :
    (recordAgentAvailability env previousAt currentAt fault table).1 = table := by
  unfold recordAgentAvailability at *
  dsimp only at *
  split
  · rfl
  · split
    · rfl
    · rename_i segments committed
      rw [if_neg segments, if_neg committed] at thrown
      split at thrown
      · cases thrown
      · rename_i crossed
        split at thrown
        · rename_i failed
          exact absurd (sameDay failed) crossed
        · cases thrown

end NieSla.Availability
