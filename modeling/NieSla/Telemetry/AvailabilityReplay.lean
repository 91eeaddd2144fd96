import NieSla.Lib.Runs
import NieSla.Telemetry.Intervals

/-! The availability of one agent whose reports are drained and retried. A drain records one
interval for its whole group, so the rows are right as long as the interval of each group
means what its reports mean one by one. -/
namespace NieSla.Telemetry

open Availability

/-- The buffer with the rows of one agent, the end of the interval recorded last, and the
reports accepted so far. -/
structure Watch where
  buffer : ReportBuffer
  table : Table
  recordedTo : Option Int
  accepted : List QueuedReport

namespace Watch

def start (table : Table) : Watch := ⟨.empty, table, none, []⟩

def record (env : Env) (store : Table × Option Int) (call : String × Int × Int × Option Fault) :
    Table × Option Int :=
  let (_, previousAt, currentAt, fault) := call
  let (table, returned) := recordAgentAvailability env previousAt currentAt fault store.1
  (table, if returned then some currentAt else store.2)

def acceptedBy (agentId : String) : Event → List QueuedReport
  | .accept report => ownReports agentId [report.facts]
  | _ => []

def step (env : Env) (agentId : String) (watch : Watch) (event : Event) : Watch :=
  let store := ((availabilityCalls (effectsOf env watch.buffer event)).filter fun call =>
    call.1 = agentId).foldl (record env) (watch.table, watch.recordedTo)
  { buffer := Telemetry.step env watch.buffer event
    table := store.1
    recordedTo := store.2
    accepted := watch.accepted ++ acceptedBy agentId event }

/-- The reports of the agent that are not drained yet. -/
def held (agentId : String) (watch : Watch) : List QueuedReport :=
  ownReports agentId (watch.buffer.draining.getD [] ++ watch.buffer.memReports)

/-- The reports that the drain under way has taken, or the next one takes. -/
def next (agentId : String) (watch : Watch) : List QueuedReport :=
  ownReports agentId (watch.buffer.draining.getD watch.buffer.memReports)

/-- The agent stays in service and without a public address, and the caps take no report. -/
def Served (env : Env) (agentId : String) (watch : Watch) : Event → Prop
  | .accept report =>
      (watch.buffer.memReports ++ [report]).length ≤ maxMemReports ∧
        (watch.buffer.memReportsBytes + estimateReportBytes report ≤ maxMemReportsBytes ∨
          watch.buffer.memReports = [])
  | .startDrain => True
  | .finishDrain outcome =>
      (outcome agentId).gone = false ∧ (outcome agentId).noPublicIp = true ∧
        ∀ reports ∈ watch.buffer.draining,
          (failures (drainGroups env outcome reports) ++ watch.buffer.memReports).length ≤
            maxMemReports
  | .deleteAgent id => id ≠ agentId

/-- The reports that come later than the ones before them. -/
def advancing (group : List QueuedReport) : List QueuedReport :=
  group.filter fun report => report.prevReportAt ≠ some report.ts

/-- The one interval of a group means what its reports mean one by one. -/
def CoversGroup (env : Env) (recordedTo : Option Int) (fault : Option Fault) :
    List QueuedReport → Prop
  | [] => True
  | first :: rest =>
      let lastAt := ((first :: rest).getLast (List.cons_ne_nil first rest)).ts
      if first.drainState.availabilityPersisted then recordedTo = some lastAt
      else
        (first.prevReportAt = none → lastAt = first.ts) ∧
          ∀ previousAt ∈ first.prevReportAt,
            (fault = some .prune → localDay previousAt env = localDay lastAt env) ∧
              (lastAt - previousAt ≤ offlineAfterSec env ∨
                (advancing (first :: rest)).length ≤ 1)

/-- Where the drain of the agent's reports gets to their availability: a group that has been
recorded before has no later report since; a group without a previous report lies in one
moment; any other is within the offline threshold or has one report that comes later, and
where it ends on another day, no old days fail to be deleted after the batch. -/
def Covers (env : Env) (agentId : String) (watch : Watch) : Event → Prop
  | .finishDrain outcome =>
      ∀ reports ∈ watch.buffer.draining,
        appends agentId (outcome agentId) (ownReports agentId reports) = true →
          CoversGroup env watch.recordedTo (outcome agentId).availability
            (ownReports agentId reports)
  | _ => True

instance (env : Env) (agentId : String) (watch : Watch) :
    ∀ event, Decidable (Served env agentId watch event)
  | .accept _ => inferInstanceAs (Decidable (_ ∧ (_ ∨ _)))
  | .startDrain => .isTrue trivial
  | .finishDrain _ => inferInstanceAs (Decidable (_ ∧ _ ∧ ∀ reports ∈ _, _))
  | .deleteAgent id => inferInstanceAs (Decidable (id ≠ agentId))

instance (env : Env) (recordedTo : Option Int) (fault : Option Fault) :
    ∀ group, Decidable (CoversGroup env recordedTo fault group)
  | [] => .isTrue trivial
  | first :: _ =>
      inferInstanceAs (Decidable (if first.drainState.availabilityPersisted then _
        else _ ∧ ∀ previousAt ∈ first.prevReportAt, _))

instance (env : Env) (agentId : String) (watch : Watch) :
    ∀ event, Decidable (Covers env agentId watch event)
  | .finishDrain _ => inferInstanceAs (Decidable (∀ reports ∈ watch.buffer.draining, _ → _))
  | .accept _ | .startDrain | .deleteAgent _ => .isTrue trivial

/-- The day is retained at the time of every report. -/
def Retained (env : Env) (accepted : List QueuedReport) (day : Int) : Prop :=
  ∀ report ∈ accepted, dayFromSec (report.ts - retentionDays env * 86400) env ≤ day

instance (env : Env) (accepted : List QueuedReport) (day : Int) :
    Decidable (Retained env accepted day) :=
  inferInstanceAs (Decidable (∀ report ∈ accepted, _))

/-! The invariant. -/

def unmarked (reports : List QueuedReport) : List (QueuedReport × Bool) :=
  reports.map fun report => (report, false)

/-- Of the reports held, the first remembers that the covered ones are recorded. -/
def marked (covered rest : List QueuedReport) : List (QueuedReport × Bool) :=
  match covered with
  | [] => unmarked rest
  | first :: more => (first, true) :: unmarked (more ++ rest)

/-- The drained reports are recorded; of those held, the first ones may be, all together. -/
structure Balance (env : Env) (agentId : String) (table : Table) (watch : Watch)
    (drained covered rest : List QueuedReport) : Prop where
  accepted : watch.accepted = drained ++ (covered ++ rest)
  held : view (watch.held agentId) = marked covered rest
  taken : covered <+: facts (watch.next agentId)
  reached : covered ≠ [] → watch.recordedTo = lastAt none covered
  rows : ∀ day, Retained env watch.accepted day →
    tableAt watch.table day = tableAt table day + sumOf env day (drained ++ covered)

def Balanced (env : Env) (agentId : String) (table : Table) (previous : Option Int)
    (watch : Watch) : Prop :=
  Linked previous watch.accepted →
    ∃ drained covered rest, Balance env agentId table watch drained covered rest

section Marks

theorem view_append (first second : List QueuedReport) :
    view (first ++ second) = view first ++ view second := List.map_append

theorem map_fst_unmarked (reports : List QueuedReport) :
    (unmarked reports).map Prod.fst = reports := by
  simp [unmarked, Function.comp_def]

theorem map_fst_marked (covered rest : List QueuedReport) :
    (marked covered rest).map Prod.fst = covered ++ rest := by
  cases covered with
  | nil => exact map_fst_unmarked rest
  | cons first more => simp [marked, map_fst_unmarked]

theorem marked_append (covered rest later : List QueuedReport) :
    marked covered (rest ++ later) = marked covered rest ++ unmarked later := by
  cases covered with
  | nil => exact List.map_append
  | cons first more => simp [marked, unmarked]

/-- Reports with the marks of `covered ++ rest` in two parts, the first with the covered. -/
theorem split_marked {group queued : List QueuedReport} {covered rest : List QueuedReport}
    (together : view (group ++ queued) = marked covered rest) (taken : covered <+: facts group) :
    ∃ middle, facts group = covered ++ middle ∧ rest = middle ++ facts queued ∧
      view group = marked covered middle ∧ view queued = unmarked (facts queued) := by
  obtain ⟨middle, own⟩ := taken
  have whole : facts group ++ facts queued = covered ++ rest := by
    rw [← facts_append, ← map_fst_view, together, map_fst_marked]
  rw [← own, List.append_assoc] at whole
  have later := List.append_cancel_left whole
  rw [view_append, ← later, marked_append] at together
  have size : (view group).length = (marked covered middle).length := by
    calc (view group).length = (facts group).length := by rw [← map_fst_view, List.length_map]
      _ = (marked covered middle).length := by rw [← own, ← map_fst_marked, List.length_map]
  obtain ⟨first, second⟩ := List.append_inj together size
  exact ⟨middle, own.symm, later.symm, first, second⟩

end Marks

/-! What one group contributes. -/

section Group

variable {env : Env} {recordedTo : Option Int} {fault : Option Fault}

private theorem lastAt_facts (previous : Option Int) (first : QueuedReport)
    (rest : List QueuedReport) :
    lastAt previous (facts (first :: rest)) =
      some ((first :: rest).getLast (List.cons_ne_nil first rest)).ts := by
  rw [lastAt, facts, List.getLast?_map,
    List.getLast?_eq_some_getLast (List.cons_ne_nil first rest)]
  rfl

private theorem lastAt_cons_none (previous : Option Int) (first : QueuedReport)
    (rest : List QueuedReport) : lastAt previous (first :: rest) = lastAt none (first :: rest) := by
  rw [lastAt_cons, lastAt_cons]

/-- Where no interval is recorded, the reports that are not covered bring no time. -/
theorem sumOf_uncovered (day : Int) {group covered rest : List QueuedReport} {previous : Option Int}
    (marks : view group = marked covered rest) (linked : Linked previous (facts group))
    (reached : covered ≠ [] → recordedTo = lastAt none covered)
    (covers : CoversGroup env recordedTo fault group)
    (nothing : recordedInterval true group = none) : sumOf env day rest = 0 := by
  have own : facts group = covered ++ rest := by rw [← map_fst_view, marks, map_fst_marked]
  cases group with
  | nil =>
      have empty := (List.append_eq_nil_iff.mp own.symm).2
      rw [empty, sumOf_nil]
  | cons first others =>
      have whole := lastAt_facts previous first others
      have latest := linked.ts_le whole
      cases covered with
      | nil =>
          have flag : first.drainState.availabilityPersisted = false := by
            have heads := congrArg List.head? marks
            cases rest with
            | nil => cases own
            | cons report rest => exact congrArg Prod.snd (Option.some.inj heads)
          have unknown : first.prevReportAt = none := by
            cases known : first.prevReportAt with
            | none => rfl
            | some previousAt => simp [recordedInterval, flag, known] at nothing
          have moment : ((first :: others).getLast (List.cons_ne_nil first others)).ts =
              first.ts := by
            simp only [CoversGroup, flag, Bool.false_eq_true, ↓reduceIte] at covers
            exact covers.1 unknown
          have still : sumOf env day (facts others) = 0 := by
            apply sumOf_still linked.2.2
            intro report member
            have before := latest report (List.mem_cons_of_mem first.facts member)
            exact before.trans_eq moment
          have unrecorded : segmentsOf env day first.facts = 0 := by
            simp [segmentsOf, QueuedReport.facts, unknown]
          rw [List.nil_append] at own
          rw [← own, facts_cons, sumOf_cons, unrecorded, still, add_zero]
      | cons covered more =>
          have flag : first.drainState.availabilityPersisted = true :=
            congrArg Prod.snd (List.cons.inj marks).1
          have recorded : recordedTo =
              some ((first :: others).getLast (List.cons_ne_nil first others)).ts := by
            simpa [CoversGroup, flag] using covers
          rw [own] at linked latest
          have later := (linked_append.mp linked).2
          rw [lastAt_cons_none, ← reached (List.cons_ne_nil covered more), recorded] at later
          apply sumOf_still later
          intro report member
          exact latest report (List.mem_append_right _ member)

/-- The interval that a group records means what its reports mean. -/
theorem sumOf_recorded (day : Int) {group covered rest : List QueuedReport} {previous : Option Int}
    {previousAt currentAt : Int}
    (marks : view group = marked covered rest) (linked : Linked previous (facts group))
    (covers : CoversGroup env recordedTo fault group)
    (interval : recordedInterval true group = some (previousAt, currentAt)) :
    covered = [] ∧ lastAt none (facts group) = some currentAt ∧
      (∃ report ∈ facts group, report.ts = currentAt) ∧
      (fault = some .prune → localDay previousAt env = localDay currentAt env) ∧
      sumOf env day (facts group) =
        segmentsAt (agentAvailabilitySegments previousAt currentAt env) day := by
  cases group with
  | nil => cases interval
  | cons first others =>
      simp only [recordedInterval] at interval
      split at interval
      · rename_i before _ known flag
        obtain ⟨rfl, rfl⟩ := Prod.mk.inj (Option.some.inj interval)
        have uncovered : covered = [] := by
          cases covered with
          | nil => rfl
          | cons covered more =>
              have recorded : first.drainState.availabilityPersisted = true :=
                congrArg Prod.snd (List.cons.inj marks).1
              rw [flag] at recorded
              cases recorded
        simp only [CoversGroup, flag, Bool.false_eq_true, ↓reduceIte] at covers
        obtain ⟨sameDay, means⟩ := covers.2 before known
        have start : previous = some before := linked.1.symm.trans known
        subst start
        have ends := lastAt_facts (some before) first others
        refine ⟨uncovered, lastAt_facts none first others, ?_, sameDay, ?_⟩
        · exact ⟨_, List.mem_map_of_mem (List.getLast_mem _), rfl⟩
        · rcases means with short | once
          · obtain ⟨positive, forward⟩ := linked.2.1 _ rfl
            have last := linked.ts_le ends first.facts List.mem_cons_self
            rw [sumOf_short linked ends short,
              segmentsAt_short positive (forward.trans last) short]
          · apply sumOf_advancing linked ends
            have same : (facts (first :: others)).filter (fun report =>
                report.prevReportAt ≠ some report.ts) = facts (advancing (first :: others)) :=
              List.filter_map
            rw [same]
            exact (List.length_map _).trans_le once
      · cases interval

end Group

/-! One step. -/

section Step

variable {env : Env} {agentId : String} {table : Table} {watch after : Watch}
  {drained covered rest reports : List QueuedReport} {previous : Option Int}

theorem Retained.of_append {first second : List QueuedReport} {day : Int}
    (retained : Retained env (first ++ second) day) : Retained env first day :=
  fun report member => retained report (List.mem_append_left second member)

private theorem evict_of_fits {reports : List QueuedReport} {bytes : Int}
    (size : reports.length ≤ maxMemReports)
    (fits : bytes ≤ maxMemReportsBytes ∨ reports.length ≤ 1) :
    evict reports bytes = (reports, bytes) := by
  cases reports with
  | nil => rfl
  | cons report rest =>
      unfold evict
      rw [if_neg]
      omega

private theorem requeue_of_fits {failed queued : List QueuedReport}
    (fits : (failed ++ queued).length ≤ maxMemReports) :
    requeue failed queued = failed ++ queued := by
  unfold requeue
  split
  · rename_i nothing
    rw [nothing, List.nil_append]
  · rw [Nat.sub_eq_zero_of_le fits, List.drop_zero]

private theorem view_new (agentId : String) (report : QueuedReport) :
    view (ownReports agentId [report.facts]) = unmarked (ownReports agentId [report.facts]) := by
  unfold ownReports
  by_cases own : sanitizeAgentId report.facts.agentId = agentId
  · simp only [own, decide_true, List.filter_cons_of_pos, List.filter_nil]
    rfl
  · simp [own, view, unmarked]

private theorem facts_new (agentId : String) (report : QueuedReport) :
    facts (ownReports agentId [report.facts]) = ownReports agentId [report.facts] := by
  rw [← map_fst_view, view_new, map_fst_unmarked]

theorem balance_accept {report : QueuedReport}
    (balance : Balance env agentId table watch drained covered rest)
    (served : Served env agentId watch (.accept report)) :
    Balance env agentId table (step env agentId watch (.accept report)) drained covered
      (rest ++ ownReports agentId [report.facts]) := by
  have queue : (Telemetry.step env watch.buffer (.accept report)).memReports =
      watch.buffer.memReports ++ [report.facts] := by
    have fits : (evict (watch.buffer.memReports ++ [report.facts])
        (watch.buffer.memReportsBytes + estimateReportBytes report.facts)).1 =
          watch.buffer.memReports ++ [report.facts] := by
      rw [evict_of_fits]
      · simpa using served.1
      · rcases served.2 with small | empty
        · exact .inl small
        · simp [empty]
    exact fits
  have holds : held agentId (step env agentId watch (.accept report)) =
      held agentId watch ++ ownReports agentId [report.facts] := by
    change ownReports agentId (watch.buffer.draining.getD [] ++
      (Telemetry.step env watch.buffer (.accept report)).memReports) = _
    rw [queue, ← List.append_assoc, ownReports_append]
    rfl
  constructor
  · change watch.accepted ++ ownReports agentId [report.facts] = _
    rw [balance.accepted, List.append_assoc, List.append_assoc]
  · rw [holds, view_append, balance.held, view_new, marked_append]
  · have taken := balance.taken
    unfold next at *
    change _ <+: facts (ownReports agentId (watch.buffer.draining.getD
      (Telemetry.step env watch.buffer (.accept report)).memReports))
    cases running : watch.buffer.draining with
    | none =>
        rw [running] at taken
        rw [queue, Option.getD_none, ownReports_append, facts_append]
        exact taken.trans (List.prefix_append _ _)
    | some reports =>
        rw [running] at taken
        exact taken
  · exact balance.reached
  · intro day retained
    exact balance.rows day retained.of_append

theorem Balance.congr (balance : Balance env agentId table watch drained covered rest)
    (accepted : after.accepted = watch.accepted) (holds : after.held agentId = watch.held agentId)
    (takes : after.next agentId = watch.next agentId) (rows : after.table = watch.table)
    (recorded : after.recordedTo = watch.recordedTo) :
    Balance env agentId table after drained covered rest := by
  constructor
  · exact accepted.trans balance.accepted
  · rw [holds, balance.held]
  · rw [takes]
    exact balance.taken
  · rw [recorded]
    exact balance.reached
  · rw [accepted, rows]
    exact balance.rows

theorem balance_startDrain (balance : Balance env agentId table watch drained covered rest) :
    Balance env agentId table (step env agentId watch .startDrain) drained covered rest := by
  apply balance.congr
  · exact List.append_nil _
  · simp only [held, step, Telemetry.step]
    split
    · rename_i queued running
      simp [running]
    · rfl
  · simp only [next, step, Telemetry.step]
    split
    · rename_i queued running
      simp [running]
    · rfl
  · rfl
  · rfl

theorem balance_deleteAgent {id : String} (other : id ≠ agentId)
    (balance : Balance env agentId table watch drained covered rest) :
    Balance env agentId table (step env agentId watch (.deleteAgent id)) drained covered
      rest := by
  have queue : ownReports agentId (step env agentId watch (.deleteAgent id)).buffer.memReports =
      ownReports agentId watch.buffer.memReports := by
    change ownReports agentId (watch.buffer.memReports.filter _) = _
    unfold ownReports
    rw [List.filter_filter]
    apply List.filter_congr
    intro report _
    by_cases own : sanitizeAgentId report.agentId = agentId
    · simp [own, other.symm]
    · simp [own]
  apply balance.congr
  · exact List.append_nil _
  · rw [held, held, ownReports_append, ownReports_append, queue]
    rfl
  · unfold next
    change ownReports agentId (watch.buffer.draining.getD _) = _
    cases watch.buffer.draining with
    | none => exact queue
    | some reports => rfl
  · rfl
  · rfl

/-! A drain ends. -/

/-- What a drain that has worked on `group` leaves of the agent's reports. -/
def leaves (agentId : String) (watch after : Watch) (back : List QueuedReport) : Prop :=
  after.buffer.draining = none ∧ after.accepted = watch.accepted ∧
    ownReports agentId after.buffer.memReports =
      back ++ ownReports agentId watch.buffer.memReports

private theorem held_leaves {back : List QueuedReport} (left : leaves agentId watch after back) :
    after.held agentId = back ++ ownReports agentId watch.buffer.memReports ∧
      after.next agentId = back ++ ownReports agentId watch.buffer.memReports := by
  obtain ⟨idle, _, queue⟩ := left
  rw [held, next, idle, Option.getD_none, Option.getD_none, List.nil_append, queue]
  exact ⟨rfl, rfl⟩

/-- The reports of the group and the marks they have. -/
private theorem split_balance (balance : Balance env agentId table watch drained covered rest)
    (running : watch.buffer.draining = some reports) :
    ∃ middle, facts (ownReports agentId reports) = covered ++ middle ∧
      rest = middle ++ facts (ownReports agentId watch.buffer.memReports) ∧
      view (ownReports agentId reports) = marked covered middle ∧
      view (ownReports agentId watch.buffer.memReports) =
        unmarked (facts (ownReports agentId watch.buffer.memReports)) := by
  have holds := balance.held
  have taken := balance.taken
  rw [held, running, Option.getD_some, ownReports_append] at holds
  rw [next, running, Option.getD_some] at taken
  exact split_marked holds taken

/-- The group is done, and all of it is recorded. -/
theorem balance_drained (balance : Balance env agentId table watch drained covered rest)
    (running : watch.buffer.draining = some reports) (left : leaves agentId watch after [])
    (rows : ∀ day, Retained env watch.accepted day → tableAt after.table day =
      tableAt table day + sumOf env day (drained ++ facts (ownReports agentId reports))) :
    Balance env agentId table after (drained ++ facts (ownReports agentId reports)) []
      (facts (ownReports agentId watch.buffer.memReports)) := by
  obtain ⟨middle, group, later, _, unrecorded⟩ := split_balance balance running
  obtain ⟨holds, takes⟩ := held_leaves left
  constructor
  · rw [left.2.1, balance.accepted, later, group]
    simp only [List.append_assoc, List.nil_append]
  · rw [holds, List.nil_append, unrecorded]
    rfl
  · exact List.nil_prefix
  · exact absurd rfl
  · rw [left.2.1, List.append_nil]
    exact rows

/-- The group comes back as it was. -/
theorem balance_kept {back : List QueuedReport}
    (balance : Balance env agentId table watch drained covered rest)
    (running : watch.buffer.draining = some reports) (left : leaves agentId watch after back)
    (same : view back = view (ownReports agentId reports)) (rows : after.table = watch.table)
    (recorded : after.recordedTo = watch.recordedTo) :
    Balance env agentId table after drained covered rest := by
  obtain ⟨holds, takes⟩ := held_leaves left
  have before := balance.held
  have taken := balance.taken
  rw [held, running, Option.getD_some, ownReports_append] at before
  rw [next, running, Option.getD_some] at taken
  constructor
  · exact left.2.1.trans balance.accepted
  · rw [holds, view_append, same, ← view_append, before]
  · rw [takes, facts_append, facts_of_view same]
    exact taken.trans (List.prefix_append _ _)
  · rw [recorded]
    exact balance.reached
  · rw [left.2.1, rows]
    exact balance.rows

/-- The group comes back, and all of it is recorded now. -/
theorem balance_marked {back : List QueuedReport}
    (balance : Balance env agentId table watch drained [] rest)
    (running : watch.buffer.draining = some reports) (left : leaves agentId watch after back)
    (some_ : facts (ownReports agentId reports) ≠ [])
    (marks : view back = markFirst (view (ownReports agentId reports)))
    (rows : ∀ day, Retained env watch.accepted day → tableAt after.table day =
      tableAt table day + sumOf env day (drained ++ facts (ownReports agentId reports)))
    (recorded : after.recordedTo = lastAt none (facts (ownReports agentId reports))) :
    Balance env agentId table after drained (facts (ownReports agentId reports))
      (facts (ownReports agentId watch.buffer.memReports)) := by
  obtain ⟨middle, group, later, before, unrecorded⟩ := split_balance balance running
  obtain ⟨holds, takes⟩ := held_leaves left
  rw [List.nil_append] at group
  constructor
  · rw [left.2.1, balance.accepted, later, group, List.nil_append]
  · rw [holds, view_append, marks, before, unrecorded, group]
    cases middle with
    | nil => exact absurd group some_
    | cons first more => simp [marked, unmarked, markFirst]
  · have same : facts back = facts (ownReports agentId reports) := by
      rw [← map_fst_view, marks, map_fst_markFirst, map_fst_view]
    rw [takes, facts_append, same]
    exact List.prefix_append _ _
  · exact fun _ => recorded
  · rw [left.2.1]
    exact rows

/-- The drain of the agent's group is all that the end of a drain does to the agent. -/
private theorem step_finishDrain {outcome : Outcome} (named : agentId ≠ "")
    (running : watch.buffer.draining = some reports)
    (sorted : (ownReports agentId reports).Pairwise fun first second => first.ts ≤ second.ts)
    (served : Served env agentId watch (.finishDrain outcome)) :
    let after := step env agentId watch (.finishDrain outcome)
    let result := drainGroup env agentId (outcome agentId) (ownReports agentId reports)
    if ownReports agentId reports = [] then
      leaves agentId watch after [] ∧ after.table = watch.table ∧
        after.recordedTo = watch.recordedTo
    else
      leaves agentId watch after (if result.failed then result.group else []) ∧
        (after.table, after.recordedTo) =
          (availabilityCalls result.effects).foldl (record env) (watch.table, watch.recordedTo) := by
  intro after result
  have queue : after.buffer.memReports =
      failures (drainGroups env outcome reports) ++ watch.buffer.memReports := by
    simp only [after, step, Telemetry.step, running]
    exact requeue_of_fits (served.2.2 reports running)
  have idle : after.buffer.draining = none := by
    simp only [after, step, Telemetry.step, running]
  have accepted : after.accepted = watch.accepted := List.append_nil _
  have stored : (after.table, after.recordedTo) =
      ((((groupReports reports).get? agentId).map fun group =>
        availabilityCalls (drainGroup env agentId (outcome agentId) group).effects).getD
          []).foldl (record env) (watch.table, watch.recordedTo) := by
    rw [← ownCalls_effects]
    simp only [after, step, effectsOf, running]
  have group := get?_groupReports named sorted
  have back := ownReports_failures env agentId outcome reports
  unfold leaves
  rw [queue, ownReports_append]
  split
  · rename_i nothing
    rw [if_pos nothing] at group
    rw [group] at stored back
    obtain ⟨rows, recorded⟩ := Prod.mk.inj stored
    exact ⟨⟨idle, accepted, congrArg (· ++ _) back⟩, rows, recorded⟩
  · rename_i something
    rw [if_neg something] at group
    rw [group] at stored back
    exact ⟨⟨idle, accepted, congrArg (· ++ _) back⟩, stored⟩

theorem balance_finishDrain {outcome : Outcome} (named : agentId ≠ "")
    (linked : Linked previous watch.accepted)
    (balance : Balance env agentId table watch drained covered rest)
    (served : Served env agentId watch (.finishDrain outcome))
    (covers : Covers env agentId watch (.finishDrain outcome)) :
    ∃ drained covered rest, Balance env agentId table
      (step env agentId watch (.finishDrain outcome)) drained covered rest := by
  cases running : watch.buffer.draining with
  | none =>
      refine ⟨drained, covered, rest, balance.congr (List.append_nil _) ?_ ?_ ?_ ?_⟩
      all_goals simp only [held, next, step, Telemetry.step, effectsOf, running, availabilityCalls,
        List.filterMap_nil, List.filter_nil, List.foldl_nil]
  | some reports =>
      obtain ⟨middle, group, later, marks, _⟩ := split_balance balance running
      have ownLinked : Linked (lastAt previous drained)
          (facts (ownReports agentId reports)) := by
        rw [balance.accepted, later, ← List.append_assoc covered, ← group] at linked
        exact (linked_append.mp (linked_append.mp linked).2).1
      have sorted : (ownReports agentId reports).Pairwise
          fun first second => first.ts ≤ second.ts := by
        have ordered := (List.pairwise_map (f := QueuedReport.facts)).mp ownLinked.pairwise
        exact ordered
      have ownAccepted : ∀ report ∈ facts (ownReports agentId reports),
          report ∈ watch.accepted := by
        intro report member
        rw [balance.accepted, later, ← List.append_assoc covered, ← group]
        exact List.mem_append_right _ (List.mem_append_left _ member)
      have after := step_finishDrain named running sorted served
      have spec := drainGroup_spec env agentId served.1 (ownReports agentId reports)
      rw [served.2.1] at spec
      dsimp only at after spec
      split at after
      · rename_i nothing
        obtain ⟨left, rows, _⟩ := after
        have uncovered : covered = [] := by
          rw [nothing, facts_nil] at group
          exact (List.append_eq_nil_iff.mp group.symm).1
        refine ⟨_, _, _, balance_drained balance running left fun day retained => ?_⟩
        rw [rows, balance.rows day retained, nothing, uncovered, facts_nil]
      · rename_i something
        obtain ⟨left, stored⟩ := after
        split at spec
        · rename_i appended
          have covering := covers reports running appended
          split at spec
          · rename_i nothing
            obtain ⟨same, calls⟩ := spec
            rw [calls, List.foldl_nil] at stored
            obtain ⟨rows, recorded⟩ := Prod.mk.inj stored
            split at left
            · exact ⟨_, _, _, balance_kept balance running left same rows recorded⟩
            · refine ⟨_, _, _, balance_drained balance running left fun day retained => ?_⟩
              have idle := sumOf_uncovered day marks ownLinked balance.reached covering
                nothing
              rw [rows, balance.rows day retained, group, ← List.append_assoc,
                sumOf_append _ middle, idle, add_zero]
          · rename_i previousAt currentAt interval
            obtain ⟨calls, flags⟩ := spec
            rw [calls, List.foldl_cons, List.foldl_nil] at stored
            have means := fun day => sumOf_recorded day marks ownLinked covering interval
            obtain ⟨rfl, ends, ⟨last, member, reached⟩, sameDay, _⟩ := means 0
            have rows : (step env agentId watch (.finishDrain outcome)).table =
                (recordAgentAvailability env previousAt currentAt (outcome agentId).availability
                  watch.table).1 := congrArg Prod.fst stored
            have recorded : (step env agentId watch (.finishDrain outcome)).recordedTo =
                if (recordAgentAvailability env previousAt currentAt
                  (outcome agentId).availability watch.table).2 then some currentAt
                else watch.recordedTo := congrArg Prod.snd stored
            rw [recordAgentAvailability_returned _ _ _ _ _ watch.table] at flags
            split at flags
            · rename_i returned
              have added : ∀ day, Retained env watch.accepted day →
                  tableAt (step env agentId watch (.finishDrain outcome)).table day =
                    tableAt table day +
                      sumOf env day (drained ++ facts (ownReports agentId reports)) := by
                intro day retained
                have kept : dayFromSec (currentAt - retentionDays env * 86400) env ≤ day :=
                  reached ▸ retained last (ownAccepted last member)
                have counted := tableAt_recordAgentAvailability returned kept
                rw [rows, counted, balance.rows day retained, List.append_nil, sumOf_append,
                  (means day).2.2.2.2, add_assoc]
              split at left
              · refine ⟨_, _, _, balance_marked balance running left ?_ flags added ?_⟩
                · exact fun nothing => something (List.map_eq_nil_iff.mp nothing)
                · rw [recorded, if_pos returned, ends]
              · exact ⟨_, _, _, balance_drained balance running left added⟩
            · rename_i thrown
              rw [if_pos flags.2] at left
              refine ⟨_, _, _, balance_kept balance running left flags.1 ?_ ?_⟩
              · rw [rows]
                exact recordAgentAvailability_thrown (Bool.eq_false_of_not_eq_true thrown) sameDay
              · rw [recorded, if_neg thrown]
        · obtain ⟨same, calls, failed⟩ := spec
          rw [calls, List.foldl_nil] at stored
          obtain ⟨rows, recorded⟩ := Prod.mk.inj stored
          rw [if_pos failed] at left
          exact ⟨_, _, _, balance_kept balance running left same rows recorded⟩

end Step

/-- Drains that cover their groups record, once the agent's reports are drained, the seconds
of each report once, and two reports within the offline threshold count as online. -/
theorem batched_availability_exact (env : Env) (agentId : String) (named : agentId ≠ "")
    (table : Table) (previous : Option Int) (events : List Event)
    (linked : Linked previous (Runs.run (step env agentId) (start table) events).accepted)
    (served : Runs.Along (step env agentId) (Served env agentId) (start table) events)
    (covers : Runs.Along (step env agentId) (Covers env agentId) (start table) events) :
    let watch := Runs.run (step env agentId) (start table) events
    (watch.held agentId = [] → ∀ day, Retained env watch.accepted day →
      tableAt watch.table day = tableAt table day + sumOf env day watch.accepted) ∧
    ∀ day, ∀ report ∈ watch.accepted, ∀ previousAt ∈ report.prevReportAt,
      report.ts - previousAt ≤ offlineAfterSec env →
        segmentsOf env day report = counted (dayOverlap env day previousAt report.ts) true := by
  intro watch
  have balanced : Balanced env agentId table previous
      (Runs.run (step env agentId) (start table) events) := by
    refine Runs.run_invariant ?_ ?_ (Runs.along_and served covers)
    · rintro before event balanced ⟨served, covers⟩ linked
      have linkedBefore := (linked_append.mp linked).1
      obtain ⟨drained, covered, rest, balance⟩ := balanced linkedBefore
      cases event with
      | accept report => exact ⟨_, _, _, balance_accept balance served⟩
      | startDrain => exact ⟨_, _, _, balance_startDrain balance⟩
      | finishDrain outcome =>
          exact balance_finishDrain named linkedBefore balance served covers
      | deleteAgent id => exact ⟨_, _, _, balance_deleteAgent served balance⟩
    · intro _
      refine ⟨[], [], [], rfl, rfl, List.nil_prefix, absurd rfl, fun day _ => ?_⟩
      exact (add_zero _).symm
  constructor
  · intro done day retained
    obtain ⟨drained, covered, rest, balance⟩ := balanced linked
    have marks := balance.held
    rw [done] at marks
    have nothing := congrArg (List.map Prod.fst) marks
    rw [map_fst_marked] at nothing
    obtain ⟨rfl, rfl⟩ := List.append_eq_nil_iff.mp nothing.symm
    rw [balance.rows day retained, balance.accepted]
    simp only [List.append_nil]
  · intro day report member previousAt known short
    obtain ⟨positive, before⟩ := linked.previous report member previousAt known
    have unfolded : segmentsOf env day report =
        segmentsAt (agentAvailabilitySegments previousAt report.ts env) day := by
      unfold segmentsOf
      rw [Option.mem_def.mp known]
    rw [unfolded, segmentsAt_short positive before short]

def availabilityReport (ts : Int) (ts_pos : 0 < ts) (prevReportAt : Option Int) :
    QueuedReport where
  agentId := "a"
  ts
  ts_pos
  prevReportAt
  state := none
  points := []
  pings := []
  proxyChecks := []
  net := none

def reachable (fault : Option Fault) : Outcome :=
  fun _ => { noPublicIp := true, availability := fault }

/-- The first report has none before it; two more are drained together after a failure. -/
def threeReports : List Event :=
  [.accept (availabilityReport 1000 (by decide) none), .startDrain, .finishDrain (reachable none),
    .accept (availabilityReport 1600 (by decide) (some 1000)),
    .accept (availabilityReport 2200 (by decide) (some 1600)),
    .startDrain, .finishDrain (reachable (some .batch)),
    .startDrain, .finishDrain (reachable none)]

theorem batched_availability_exact_threeReports :
    let watch := Runs.run (step {} "a") (start .empty) threeReports
    tableAt watch.table 0 = sumOf {} 0 watch.accepted ∧ sumOf {} 0 watch.accepted = ⟨1200, 1200⟩ := by
  intro watch
  have exact_ := (batched_availability_exact {} "a" (by decide) .empty none threeReports
    (by decide +kernel) (by decide +kernel) (by decide +kernel)).1
  refine ⟨?_, by decide +kernel⟩
  exact (exact_ rfl 0 (by decide +kernel)).trans (zero_add _)

/-- Two intervals of 1000 s each are within the threshold; the drain that records them as one
counts 200 s of them as offline. -/
theorem batched_interval_counts_offline :
    let watch := Runs.run (step {} "a") (start .empty)
      [.accept (availabilityReport 2000 (by decide) (some 1000)),
        .accept (availabilityReport 3000 (by decide) (some 2000)),
        .startDrain, .finishDrain (reachable none)]
    watch.held "a" = [] ∧ Linked (some 1000) watch.accepted ∧ Retained {} watch.accepted 0 ∧
      tableAt watch.table 0 = ⟨2000, 1800⟩ ∧ sumOf {} 0 watch.accepted = ⟨2000, 2000⟩ := by
  refine ⟨rfl, ?_, ?_, ?_, ?_⟩
  all_goals decide +kernel

end Watch

end NieSla.Telemetry
