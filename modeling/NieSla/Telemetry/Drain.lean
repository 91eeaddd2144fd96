import NieSla.Telemetry.Reports

/-! What a drain does to the reports it has taken: it changes their drain states only, and
the effects of a group are made from its reports. -/
namespace NieSla.Telemetry

open Availability Traffic

def facts (reports : List QueuedReport) : List QueuedReport := reports.map QueuedReport.facts

/-- The traffic call of a report. -/
def QueuedReport.traffic? (report : QueuedReport) : Option Traffic.Report :=
  report.net.map fun net => ⟨net, report.ts, report.ts_pos⟩

@[simp] theorem facts_nil : facts [] = [] := rfl

@[simp] theorem facts_cons (report : QueuedReport) (rest : List QueuedReport) :
    facts (report :: rest) = report.facts :: facts rest := rfl

@[simp] theorem facts_append (first second : List QueuedReport) :
    facts (first ++ second) = facts first ++ facts second := List.map_append

/-- The facts of a report and whether the availability of its group is recorded. -/
def QueuedReport.view (report : QueuedReport) : QueuedReport × Bool :=
  (report.facts, report.drainState.availabilityPersisted)

def view (reports : List QueuedReport) : List (QueuedReport × Bool) :=
  reports.map QueuedReport.view

theorem map_fst_view (reports : List QueuedReport) : (view reports).map Prod.fst = facts reports := by
  simp only [view, facts, List.map_map]
  rfl

theorem view_modify (group : List QueuedReport) (index : Nat)
    (change : QueuedReport → QueuedReport) (same : ∀ report, (change report).view = report.view) :
    view (group.modify index change) = view group := by
  unfold view
  induction group generalizing index with
  | nil => simp
  | cons report rest ih =>
      cases index with
      | zero => simp [same]
      | succ index => simp [ih]

/-- The availability calls among the effects. -/
def availabilityCalls (effects : List Effect) : List (String × Int × Int × Option Fault) :=
  effects.filterMap fun
    | .availability agentId previousAt currentAt fault =>
        some (agentId, previousAt, currentAt, fault)
    | _ => none

@[simp] theorem availabilityCalls_append (first second : List Effect) :
    availabilityCalls (first ++ second) = availabilityCalls first ++ availabilityCalls second :=
  List.filterMap_append

section Group

variable {env : Env} {agentId : String} {result : GroupResult}

theorem view_persistNewestState (persisted : Bool) :
    view (persistNewestState agentId persisted result).group = view result.group := by
  unfold persistNewestState
  split
  · rfl
  · split
    · split
      · exact view_modify _ _ _ fun _ => rfl
      · rfl
    · rfl

theorem calls_persistNewestState (persisted : Bool) :
    availabilityCalls (persistNewestState agentId persisted result).effects =
      availabilityCalls result.effects := by
  unfold persistNewestState
  split
  · rfl
  · split
    · split
      · simp [availabilityCalls]
      · rfl
    · rfl

theorem failed_persistNewestState (persisted : Bool) (failed : result.failed = true) :
    (persistNewestState agentId persisted result).failed = true := by
  unfold persistNewestState
  split
  · exact failed
  · split
    · split
      · exact failed
      · rfl
    · exact failed

theorem view_appendTelemetry {appended : Bool} {after : GroupResult}
    (done : appendTelemetry agentId appended result = some after) :
    view after.group = view result.group := by
  unfold appendTelemetry at done
  dsimp only at done
  split at done
  · cases done
    rfl
  · split at done
    · cases done
      simp only [view, List.map_map]
      rfl
    · cases done

theorem calls_appendTelemetry {appended : Bool} {after : GroupResult}
    (done : appendTelemetry agentId appended result = some after) :
    availabilityCalls after.effects = availabilityCalls result.effects := by
  unfold appendTelemetry at done
  dsimp only at done
  split at done
  · cases done
    rfl
  · split at done
    · cases done
      simp [availabilityCalls]
    · cases done

theorem view_persistTraffic (persisted : Nat → Bool) (index : Nat) (group : List QueuedReport) :
    view (persistTraffic agentId persisted index group).1 = view group := by
  unfold view
  induction group generalizing index with
  | nil => rfl
  | cons report rest ih =>
      unfold persistTraffic
      dsimp only
      split
      · split
        · simp only [List.map_cons, ih]
          rfl
        · simp only [List.map_cons, ih]
      · simp only [List.map_cons, ih]

theorem calls_persistTraffic (persisted : Nat → Bool) (index : Nat) (group : List QueuedReport) :
    availabilityCalls (persistTraffic agentId persisted index group).2.2 = [] := by
  induction group generalizing index with
  | nil => rfl
  | cons report rest ih =>
      unfold persistTraffic
      dsimp only
      split
      · split
        · exact ih _
        · exact ih _
      · exact ih _

/-! The availability of a group. -/

/-- The interval that the drain of a group records, if it records one. -/
def recordedInterval (noPublicIp : Bool) : List QueuedReport → Option (Int × Int)
  | [] => none
  | first :: rest =>
      match noPublicIp, first.prevReportAt, first.drainState.availabilityPersisted with
      | true, some previousAt, false =>
          some (previousAt, ((first :: rest).getLast (List.cons_ne_nil first rest)).ts)
      | _, _, _ => none

def markFirst : List (QueuedReport × Bool) → List (QueuedReport × Bool)
  | [] => []
  | first :: rest => (first.1, true) :: rest

theorem map_fst_markFirst (reports : List (QueuedReport × Bool)) :
    (markFirst reports).map Prod.fst = reports.map Prod.fst := by
  cases reports <;> rfl

private theorem getLast_ts {first first' : QueuedReport} {rest rest' : List QueuedReport}
    (same : view (first :: rest) = view (first' :: rest')) :
    ((first :: rest).getLast (List.cons_ne_nil first rest)).ts =
      ((first' :: rest').getLast (List.cons_ne_nil first' rest')).ts := by
  have last : ∀ first rest, some ((first :: rest).getLast (List.cons_ne_nil first rest)).ts =
      (view (first :: rest)).getLast?.map fun report => report.1.ts := by
    intro first rest
    rw [view, List.getLast?_map, List.getLast?_eq_some_getLast (List.cons_ne_nil first rest)]
    rfl
  apply Option.some_injective
  rw [last, last, same]

theorem recordedInterval_congr {noPublicIp : Bool} {group group' : List QueuedReport}
    (same : view group = view group') :
    recordedInterval noPublicIp group = recordedInterval noPublicIp group' := by
  cases group with
  | nil =>
      cases group' with
      | nil => rfl
      | cons first' rest' => cases same
  | cons first rest =>
      cases group' with
      | nil => cases same
      | cons first' rest' =>
          have heads := (List.cons.inj same).1
          have previous : first.prevReportAt = first'.prevReportAt :=
            congrArg (fun report : QueuedReport × Bool => report.1.prevReportAt) heads
          have flag : first.drainState.availabilityPersisted =
              first'.drainState.availabilityPersisted := congrArg Prod.snd heads
          simp only [recordedInterval, previous, flag, getLast_ts same]

theorem recordAvailability_none {noPublicIp : Bool} {fault : Option Fault}
    (nothing : recordedInterval noPublicIp result.group = none) :
    recordAvailability env agentId noPublicIp fault result = result := by
  unfold recordAvailability
  unfold recordedInterval at nothing
  split
  · rfl
  · rename_i first rest whole
    rw [whole] at nothing
    dsimp only at nothing
    split
    · rename_i previous flag
      simp [previous, flag] at nothing
    · rfl

theorem recordAvailability_some (env : Env) (agentId : String) (fault : Option Fault)
    {noPublicIp : Bool} {previousAt currentAt : Int}
    (interval : recordedInterval noPublicIp result.group = some (previousAt, currentAt)) :
    let recorded := recordAvailability env agentId noPublicIp fault result
    recorded.effects = result.effects ++ [.availability agentId previousAt currentAt fault] ∧
      if (recordAgentAvailability env previousAt currentAt fault .empty).2 then
        view recorded.group = markFirst (view result.group)
      else view recorded.group = view result.group ∧ recorded.failed = true := by
  unfold recordAvailability
  unfold recordedInterval at interval
  split
  · rename_i whole
    rw [whole] at interval
    cases interval
  · rename_i first rest whole
    rw [whole] at interval
    dsimp only at interval
    split at interval
    · rename_i previous flag
      obtain ⟨rfl, rfl⟩ := Prod.mk.inj (Option.some.inj interval)
      simp only [previous, flag]
      split
      · refine ⟨rfl, ?_⟩
        rw [whole]
        simp [view, QueuedReport.view, QueuedReport.facts, markFirst, previous]
      · exact ⟨rfl, rfl, rfl⟩
    · cases interval

/-- The append of the group succeeds or has nothing to do. -/
def appends (agentId : String) (outcome : GroupOutcome) (group : List QueuedReport) : Bool :=
  (appendTelemetry agentId outcome.append
    (persistNewestState agentId outcome.latestState ⟨group, false, []⟩)).isSome

/-- What the drain of a group means for the availability of its agent. -/
theorem drainGroup_spec (env : Env) (agentId : String) {outcome : GroupOutcome} (alive : outcome.gone = false)
    (group : List QueuedReport) :
    let result := drainGroup env agentId outcome group
    if appends agentId outcome group then
      match recordedInterval outcome.noPublicIp group with
      | none => view result.group = view group ∧ availabilityCalls result.effects = []
      | some (previousAt, currentAt) =>
          availabilityCalls result.effects =
              [(agentId, previousAt, currentAt, outcome.availability)] ∧
            if (recordAgentAvailability env previousAt currentAt outcome.availability .empty).2 then
              view result.group = markFirst (view group)
            else view result.group = view group ∧ result.failed = true
    else view result.group = view group ∧ availabilityCalls result.effects = [] ∧
      result.failed = true := by
  intro result
  have latestView : view (persistNewestState agentId outcome.latestState
      ⟨group, false, []⟩).group = view group := view_persistNewestState _
  have latestCalls : availabilityCalls (persistNewestState agentId outcome.latestState
      ⟨group, false, []⟩).effects = [] := calls_persistNewestState _
  simp only [result, drainGroup, alive, Bool.false_eq_true, ↓reduceIte, appends]
  cases done : appendTelemetry agentId outcome.append
      (persistNewestState agentId outcome.latestState ⟨group, false, []⟩) with
  | none => exact ⟨latestView, latestCalls, rfl⟩
  | some appended =>
      have sameView := (view_appendTelemetry done).trans latestView
      have sameCalls := (calls_appendTelemetry done).trans latestCalls
      simp only [Option.isSome_some, ↓reduceIte, view_persistNewestState,
        calls_persistNewestState, replayTraffic, view_persistTraffic, availabilityCalls_append,
        calls_persistTraffic, List.append_nil, ← recordedInterval_congr sameView]
      cases interval : recordedInterval outcome.noPublicIp appended.group with
      | none =>
          rw [recordAvailability_none interval]
          exact ⟨sameView, sameCalls⟩
      | some times =>
          obtain ⟨made, flags⟩ := recordAvailability_some env agentId outcome.availability interval
          dsimp only
          rw [made, availabilityCalls_append, sameCalls, List.nil_append]
          refine ⟨rfl, ?_⟩
          split
          · rename_i returned
            rw [if_pos returned, sameView] at flags
            exact flags
          · rename_i thrown
            rw [if_neg thrown, sameView] at flags
            refine ⟨flags.1, failed_persistNewestState _ ?_⟩
            simp [flags.2]

theorem view_drainGroup_cases (env : Env) (agentId : String) (outcome : GroupOutcome) (group : List QueuedReport) :
    view (drainGroup env agentId outcome group).group = view group ∨
      view (drainGroup env agentId outcome group).group = markFirst (view group) := by
  by_cases alive : outcome.gone = false
  · have spec := drainGroup_spec env agentId alive group
    dsimp only at spec
    split at spec
    · split at spec
      · exact .inl spec.1
      · obtain ⟨_, flags⟩ := spec
        split at flags
        · exact .inr flags
        · exact .inl flags.1
    · exact .inl spec.1
  · simp [drainGroup, alive]

theorem facts_drainGroup (outcome : GroupOutcome) (group : List QueuedReport) :
    facts (drainGroup env agentId outcome group).group = facts group := by
  rw [← map_fst_view, ← map_fst_view]
  rcases view_drainGroup_cases env agentId outcome group with same | marked
  · rw [same]
  · rw [marked, map_fst_markFirst]

theorem facts_of_view {first second : List QueuedReport} (same : view first = view second) :
    facts first = facts second := by
  rw [← map_fst_view, ← map_fst_view, same]

theorem facts_recordAvailability (noPublicIp : Bool) (fault : Option Fault) :
    facts (recordAvailability env agentId noPublicIp fault result).group = facts result.group := by
  cases interval : recordedInterval noPublicIp result.group with
  | none => rw [recordAvailability_none interval]
  | some times =>
      have recorded := (recordAvailability_some env agentId fault interval).2
      split at recorded
      · rw [← map_fst_view, ← map_fst_view, recorded, map_fst_markFirst]
      · exact facts_of_view recorded.1

end Group

/-! Groups and queues. -/

theorem mem_groupReports {reports : List QueuedReport} {entry : String × List QueuedReport}
    (member : entry ∈ (groupReports reports).entries) {report : QueuedReport}
    (inside : report ∈ entry.2) : report ∈ reports ∧ sanitizeAgentId report.agentId = entry.1 := by
  rw [(OrderedMap.mem_group_entries member).1] at inside
  obtain ⟨sorted, same⟩ := List.mem_filter.mp inside
  exact ⟨(List.mem_insertionSort _).mp (List.mem_of_mem_filter sorted), by simpa using same⟩

theorem mem_facts_failures {env : Env} {outcome : Outcome} {reports : List QueuedReport}
    {report : QueuedReport}
    (member : report ∈ facts (failures (drainGroups env outcome reports))) :
    report ∈ facts reports := by
  obtain ⟨failed, inside, rfl⟩ := List.mem_map.mp member
  obtain ⟨result, left, inGroup⟩ := List.mem_flatMap.mp inside
  obtain ⟨entry, grouped, rfl⟩ := List.mem_map.mp (List.mem_of_mem_filter left)
  have fact := List.mem_map_of_mem (f := QueuedReport.facts) inGroup
  change failed.facts ∈ facts _ at fact
  rw [facts_drainGroup] at fact
  obtain ⟨original, taken, same⟩ := List.mem_map.mp fact
  exact same ▸ List.mem_map_of_mem (mem_groupReports grouped taken).1

/-! The part of a drain that concerns one agent. -/

/-- The reports of one agent. -/
def ownReports (agentId : String) (reports : List QueuedReport) : List QueuedReport :=
  reports.filter fun report => sanitizeAgentId report.agentId = agentId

theorem ownReports_append (agentId : String) (first second : List QueuedReport) :
    ownReports agentId (first ++ second) = ownReports agentId first ++ ownReports agentId second :=
  List.filter_append ..

/-- The group of an agent whose reports came in the order of their times are its reports. -/
theorem get?_groupReports {agentId : String} (named : agentId ≠ "") {reports : List QueuedReport}
    (sorted : (ownReports agentId reports).Pairwise fun first second => first.ts ≤ second.ts) :
    (groupReports reports).get? agentId =
      if ownReports agentId reports = [] then none else some (ownReports agentId reports) := by
  have kept : ownReports agentId
      ((reports.insertionSort fun first second => first.ts ≤ second.ts).filter
        fun report => sanitizeAgentId report.agentId ≠ "") = ownReports agentId reports := by
    have unskipped : ownReports agentId
        ((reports.insertionSort fun first second => first.ts ≤ second.ts).filter
          fun report => sanitizeAgentId report.agentId ≠ "") =
        ownReports agentId (reports.insertionSort fun first second => first.ts ≤ second.ts) := by
      unfold ownReports
      rw [List.filter_filter]
      apply List.filter_congr
      intro report _
      by_cases own : sanitizeAgentId report.agentId = agentId
      · simp [own, named]
      · simp [own]
    have perm : (ownReports agentId
        (reports.insertionSort fun first second => first.ts ≤ second.ts)).Perm
          (ownReports agentId reports) := (List.perm_insertionSort _ _).filter _
    have stable := (List.sublist_insertionSort sorted List.filter_sublist).filter
      fun report => decide (sanitizeAgentId report.agentId = agentId)
    rw [ownReports, List.filter_filter] at stable
    simp only [Bool.and_self] at stable
    rw [unskipped]
    exact (stable.eq_of_length perm.length_eq.symm).symm
  unfold groupReports
  dsimp only
  rw [OrderedMap.get?_group]
  change (if ownReports agentId _ = [] then none else some (ownReports agentId _)) = _
  rw [kept]

theorem sanitize_of_mem_drainGroup {env : Env} {outcome : GroupOutcome}
    {reports : List QueuedReport} {entry : String × List QueuedReport}
    (grouped : entry ∈ (groupReports reports).entries) {report : QueuedReport}
    (member : report ∈ (drainGroup env entry.1 outcome entry.2).group) :
    sanitizeAgentId report.agentId = entry.1 := by
  have fact : report.facts ∈ facts (drainGroup env entry.1 outcome entry.2).group :=
    List.mem_map_of_mem member
  rw [facts_drainGroup] at fact
  obtain ⟨original, taken, same⟩ := List.mem_map.mp fact
  have agent : original.facts.agentId = report.facts.agentId := by rw [same]
  change original.agentId = report.agentId at agent
  rw [← agent]
  exact (mem_groupReports grouped taken).2

/-- The reports that a drain gives back for an agent are its group, where that failed. -/
theorem ownReports_failures (env : Env) (agentId : String) (outcome : Outcome)
    (reports : List QueuedReport) :
    ownReports agentId (failures (drainGroups env outcome reports)) =
      (((groupReports reports).get? agentId).map fun group =>
        if (drainGroup env agentId (outcome agentId) group).failed then
          (drainGroup env agentId (outcome agentId) group).group
        else []).getD [] := by
  have given : failures (drainGroups env outcome reports) =
      (groupReports reports).entries.flatMap fun entry =>
        if (drainGroup env entry.1 (outcome entry.1) entry.2).failed then
          (drainGroup env entry.1 (outcome entry.1) entry.2).group
        else [] := by
    unfold failures drainGroups
    induction (groupReports reports).entries with
    | nil => rfl
    | cons entry rest ih =>
        rw [List.map_cons, List.filter_cons, List.flatMap_cons, ← ih]
        split <;> rfl
  rw [given, ownReports, OrderedMap.filter_flatMap_entries]
  · apply congrArg (fun group : Option (List QueuedReport) => group.getD [])
    cases found : (groupReports reports).get? agentId with
    | none => rfl
    | some group =>
        have grouped := OrderedMap.get?_eq_some.mp found
        simp only [Option.map_some, Option.some.injEq]
        split
        · apply List.filter_eq_self.mpr
          intro report member
          simpa using sanitize_of_mem_drainGroup grouped member
        · rfl
  · intro entry grouped other
    apply List.filter_eq_nil_iff.mpr
    intro report member
    split at member
    · simpa [sanitize_of_mem_drainGroup grouped member] using other
    · cases member

theorem agent_of_availabilityCalls {env : Env} {agentId : String} {outcome : GroupOutcome}
    {group : List QueuedReport} {call : String × Int × Int × Option Fault}
    (made : call ∈ availabilityCalls (drainGroup env agentId outcome group).effects) :
    call.1 = agentId := by
  by_cases alive : outcome.gone = false
  · have spec := drainGroup_spec env agentId alive group
    dsimp only at spec
    split at spec
    · split at spec
      · rw [spec.2] at made
        cases made
      · rw [spec.1, List.mem_singleton] at made
        rw [made]
    · rw [spec.2.1] at made
      cases made
  · simp [drainGroup, alive, availabilityCalls] at made

/-- The availability calls of a drain for an agent are those of its group. -/
theorem ownCalls_effects (env : Env) (agentId : String) (outcome : Outcome)
    (reports : List QueuedReport) :
    (availabilityCalls (effects (drainGroups env outcome reports))).filter
        (fun call => call.1 = agentId) =
      (((groupReports reports).get? agentId).map fun group =>
        availabilityCalls (drainGroup env agentId (outcome agentId) group).effects).getD [] := by
  have made : availabilityCalls (effects (drainGroups env outcome reports)) =
      (groupReports reports).entries.flatMap fun entry =>
        availabilityCalls (drainGroup env entry.1 (outcome entry.1) entry.2).effects := by
    unfold effects drainGroups
    induction (groupReports reports).entries with
    | nil => rfl
    | cons entry rest ih =>
        rw [List.map_cons, List.flatMap_cons, availabilityCalls_append, ih, List.flatMap_cons]
  rw [made, OrderedMap.filter_flatMap_entries]
  · apply congrArg (fun calls : Option (List (String × Int × Int × Option Fault)) => calls.getD [])
    cases (groupReports reports).get? agentId with
    | none => rfl
    | some group =>
        simp only [Option.map_some, Option.some.injEq]
        apply List.filter_eq_self.mpr
        intro call member
        simpa using agent_of_availabilityCalls member
  · intro entry _ other
    apply List.filter_eq_nil_iff.mpr
    intro call member
    simpa [agent_of_availabilityCalls member] using other

/-- A condition on the facts of every report that the buffer holds. -/
def ReportBuffer.Every (allowed : QueuedReport → Prop) (buffer : ReportBuffer) : Prop :=
  (∀ report ∈ facts buffer.memReports, allowed report) ∧
    ∀ reports ∈ buffer.draining, ∀ report ∈ facts reports, allowed report

theorem evict_suffix (reports : List QueuedReport) (bytes : Int) :
    (evict reports bytes).1 <:+ reports := by
  induction reports generalizing bytes with
  | nil => exact List.suffix_refl _
  | cons report rest ih =>
      unfold evict
      split
      · exact (ih _).trans (List.suffix_cons report rest)
      · exact List.suffix_refl _

theorem requeue_suffix (failed queued : List QueuedReport) :
    requeue failed queued <:+ failed ++ queued := by
  unfold requeue
  split
  · rename_i nothing
    simp [nothing]
  · exact List.drop_suffix _ _

theorem every_step {env : Env} {allowed : QueuedReport → Prop} {buffer : ReportBuffer}
    {event : Event} (every : buffer.Every allowed)
    (accepted : ∀ report, event = .accept report → allowed report.facts) :
    (step env buffer event).Every allowed := by
  obtain ⟨queued, taken⟩ := every
  cases event with
  | accept report =>
      refine ⟨fun other member => ?_, taken⟩
      have kept := (evict_suffix (buffer.memReports ++ [report.facts])
        (buffer.memReportsBytes + estimateReportBytes report.facts)).map QueuedReport.facts
      have inside := kept.subset member
      rw [List.map_append, List.mem_append] at inside
      rcases inside with before | new
      · exact queued other before
      · rw [List.map_singleton, List.mem_singleton] at new
        exact new ▸ accepted report rfl
  | startDrain =>
      simp only [step]
      split
      · refine ⟨by simp, fun reports started => ?_⟩
        rw [Option.mem_some_iff] at started
        exact started ▸ queued
      · exact ⟨queued, taken⟩
  | finishDrain outcome =>
      simp only [step]
      split
      · exact ⟨queued, taken⟩
      · rename_i reports running
        refine ⟨fun other member => ?_, by simp⟩
        have kept := ((requeue_suffix _ _).map QueuedReport.facts).subset member
        rw [List.map_append, List.mem_append] at kept
        rcases kept with failed | before
        · exact taken reports running other (mem_facts_failures failed)
        · exact queued other before
  | deleteAgent agentId =>
      refine ⟨fun other member => ?_, taken⟩
      exact queued other ((List.filter_sublist.map QueuedReport.facts).subset member)

/-! Traffic calls. -/

section TrafficCalls

variable {env : Env} {agentId id : String} {call : Traffic.Report}

private theorem traffic_persistTraffic {persisted : Nat → Bool} {index : Nat}
    {group : List QueuedReport}
    (made : .traffic id call ∈ (persistTraffic agentId persisted index group).2.2) :
    id = agentId ∧ ∃ report ∈ group, report.traffic? = some call := by
  induction group generalizing index with
  | nil => cases made
  | cons report rest ih =>
      have later : .traffic id call ∈ (persistTraffic agentId persisted (index + 1) rest).2.2 →
          id = agentId ∧ ∃ other ∈ report :: rest, other.traffic? = some call := by
        intro inRest
        obtain ⟨same, other, inside, calls⟩ := ih inRest
        exact ⟨same, other, List.mem_cons_of_mem report inside, calls⟩
      unfold persistTraffic at made
      dsimp only at made
      split at made
      · rename_i net _ reported _
        split at made
        · rcases List.mem_cons.mp made with first | inRest
          · cases first
            exact ⟨rfl, report, List.mem_cons_self, by simp [QueuedReport.traffic?, reported]⟩
          · exact later inRest
        · exact later made
      · exact later made

private theorem traffic_persistNewestState {persisted : Bool} {result : GroupResult}
    (made : .traffic id call ∈ (persistNewestState agentId persisted result).effects) :
    .traffic id call ∈ result.effects := by
  unfold persistNewestState at made
  split at made
  · exact made
  · split at made
    · split at made
      · simpa using made
      · exact made
    · exact made

private theorem traffic_appendTelemetry {appended : Bool} {result after : GroupResult}
    (done : appendTelemetry agentId appended result = some after)
    (made : .traffic id call ∈ after.effects) : .traffic id call ∈ result.effects := by
  unfold appendTelemetry at done
  dsimp only at done
  split at done
  · cases done
    exact made
  · split at done
    · cases done
      simpa using made
    · cases done

private theorem traffic_recordAvailability {noPublicIp : Bool} {fault : Option Fault}
    {result : GroupResult}
    (made : .traffic id call ∈
      (recordAvailability env agentId noPublicIp fault result).effects) :
    .traffic id call ∈ result.effects := by
  unfold recordAvailability at made
  split at made
  · exact made
  · split at made
    · dsimp only at made
      split at made <;> simpa using made
    · exact made

/-- A traffic call of a group is the call of one of its reports. -/
theorem traffic_drainGroup {outcome : GroupOutcome} {group : List QueuedReport}
    (made : .traffic id call ∈ (drainGroup env agentId outcome group).effects) :
    id = agentId ∧ ∃ report ∈ facts group, report.traffic? = some call := by
  unfold drainGroup at made
  split at made
  · cases made
  · dsimp only at made
    split at made
    · cases traffic_persistNewestState made
    · rename_i appended done
      have replayed := traffic_persistNewestState made
      rw [replayTraffic] at replayed
      rcases List.mem_append.mp replayed with before | now
      · cases traffic_persistNewestState
          (traffic_appendTelemetry done (traffic_recordAvailability before))
      · obtain ⟨same, report, inside, calls⟩ := traffic_persistTraffic now
        refine ⟨same, report.facts, ?_, calls⟩
        have fact := List.mem_map_of_mem (f := QueuedReport.facts) inside
        change report.facts ∈ facts _ at fact
        rwa [facts_recordAvailability, facts_of_view (view_appendTelemetry done),
          facts_of_view (view_persistNewestState _)] at fact

/-- A traffic call of a drain is the call of a report of the agent. -/
theorem traffic_drainGroups {outcome : Outcome} {reports : List QueuedReport}
    (made : .traffic id call ∈ effects (drainGroups env outcome reports)) :
    ∃ report ∈ facts reports, sanitizeAgentId report.agentId = id ∧
      report.traffic? = some call := by
  obtain ⟨result, inResults, inEffects⟩ := List.mem_flatMap.mp made
  obtain ⟨entry, grouped, rfl⟩ := List.mem_map.mp inResults
  obtain ⟨rfl, fact, inFacts, calls⟩ := traffic_drainGroup inEffects
  obtain ⟨report, inGroup, rfl⟩ := List.mem_map.mp inFacts
  obtain ⟨inside, same⟩ := mem_groupReports grouped inGroup
  exact ⟨report.facts, List.mem_map_of_mem inside, same, calls⟩

end TrafficCalls

end NieSla.Telemetry
