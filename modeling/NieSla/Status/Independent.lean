import NieSla.Status.Fallback

/-! When the summaries of a target do not depend on the other targets. -/
namespace NieSla.Status

open CheckBuckets
open OrderedMap (lastBy)

/-- The row of a target and day. -/
def dailyRow (rows : List SummaryRow) (targetId : String) (day : Int) : Option SummaryRow :=
  lastBy SummaryRow.key (targetId, day) rows

theorem lastBy_map {α β κ : Type*} [DecidableEq κ] {key : β → κ} {k : κ} (f : α → β) (items : List α) :
    lastBy key k (items.map f) = (lastBy (fun item => key (f item)) k items).map f := by
  induction items using List.reverseRecOn with
  | nil => rfl
  | append_singleton rest item ih =>
      rw [List.map_append, List.map_singleton, OrderedMap.lastBy_concat, OrderedMap.lastBy_concat, ih]
      split <;> rfl

section Rows

variable {env : Env} {world first second : World} {settings : SnapshotSettings}
  {snapshot other : Option Snapshot} {reuse : Bool} {now days startDay day : Int} {targetId : String}

/-- The rows of a target determine its row of each day. -/
theorem dailyRow_filter (rows : List SummaryRow) :
    dailyRow (rows.filter fun row => row.targetId = targetId) targetId day = dailyRow rows targetId day := by
  refine OrderedMap.lastBy_filter _ fun row same => ?_
  have own : row.targetId = targetId := congrArg Prod.fst same
  simp [own]

theorem dailyRow_congr {rows rows' : List SummaryRow}
    (same : (rows.filter fun row => row.targetId = targetId) = rows'.filter fun row => row.targetId = targetId) :
    dailyRow rows targetId day = dailyRow rows' targetId day := by
  rw [← dailyRow_filter rows, same, dailyRow_filter]

theorem dailyRow_eq_none {rows : List SummaryRow} (absent : ∀ row ∈ rows, row.targetId ≠ targetId) :
    dailyRow rows targetId day = none :=
  OrderedMap.lastBy_eq_none.mpr fun row member same => absent row member (congrArg Prod.fst same)

theorem dailyRow_mergeSummaryRows (groups : List (List SummaryRow)) (named : targetId ≠ "") :
    dailyRow (mergeSummaryRows groups) targetId day = dailyRow groups.flatten targetId day := by
  rw [dailyRow, mergeSummaryRows, OrderedMap.lastBy_values_collect]
  refine OrderedMap.lastBy_filter _ fun row same => ?_
  have own : row.targetId = targetId := congrArg Prod.fst same
  simp [own, named]

theorem dailyRow_visible (rows : List SummaryRow) (visible : world.noPublic targetId = false) :
    dailyRow (rows.filter fun row => !world.noPublic row.targetId) targetId day = dailyRow rows targetId day := by
  refine OrderedMap.lastBy_filter _ fun row same => ?_
  have own : row.targetId = targetId := congrArg Prod.fst same
  simp [own, visible]

/-- The rows that do not come from D1. -/
def shownRow (env : Env) (world : World) (settings : SnapshotSettings) (snapshot : Option Snapshot) (reuse : Bool)
    (now days : Int) (targetId : String) (day : Int) : Option SummaryRow :=
  (dailyRow (getSummaryRowsFromState world (startDayOf env now days)) targetId day).or
    (dailyRow (cachedSummaries env world settings snapshot reuse now days) targetId day)

/-- The row of a payload: that of D1 over the others, or that of the agent. -/
theorem dailyRow_buildSummaries (named : targetId ≠ "") :
    dailyRow (buildSummaries env world settings snapshot reuse now days) targetId day =
      (dailyRow (agentRows world (startDayOf env now days)) targetId day).or
        (if world.noPublic targetId = true then none
        else
          (dailyRow (fallbackRows env world now days
            (cachedSummaries env world settings snapshot reuse now days)) targetId day).or
              (shownRow env world settings snapshot reuse now days targetId day)) := by
  simp only [buildSummaries]
  rw [dailyRow, OrderedMap.lastBy_append]
  refine congrArg₂ Option.or rfl ?_
  split
  next hidden =>
    refine dailyRow_eq_none fun row member same => ?_
    have kept := (List.mem_filter.mp member).2
    rw [same, hidden] at kept
    cases kept
  next visible =>
    refine (dailyRow_visible _ (eq_false_of_ne_true visible)).trans ((dailyRow_mergeSummaryRows _ named).trans ?_)
    simp only [List.flatten_cons, List.flatten_nil, List.append_nil, shownRow, dailyRow, OrderedMap.lastBy_append,
      Option.or_assoc]

/-- The row that D1 gives. -/
theorem dailyRow_fallbackRows (cached : List SummaryRow) :
    dailyRow (fallbackRows env world now days cached) targetId day =
      if fallbackTargetIds env world (startDayOf env now days) = [] then none
      else
        ((d1Summary env world now (startDayOf env now days) days cached
          (fallbackTargetIds env world (startDayOf env now days))
          (staleR2TargetIds env world (startDayOf env now days))).get? (targetId, day)).map
            fun totals => ⟨targetId, day, totals⟩ := by
  simp only [fallbackRows]
  split
  · rfl
  · rw [dailyRow, lastBy_map]
    simp only [SummaryRow.key, OrderedMap.get?, d1Summary, Option.map_map]
    cases found : lastBy Prod.fst (targetId, day) (getCheckBucketSummaries env (database env world) now
        (startDayOf env now days) (buildSummaryFallbackOptions world (startDayOf env now days) (dayFromSec now env)
          days cached (fallbackTargetIds env world (startDayOf env now days))
          (staleR2TargetIds env world (startDayOf env now days)))).entries with
    | none => rfl
    | some entry =>
        have key := OrderedMap.key_of_lastBy found
        simp [key]

/-! The data of a target. -/

/-- The target that shows the availability of an agent. -/
def World.agentOwner (world : World) (agentId : String) : Option String :=
  (lastBy (fun target : TargetRow => sanitizeAgentId target.id) agentId
    (world.targets.filter TargetRow.noPublicIp)).map TargetRow.id

/-- Two worlds with the same data of a target. -/
structure SameData (targetId : String) (first second : World) (snapshot other : Option Snapshot) : Prop
    extends SameRows targetId first second where
  here : targetId ∈ second.targets.map TargetRow.id
  noPublic : first.noPublic targetId = second.noPublic targetId
  r2State : first.r2State.get? targetId = second.r2State.get? targetId
  latestStatus : first.latestStatus.get? targetId = second.latestStatus.get? targetId
  snapshot : (snapshot.map fun snapshot =>
      (snapshot.generatedAt, snapshot.summaries.filter fun row => row.targetId = targetId)) =
    other.map fun snapshot => (snapshot.generatedAt, snapshot.summaries.filter fun row => row.targetId = targetId)
  agent : first.noPublic targetId = true →
    first.agentOwner (sanitizeAgentId targetId) = second.agentOwner (sanitizeAgentId targetId) ∧
      (first.agentAvailability.filter fun row => row.1 = sanitizeAgentId targetId) =
        second.agentAvailability.filter fun row => row.1 = sanitizeAgentId targetId

theorem filter_getSummaryRowsFromState (world : World) (startDay : Int) (targetId : String) :
    (getSummaryRowsFromState world startDay).filter (fun row => row.targetId = targetId) =
      ((world.r2State.get? targetId).map fun status =>
        ((status.daily.entries.filter fun row => startDay ≤ row.1).map fun row =>
          (⟨targetId, row.1, row.2⟩ : SummaryRow)).filter fun row => row.targetId = targetId).getD [] := by
  refine OrderedMap.filter_flatMap_entries _ targetId _ _ fun entry _ ne => ?_
  refine List.filter_eq_nil_iff.mpr fun row member => ?_
  obtain ⟨_, -, rfl⟩ := List.mem_map.mp member
  simpa using ne

/-- The rows of a target come from its agent. -/
theorem filter_agentRows (world : World) (startDay : Int) (targetId : String) :
    (agentRows world startDay).filter (fun row => row.targetId = targetId) =
      (world.agentAvailability.filter fun row => row.1 = sanitizeAgentId targetId).filterMap fun row =>
        if world.agentOwner (sanitizeAgentId targetId) = some targetId ∧ ¬ (targetId = "" ∨ row.2.1 < startDay) then
          some ⟨targetId, row.2.1, row.2.2⟩
        else none := by
  unfold agentRows
  rw [List.filter_filterMap, List.filterMap_filter]
  refine List.filterMap_congr fun row _ => ?_
  cases shows : lastBy (fun target : TargetRow => sanitizeAgentId target.id) row.1
      (world.targets.filter TargetRow.noPublicIp) with
  | none =>
      have unowned : world.agentOwner row.1 = none := by rw [World.agentOwner, shows, Option.map_none]
      by_cases own : row.1 = sanitizeAgentId targetId
      · simp [← own, unowned]
      · simp [own]
  | some target =>
      have agent := OrderedMap.key_of_lastBy shows
      have owner : world.agentOwner row.1 = some target.id := by rw [World.agentOwner, shows, Option.map_some]
      by_cases own : row.1 = sanitizeAgentId targetId
      · by_cases same : target.id = targetId
        · subst same
          by_cases kept : target.id = "" ∨ row.2.1 < startDay
          · simp [kept]
          · simp [kept, ← own, owner]
        · by_cases kept : target.id = "" ∨ row.2.1 < startDay
          · simp [kept, ← own, owner, same]
          · simp [kept, ← own, owner, same]
      · have same : target.id ≠ targetId := fun eq => own (eq ▸ agent.symm)
        by_cases kept : target.id = "" ∨ row.2.1 < startDay
        · simp [kept, own]
        · simp [kept, own, same]

theorem agentRows_of_public (visible : world.noPublic targetId = false) (startDay : Int) :
    dailyRow (agentRows world startDay) targetId day = none := by
  refine dailyRow_eq_none fun row member own => ?_
  obtain ⟨available, -, made⟩ := List.mem_filterMap.mp member
  split at made
  · cases made
  next target shows =>
    split at made
    · cases made
    · cases made
      obtain ⟨inside, hidden⟩ := List.mem_filter.mp (OrderedMap.mem_of_lastBy shows)
      have any_ : world.noPublic targetId = true :=
        List.any_eq_true.mpr ⟨target, inside, by simp [hidden, show target.id = targetId from own]⟩
      rw [visible] at any_
      cases any_

section Same

variable (same : SameData targetId first second snapshot other)

include same

theorem SameData.r2Rows (startDay : Int) :
    ((getSummaryRowsFromState first startDay).filter fun row => row.targetId = targetId) =
      (getSummaryRowsFromState second startDay).filter fun row => row.targetId = targetId := by
  rw [filter_getSummaryRowsFromState, filter_getSummaryRowsFromState, same.r2State]

theorem SameData.fallbackNeeded (startDay : Int) :
    fallbackNeeded env first startDay targetId = fallbackNeeded env second startDay targetId := by
  have any_ (world : World) (day : Int) :
      ((getSummaryRowsFromState world startDay).any fun row => row.key = (targetId, day)) =
        ((getSummaryRowsFromState world startDay).filter fun row => row.targetId = targetId).any fun row =>
          row.key = (targetId, day) := by
    rw [List.any_filter]
    refine congrArg₂ List.any rfl (funext fun row => ?_)
    by_cases own : row.targetId = targetId <;> simp [SummaryRow.key, own]
  have latest : first.latestAt targetId = second.latestAt targetId := by
    rw [World.latestAt, same.latestStatus, World.latestAt]
  have r2 : first.r2At targetId = second.r2At targetId := by
    rw [World.r2At, same.r2State, World.r2At]
  simp only [Status.fallbackNeeded, latest, r2]
  rw [any_ first, any_ second, same.r2Rows]

theorem SameData.cached (named : targetId ≠ "") (here : targetId ∈ first.targets.map TargetRow.id) :
    dailyRow (cachedSummaries env first settings snapshot reuse now days) targetId day =
      dailyRow (cachedSummaries env second settings other reuse now days) targetId day := by
  refine dailyRow_congr ?_
  have active (world : World) (present : targetId ∈ world.targets.map TargetRow.id) (rows : List SummaryRow) :
      (rows.filter fun row => world.active row.targetId).filter (fun row => row.targetId = targetId) =
        rows.filter fun row => row.targetId = targetId := by
    rw [List.filter_filter]
    refine List.filter_congr fun row _ => ?_
    by_cases own : row.targetId = targetId
    · subst own
      obtain ⟨target, member, id⟩ := List.mem_map.mp present
      have some_ : (world.targets.any fun target => target.id = row.targetId) = true :=
        List.any_eq_true.mpr ⟨target, member, by simp [id]⟩
      simp [World.active, named, some_]
    · simp [own]
  unfold cachedSummaries
  split
  · rw [active first here, active second same.here]
    have stored := same.snapshot
    cases snapshot with
    | none =>
        cases other with
        | none => rfl
        | some other => cases stored
    | some snapshot =>
        cases other with
        | none => cases stored
        | some other =>
            simp only [Option.map_some, Option.some.injEq, Prod.mk.injEq] at stored
            obtain ⟨at_, rows⟩ := stored
            have fresh : snapshotFresh env settings now snapshot = snapshotFresh env settings now other := by
              simp only [snapshotFresh, at_]
            have swap (list : List SummaryRow) (keep : SummaryRow → Bool) :
                (list.filter keep).filter (fun row => row.targetId = targetId) =
                  (list.filter fun row => row.targetId = targetId).filter keep := by
              rw [List.filter_filter, List.filter_filter]
              exact List.filter_congr fun row _ => Bool.and_comm _ _
            by_cases kept : snapshotFresh env settings now other = true
            · simp only [readRecentSnapshotSummaries, fresh, kept, if_true]
              rw [swap, swap, rows]
            · simp [readRecentSnapshotSummaries, fresh, kept]
  · rfl

theorem SameData.shown (named : targetId ≠ "") (here : targetId ∈ first.targets.map TargetRow.id) :
    shownRow env first settings snapshot reuse now days targetId day =
      shownRow env second settings other reuse now days targetId day :=
  congrArg₂ Option.or (dailyRow_congr (same.r2Rows _)) (same.cached named here)

/-- The availability that a target shows is its own agent's. -/
theorem SameData.agentRows (hidden : first.noPublic targetId = true) (startDay : Int) :
    dailyRow (agentRows first startDay) targetId day = dailyRow (agentRows second startDay) targetId day := by
  obtain ⟨owner, rows⟩ := same.agent hidden
  refine dailyRow_congr ?_
  rw [filter_agentRows, filter_agentRows, rows, owner]

end Same

/-! Independence. -/

/-- The target has no public address, needs D1 itself, or shows what its summed up days hold. -/
def Unaffected (env : Env) (world : World) (settings : SnapshotSettings) (snapshot : Option Snapshot) (reuse : Bool)
    (now days : Int) (targetId : String) : Prop :=
  world.noPublic targetId = true ∨ fallbackNeeded env world (startDayOf env now days) targetId = true ∨
    ∀ day totals, startDayOf env now days ≤ day → day < dayFromSec now env →
      world.checkBucketDays.get? (targetId, day) = some totals →
        shownRow env world settings snapshot reuse now days targetId day = some ⟨targetId, day, totals⟩

variable (env startDay) in
theorem asked_iff (named : targetId ≠ "") (here : targetId ∈ world.targets.map TargetRow.id) :
    asked (fallbackTargetIds env world startDay) targetId = fallbackNeeded env world startDay targetId := by
  rw [Bool.eq_iff_iff, mem_asked, fallbackTargetIds, List.mem_filter]
  exact ⟨fun both => both.2.2, fun needed => ⟨named, here, needed⟩⟩

/-- The row of a target that does not need D1: its summed up days are shown where another does. -/
theorem dailyRow_of_not_needed (bound : env.databaseBound = true) (named : targetId ≠ "")
    (here : targetId ∈ world.targets.map TargetRow.id) (visible : world.noPublic targetId = false)
    (enough : fallbackNeeded env world (startDayOf env now days) targetId = false) :
    dailyRow (buildSummaries env world settings snapshot reuse now days) targetId day =
      (if fallbackTargetIds env world (startDayOf env now days) = [] then none
        else if startDayOf env now days ≤ day ∧ day < dayFromSec now env then
          (world.checkBucketDays.get? (targetId, day)).map fun totals => ⟨targetId, day, totals⟩
        else none).or (shownRow env world settings snapshot reuse now days targetId day) := by
  have unasked := asked_iff env (startDayOf env now days) named here
  rw [enough] at unasked
  rw [dailyRow_buildSummaries named, agentRows_of_public visible, Option.none_or, visible,
    if_neg Bool.false_ne_true, dailyRow_fallbackRows]
  split
  · rfl
  · rw [get?_d1Summary_of_not_asked bound unasked]
    split <;> rfl

theorem dailyRow_congr_of_needed (bound : env.databaseBound = true) (named : targetId ≠ "")
    (here : targetId ∈ first.targets.map TargetRow.id) (same : SameData targetId first second snapshot other)
    (visible : first.noPublic targetId = false)
    (needed : fallbackNeeded env first (startDayOf env now days) targetId = true) :
    dailyRow (buildSummaries env first settings snapshot reuse now days) targetId day =
      dailyRow (buildSummaries env second settings other reuse now days) targetId day := by
  have visible' := same.noPublic ▸ visible
  have needed' : fallbackNeeded env second (startDayOf env now days) targetId = true := by
    rw [← same.fallbackNeeded, needed]
  have some_ (world : World) (present : targetId ∈ world.targets.map TargetRow.id)
      (asks : fallbackNeeded env world (startDayOf env now days) targetId = true) :
      fallbackTargetIds env world (startDayOf env now days) ≠ [] :=
    List.ne_nil_of_mem (List.mem_filter.mpr ⟨present, asks⟩)
  have alike : asked (fallbackTargetIds env first (startDayOf env now days)) targetId =
      asked (fallbackTargetIds env second (startDayOf env now days)) targetId := by
    rw [asked_iff env _ named here, asked_iff env _ named same.here, needed, needed']
  rw [dailyRow_buildSummaries named, dailyRow_buildSummaries named, agentRows_of_public visible,
    agentRows_of_public visible', visible, visible', dailyRow_fallbackRows, dailyRow_fallbackRows,
    if_neg (some_ first here needed), if_neg (some_ second same.here needed'),
    get?_d1Summary_congr bound same.toSameRows alike, same.shown named here]

theorem dailyRow_of_unaffected (bound : env.databaseBound = true) (named : targetId ≠ "")
    (here : targetId ∈ first.targets.map TargetRow.id) (same : SameData targetId first second snapshot other)
    (unaffected : Unaffected env first settings snapshot reuse now days targetId) :
    dailyRow (buildSummaries env second settings other reuse now days) targetId day =
      dailyRow (buildSummaries env first settings snapshot reuse now days) targetId day := by
  by_cases hidden : first.noPublic targetId = true
  · rw [dailyRow_buildSummaries named, dailyRow_buildSummaries named, if_pos hidden,
      if_pos (same.noPublic ▸ hidden), same.agentRows hidden]
  have visible := eq_false_of_ne_true hidden
  by_cases needed : fallbackNeeded env first (startDayOf env now days) targetId = true
  · exact (dailyRow_congr_of_needed bound named here same visible needed).symm
  have enough := eq_false_of_ne_true needed
  have agree := (unaffected.resolve_left hidden).resolve_left needed
  -- In both worlds the row is the one that is shown without D1.
  have shown (world : World) (stored : Option Snapshot) (days' : ∀ day, world.checkBucketDays.get? (targetId, day) =
        first.checkBucketDays.get? (targetId, day))
      (same_ : shownRow env world settings stored reuse now days targetId day =
        shownRow env first settings snapshot reuse now days targetId day) :
      (if fallbackTargetIds env world (startDayOf env now days) = [] then none
        else if startDayOf env now days ≤ day ∧ day < dayFromSec now env then
          (world.checkBucketDays.get? (targetId, day)).map fun totals => (⟨targetId, day, totals⟩ : SummaryRow)
        else none).or (shownRow env world settings stored reuse now days targetId day) =
        shownRow env first settings snapshot reuse now days targetId day := by
    rw [same_, days']
    split
    · rfl
    · split
      next inside =>
        cases held : first.checkBucketDays.get? (targetId, day) with
        | none => rfl
        | some totals => exact (agree day totals inside.1 inside.2 held).symm
      · rfl
  rw [dailyRow_of_not_needed bound named here visible enough,
    dailyRow_of_not_needed bound named same.here (same.noPublic ▸ visible) (same.fallbackNeeded _ ▸ enough),
    shown first snapshot (fun _ => rfl) rfl,
    shown second other (fun day => (same.days day).symm) (same.shown named here).symm]

/-- The rows of the target are the same in every world that has the same data of it. -/
def Independent (env : Env) (world : World) (settings : SnapshotSettings) (snapshot : Option Snapshot) (reuse : Bool)
    (now days : Int) (targetId : String) : Prop :=
  ∀ other stored, SameData targetId world other snapshot stored → ∀ day,
    dailyRow (buildSummaries env other settings stored reuse now days) targetId day =
      dailyRow (buildSummaries env world settings snapshot reuse now days) targetId day

theorem exists_fresh (names : List String) : ∃ name, name ∉ names := by
  have : Infinite String :=
    Infinite.of_injective (fun count => String.ofList (List.replicate count 'a')) fun first second same => by
      simpa using congrArg (fun text => text.toList.length) same
  obtain ⟨name, absent⟩ := Infinite.exists_notMem_finset names.toFinset
  exact ⟨name, by simpa using absent⟩

/-- The target, and others in place of those that are beside it. -/
def World.beside (world : World) (targetId : String) (others : List TargetRow) : World :=
  { world with targets := (world.targets.filter fun target => target.id = targetId) ++ others }

theorem sameData_beside (here : targetId ∈ world.targets.map TargetRow.id) (visible : world.noPublic targetId = false)
    (others : List TargetRow) (apart : ∀ target ∈ others, target.id ≠ targetId) (snapshot : Option Snapshot) :
    SameData targetId world (world.beside targetId others) snapshot snapshot where
  buckets := rfl
  history := rfl
  days _ := rfl
  here := by
    obtain ⟨target, member, rfl⟩ := List.mem_map.mp here
    exact List.mem_map_of_mem (List.mem_append_left _ (List.mem_filter.mpr ⟨member, by simp⟩))
  noPublic := by
    have nobody : (others.any fun target => target.id = targetId && target.noPublicIp) = false := by
      rw [List.any_eq_false]
      intro target member
      simp [apart target member]
    rw [World.noPublic, World.noPublic, World.beside, List.any_append, nobody, Bool.or_false, List.any_filter]
    refine congrArg₂ List.any rfl (funext fun target => ?_)
    cases decide (target.id = targetId) <;> rfl
  r2State := rfl
  latestStatus := rfl
  snapshot := rfl
  agent hidden := absurd hidden (by simp [visible])

/-- A target that is nowhere else needs D1. -/
theorem fallbackNeeded_of_fresh {name : String} (noState : world.r2State.get? name = none)
    (noStatus : world.latestStatus.get? name = none) (startDay : Int) :
    fallbackNeeded env world startDay name = true := by
  simp [fallbackNeeded, World.latestAt, World.r2At, noState, noStatus]

theorem unaffected_of_independent (bound : env.databaseBound = true) (named : targetId ≠ "")
    (here : targetId ∈ world.targets.map TargetRow.id)
    (independent : Independent env world settings snapshot reuse now days targetId) :
    Unaffected env world settings snapshot reuse now days targetId := by
  by_cases hidden : world.noPublic targetId = true
  · exact .inl hidden
  by_cases needed : fallbackNeeded env world (startDayOf env now days) targetId = true
  · exact .inr (.inl needed)
  refine .inr (.inr fun day totals start stop held => ?_)
  have visible := eq_false_of_ne_true hidden
  have enough := eq_false_of_ne_true needed
  obtain ⟨fresh, absent⟩ := exists_fresh (targetId :: world.r2State.keys ++ world.latestStatus.keys)
  simp only [List.cons_append, List.mem_cons, List.mem_append, not_or] at absent
  -- The target alone, and the target beside one that nothing is known of.
  have alone := sameData_beside here visible [] (by simp) snapshot
  have joined := sameData_beside here visible [⟨fresh, false⟩] (by simpa using absent.1) snapshot
  have rows := (independent _ _ alone day).trans (independent _ _ joined day).symm
  have nobody : fallbackTargetIds env (world.beside targetId []) (startDayOf env now days) = [] := by
    refine List.filter_eq_nil_iff.mpr fun id member => ?_
    obtain ⟨target, kept, rfl⟩ := List.mem_map.mp member
    have own : target.id = targetId := by
      simp only [World.beside, List.append_nil, List.mem_filter, decide_eq_true_eq] at kept
      exact kept.2
    rw [own, show fallbackNeeded env (world.beside targetId []) _ targetId = _ from enough]
    exact Bool.false_ne_true
  have someone : fallbackTargetIds env (world.beside targetId [⟨fresh, false⟩]) (startDayOf env now days) ≠ [] := by
    have present : fresh ∈ (world.beside targetId [⟨fresh, false⟩]).targets.map TargetRow.id := by
      simp [World.beside]
    have asks : fallbackNeeded env (world.beside targetId [⟨fresh, false⟩]) (startDayOf env now days) fresh = true :=
      fallbackNeeded_of_fresh (OrderedMap.get?_eq_none.mpr absent.2.1) (OrderedMap.get?_eq_none.mpr absent.2.2) _
    exact List.ne_nil_of_mem (List.mem_filter.mpr ⟨present, asks⟩)
  rw [dailyRow_of_not_needed bound named alone.here (alone.noPublic ▸ visible) enough,
    dailyRow_of_not_needed bound named joined.here (joined.noPublic ▸ visible) enough, if_pos nobody,
    if_neg someone, if_pos ⟨start, stop⟩, Option.none_or, ← alone.shown named here] at rows
  rw [rows]
  simp only [World.beside, held, Option.map_some, Option.some_or]

end Rows

/-- For every state of R2 and D1: what other targets do shows in no row of the target exactly where the
target does not depend on whether D1 is read. -/
theorem summary_independent_iff {env : Env} {world : World} {targetId : String} (bound : env.databaseBound = true)
    (named : targetId ≠ "") (here : targetId ∈ world.targets.map TargetRow.id) (settings : SnapshotSettings)
    (snapshot : Option Snapshot) (reuse : Bool) (now days : Int) :
    Independent env world settings snapshot reuse now days targetId ↔
      Unaffected env world settings snapshot reuse now days targetId :=
  ⟨unaffected_of_independent bound named here, fun unaffected _ _ same _ =>
    dailyRow_of_unaffected bound named here same unaffected⟩

def utc : Env := { timezoneOffsetMinutes := some (.finite 0) }

/-- A target with a check on the day before in D1 and one of today in R2, and D1 behind R2. -/
def webWorld : World where
  targets := [⟨"web", false⟩]
  r2State := OrderedMap.empty.set "web"
    ⟨180000, true, "auto", (OrderedMap.empty.set 1 ⟨20, 20, 400⟩).set 2 ⟨3, 3, 60⟩⟩
  latestStatus := .empty
  stores := ⟨.empty, .empty⟩
  checkBucketDays := OrderedMap.empty.set ("web", 1) ⟨5, 5, 100⟩
  agentAvailability := []

/-- The newest check of the target is in D1 alone. -/
def aheadWorld : World :=
  { webWorld with latestStatus := OrderedMap.empty.set "web" ⟨181000, true, "auto"⟩ }

theorem summary_independent_ahead : Independent utc aheadWorld {} none true 181000 30 "web" :=
  (summary_independent_iff (by decide +kernel) (by decide +kernel) (by decide +kernel) {} none true 181000 30).mpr
    (.inr (.inl (by decide +kernel)))

/-- A new target beside it replaces the row of R2 by that of D1. -/
theorem new_target_changes_summary :
    ¬ Independent utc webWorld {} none true 181000 30 "web" := by
  intro independent
  have joined : SameData "web" webWorld (webWorld.beside "web" [⟨"new", false⟩]) none none :=
    sameData_beside (by decide +kernel) (by decide +kernel) _ (by decide +kernel) none
  have rows := independent _ _ joined 1
  revert rows
  decide +kernel

end NieSla.Status
