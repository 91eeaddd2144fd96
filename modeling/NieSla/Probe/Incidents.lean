import NieSla.Probe.Status
import NieSla.Lib.Runs

/-! Whether the incidents of a target follow its state. The history probe compares its result with
the merged state and writes the incident in its own batch; the fast probe moves the same state and
writes no incident. -/
namespace NieSla.Probe

/-- The store, and for each target the second in which it went down, once for each outage. -/
structure World where
  store : Store := {}
  outages : List (String × Nat) := []

def Store.down (store : Store) (targetId : String) : Bool := isDown (store.targets.get? targetId)

def Store.incidentsOf (store : Store) (targetId : String) : List Incident :=
  store.incidents.filter fun row => row.targetId = targetId

def World.outagesOf (world : World) (targetId : String) : List Nat :=
  (world.outages.filter fun outage => outage.1 = targetId).map Prod.snd

/-- One probe, and the outage that starts with it. -/
def observe (env : Env) (world : World) (event : Event) : World :=
  let after := step env world.store event
  let starts := !world.store.down event.targetId && after.down event.targetId
  { store := after
    outages := if starts then world.outages ++ [(event.targetId, event.checkedAt)]
      else world.outages }

def runProbes (env : Env) (events : List Event) : World := Runs.run (observe env) {} events

/-- Every outage has its one incident; while the target is down one is open, else none. -/
structure Follows (incidents : List Incident) (outages : List Nat) (down : Bool) : Prop where
  one : incidents.map Incident.startedAt = outages
  opened : down = true → ∃ incident ∈ incidents, incident.recoveredAt = none
  closed : down = false → ∀ incident ∈ incidents, incident.recoveredAt ≠ none

def Tracked (targetId : String) (world : World) : Prop :=
  Follows (world.store.incidentsOf targetId) (world.outagesOf targetId) (world.store.down targetId)

/-- The merge keeps the newer state. -/
def Store.takes (store : Store) (targetId : String) (checkedAt : Nat) : Bool :=
  (store.targets.get? targetId).all fun state => state.checkedAt ≤ checkedAt

/-- A probe that turns the state is a history probe whose batch succeeds, and its incident is new. -/
def Recorded (targetId : String) (world : World) (event : Event) : Prop :=
  event.targetId = targetId →
    match event with
    | .history _ _ none _ => True
    | .history _ checkedAt (some result) batchSucceeds =>
        world.store.down targetId = result.ok →
          (world.store.takes targetId checkedAt = true ↔
            batchSucceeds = true ∧ (result.ok = false →
              ∀ incident ∈ world.store.incidents, incident.id ≠ incidentId targetId checkedAt))
    | .fast _ checkedAt result =>
        world.store.down targetId = result.ok → world.store.takes targetId checkedAt = false

/-- The row of a target in D1 is never newer than its state in R2. -/
def Store.Mirrored (store : Store) : Prop :=
  ∀ targetId row, store.latestStatus.get? targetId = some row →
    ∃ state, store.targets.get? targetId = some state ∧ row.checkedAt ≤ state.checkedAt

section States

variable {env : Env} {store : Store} {targetId : String} {checkedAt : Nat} {result : Result}

/-- The probes start from the merged state itself. -/
theorem previousState_of_mirrored (mirrored : store.Mirrored) :
    store.previousState env targetId = store.targets.get? targetId := by
  unfold Store.previousState
  cases env.probeLatestStatusToD1 with
  | false => cases store.targets.get? targetId <;> rfl
  | true =>
      rw [if_pos rfl]
      cases found : store.latestStatus.get? targetId with
      | none => cases store.targets.get? targetId <;> rfl
      | some row =>
          obtain ⟨state, kept, older⟩ := mirrored targetId row found
          rw [kept]
          exact if_neg (Nat.not_lt.mpr older)

theorem down_applyR2StateUpdate (update : State) :
    (store.applyR2StateUpdate targetId update).down targetId =
      if store.takes targetId update.checkedAt then !update.ok else store.down targetId := by
  cases found : store.targets.get? targetId with
  | none => simp [Store.down, Store.takes, Store.applyR2StateUpdate, isDown, found]
  | some state =>
      by_cases newer : state.checkedAt ≤ update.checkedAt <;>
        simp [Store.down, Store.takes, Store.applyR2StateUpdate, isDown, found, newer]

theorem get?_applyR2StateUpdate_of_ne {other : String} (update : State) (ne : other ≠ targetId) :
    (store.applyR2StateUpdate targetId update).targets.get? other = store.targets.get? other :=
  OrderedMap.get?_set_of_ne _ _ ne

variable (store targetId) in
/-- The merge never goes back in time. -/
theorem get?_applyR2StateUpdate (update : State) :
    ∃ state, (store.applyR2StateUpdate targetId update).targets.get? targetId = some state ∧
      update.checkedAt ≤ state.checkedAt ∧
      ∀ before, store.targets.get? targetId = some before → before.checkedAt ≤ state.checkedAt := by
  refine ⟨_, OrderedMap.get?_set_self _ _ _, ?_⟩
  cases found : store.targets.get? targetId with
  | none => simp
  | some state =>
      by_cases newer : state.checkedAt ≤ update.checkedAt
      · simp [newer]
      · simp [newer, Nat.le_of_not_le newer]

/-- A statement about incidents leaves the other tables, and sees the incidents only. -/
theorem incidentEvent_eq (latestStatus : OrderedMap String State) (write : IncidentWrite) :
    { store with latestStatus }.incidentEvent targetId checkedAt write =
      { store with
        latestStatus
        incidents := (store.incidentEvent targetId checkedAt write).incidents } := by
  unfold Store.incidentEvent Store.insertIncident Store.updateOpen
  cases write.action with
  | started => simp only; split <;> rfl
  | recovered => rfl
  | stillDown => rfl

/-- The rows of `latest_status` after the batch are the rows before and the one it writes. -/
theorem upsertLatestStatus_eq (state : State) :
    ∃ latestStatus, store.upsertLatestStatus env targetId state = { store with latestStatus } ∧
      ∀ other row, latestStatus.get? other = some row →
        store.latestStatus.get? other = some row ∨ (other = targetId ∧ row = state) := by
  unfold Store.upsertLatestStatus
  split
  case isFalse => exact ⟨store.latestStatus, rfl, fun _ _ found => .inl found⟩
  refine ⟨store.latestStatus.set targetId state, rfl, fun other row found => ?_⟩
  rw [OrderedMap.get?_set] at found
  split at found
  case isFalse => exact .inl found
  case isTrue same => exact .inr ⟨same, (Option.some.inj found).symm⟩

/-- The store after the statement that a write stands for, if there is one. -/
def Store.written (store : Store) (targetId : String) (checkedAt : Nat)
    (write : Option IncidentWrite) : Store :=
  (write.map (store.incidentEvent targetId checkedAt)).getD store

variable (env store targetId checkedAt) in
theorem applyProbeWriteBatch_eq (state : State) (write : Option IncidentWrite) :
    ∃ latestStatus, store.applyProbeWriteBatch env targetId checkedAt state write true =
        { store with
          latestStatus
          incidents := (store.written targetId checkedAt write).incidents } ∧
      ∀ other row, latestStatus.get? other = some row →
        store.latestStatus.get? other = some row ∨ (other = targetId ∧ row = state) := by
  have mirrored : ∃ latestStatus,
      (if env.probeLatestStatusToD1 then store.upsertLatestStatus env targetId state else store) =
          { store with latestStatus } ∧
        ∀ other row, latestStatus.get? other = some row →
          store.latestStatus.get? other = some row ∨ (other = targetId ∧ row = state) := by
    cases env.probeLatestStatusToD1 with
    | true => exact upsertLatestStatus_eq state
    | false => exact ⟨store.latestStatus, rfl, fun _ _ found => .inl found⟩
  obtain ⟨latestStatus, same, rows⟩ := mirrored
  refine ⟨latestStatus, ?_, rows⟩
  unfold Store.applyProbeWriteBatch
  rw [same]
  cases write with
  | none => rfl
  | some write => exact incidentEvent_eq latestStatus write

end States

section Rows

variable {store : Store} {targetId : String}

theorem incidentsOf_insertIncident_of_ne {row : Incident} (ne : row.targetId ≠ targetId) :
    (store.insertIncident row).incidentsOf targetId = store.incidentsOf targetId := by
  unfold Store.insertIncident
  split
  · rfl
  · simp [Store.incidentsOf, ne]

/-- While no incident of the target is open, a row is refused only for its id. -/
theorem clash_iff {row : Incident} (own : row.targetId = targetId)
    (closed : ∀ incident ∈ store.incidentsOf targetId, incident.recoveredAt ≠ none) :
    store.incidents.any row.clash = true ↔
      ¬ ∀ incident ∈ store.incidents, incident.id ≠ row.id := by
  simp only [List.any_eq_true, Incident.clash, Bool.or_eq_true, Bool.and_eq_true,
    decide_eq_true_eq, Option.isNone_iff_eq_none, not_forall, not_not, exists_prop]
  refine exists_congr fun existing => and_congr_right fun member => or_iff_left ?_
  intro ⟨⟨same, isOpen⟩, _⟩
  exact closed existing (List.mem_filter.mpr ⟨member, by simp [same, own]⟩) isOpen

theorem incidentsOf_insertIncident_new {row : Incident} (own : row.targetId = targetId)
    (closed : ∀ incident ∈ store.incidentsOf targetId, incident.recoveredAt ≠ none)
    (fresh : ∀ incident ∈ store.incidents, incident.id ≠ row.id) :
    (store.insertIncident row).incidentsOf targetId = store.incidentsOf targetId ++ [row] := by
  rw [Store.insertIncident, if_neg fun found => (clash_iff own closed).mp found fresh]
  simp [Store.incidentsOf, own]

theorem insertIncident_taken {row : Incident} (own : row.targetId = targetId)
    (closed : ∀ incident ∈ store.incidentsOf targetId, incident.recoveredAt ≠ none)
    (taken : ¬ ∀ incident ∈ store.incidents, incident.id ≠ row.id) :
    store.insertIncident row = store :=
  if_pos ((clash_iff own closed).mpr taken)

theorem incidentsOf_updateOpen {change : Incident → Incident}
    (keeps : ∀ row, (change row).targetId = row.targetId) (other : String) :
    (store.updateOpen targetId change).incidentsOf other =
      (store.incidentsOf other).map fun row =>
        if row.targetId = targetId ∧ row.recoveredAt.isNone then change row else row := by
  unfold Store.incidentsOf Store.updateOpen
  rw [List.filter_map]
  refine congrArg _ (List.filter_congr fun row _ => ?_)
  simp only [Function.comp]
  split
  · rw [keeps]
  · rfl

theorem targetId_of_mem {row : Incident} (member : row ∈ store.incidentsOf targetId) :
    row.targetId = targetId := by
  simpa using (List.mem_filter.mp member).2

theorem incidentsOf_updateOpen_of_ne {change : Incident → Incident}
    (keeps : ∀ row, (change row).targetId = row.targetId) {other : String} (ne : other ≠ targetId) :
    (store.updateOpen targetId change).incidentsOf other = store.incidentsOf other := by
  rw [incidentsOf_updateOpen keeps]
  have same (row : Incident) (member : row ∈ store.incidentsOf other) :
      (if row.targetId = targetId ∧ row.recoveredAt.isNone then change row else row) = id row :=
    if_neg fun own => ne ((targetId_of_mem member).symm.trans own.1)
  rw [List.map_congr_left same, List.map_id]

theorem incidentsOf_updateOpen_self {change : Incident → Incident}
    (keeps : ∀ row, (change row).targetId = row.targetId) :
    (store.updateOpen targetId change).incidentsOf targetId =
      (store.incidentsOf targetId).map fun row =>
        if row.recoveredAt = none then change row else row := by
  rw [incidentsOf_updateOpen keeps]
  apply List.map_congr_left
  intro row member
  simp [targetId_of_mem member]

/-- A write touches the incidents of its target only. -/
theorem incidentsOf_written_of_ne {checkedAt : Nat} {other : String} (write : Option IncidentWrite)
    (ne : other ≠ targetId) :
    (store.written targetId checkedAt write).incidentsOf other = store.incidentsOf other := by
  cases write with
  | none => rfl
  | some write =>
      simp only [Store.written, Option.map_some, Option.getD_some, Store.incidentEvent]
      cases write.action with
      | started => exact incidentsOf_insertIncident_of_ne ne.symm
      | recovered => exact incidentsOf_updateOpen_of_ne (fun row => row.targetId_recover write) ne
      | stillDown => exact incidentsOf_updateOpen_of_ne (fun row => row.targetId_touch checkedAt write) ne

end Rows

/-- The store after the batch of a probe, as far as its incidents go. -/
def Event.batch (store : Store) : Event → Store
  | .history target checkedAt (some result) true =>
      store.written target.id checkedAt
        (buildIncidentUpdate checkedAt result (store.targets.get? target.id)
          (errorText result.error) (orNullText result.cfColo)).write
  | _ => store

section Steps

variable {env : Env} {store : Store} {targetId : String} {event : Event} {result : Result}

theorem step_skipped (skipped : event.result = none) : step env store event = store := by
  cases event with
  | history target checkedAt result batchSucceeds => cases skipped; rfl
  | fast target checkedAt result => cases skipped

/-- What a probe does: its batch, then the merge of a state with its time and its result. -/
theorem step_probed (mirrored : store.Mirrored) (probed : event.result = some result) :
    ∃ latestStatus update, step env store event =
        { store with latestStatus, incidents := (event.batch store).incidents }.applyR2StateUpdate
          event.targetId update ∧
      update.checkedAt = event.checkedAt ∧ update.ok = result.ok ∧
      ∀ other row, latestStatus.get? other = some row →
        store.latestStatus.get? other = some row ∨ (other = event.targetId ∧ row = update) := by
  cases event with
  | fast target checkedAt outcome =>
      cases probed
      exact ⟨store.latestStatus, _, rfl, rfl, rfl, fun _ _ found => .inl found⟩
  | history target checkedAt outcome batchSucceeds =>
      cases probed
      simp only [step, Store.saveCheck, previousState_of_mirrored mirrored]
      cases batchSucceeds with
      | false => exact ⟨store.latestStatus, _, rfl, rfl, rfl, fun _ _ found => .inl found⟩
      | true =>
          obtain ⟨latestStatus, same, rows⟩ := applyProbeWriteBatch_eq env store target.id checkedAt
            (historyState target checkedAt result (store.targets.get? target.id))
            (buildIncidentUpdate checkedAt result (store.targets.get? target.id)
              (errorText result.error) (orNullText result.cfColo)).write
          rw [same]
          exact ⟨latestStatus, _, rfl, rfl, rfl, rows⟩

theorem mirrored_step (mirrored : store.Mirrored) : (step env store event).Mirrored := by
  cases probed : event.result with
  | none => rw [step_skipped probed]; exact mirrored
  | some result =>
      obtain ⟨latestStatus, update, same, _, _, rows⟩ := step_probed mirrored probed
      rw [same]
      intro other row found
      by_cases own : other = event.targetId
      · subst own
        obtain ⟨state, kept, newer, later⟩ := get?_applyR2StateUpdate store event.targetId update
        refine ⟨state, kept, ?_⟩
        cases rows _ row found with
        | inr written => exact written.2 ▸ newer
        | inl before =>
            obtain ⟨earlier, inside, older⟩ := mirrored _ row before
            exact older.trans (later earlier inside)
      · cases rows other row found with
        | inr written => exact absurd written.1 own
        | inl before =>
            obtain ⟨state, inside, older⟩ := mirrored other row before
            exact ⟨state, (get?_applyR2StateUpdate_of_ne update own).trans inside, older⟩

theorem down_step (mirrored : store.Mirrored) (probed : event.result = some result) :
    (step env store event).down event.targetId =
      if store.takes event.targetId event.checkedAt then !result.ok
      else store.down event.targetId := by
  obtain ⟨latestStatus, update, same, time, ok, _⟩ := step_probed mirrored probed
  rw [same, down_applyR2StateUpdate, time, ok]
  rfl

theorem down_step_of_ne (mirrored : store.Mirrored) (ne : targetId ≠ event.targetId) :
    (step env store event).down targetId = store.down targetId := by
  cases probed : event.result with
  | none => rw [step_skipped probed]
  | some result =>
      obtain ⟨latestStatus, update, same, _⟩ := step_probed mirrored probed
      rw [same]
      exact congrArg isDown (get?_applyR2StateUpdate_of_ne update ne)

theorem incidentsOf_step (mirrored : store.Mirrored) :
    (step env store event).incidentsOf targetId = (event.batch store).incidentsOf targetId := by
  cases probed : event.result with
  | some result =>
      obtain ⟨latestStatus, update, same, _⟩ := step_probed mirrored probed
      rw [same]
      rfl
  | none =>
      rw [step_skipped probed]
      cases event with
      | history target checkedAt result batchSucceeds => cases probed; rfl
      | fast target checkedAt result => cases probed

theorem incidentsOf_batch_of_ne (ne : targetId ≠ event.targetId) :
    (event.batch store).incidentsOf targetId = store.incidentsOf targetId := by
  unfold Event.batch
  split
  · exact incidentsOf_written_of_ne _ ne
  · rfl

end Steps

section Follows

variable {incidents : List Incident} {outages : List Nat} {down after : Bool} {start : Nat}

/-- The outages of a target after a probe. -/
def outagesAfter (outages : List Nat) (down after : Bool) (start : Nat) : List Nat :=
  if !down && after then outages ++ [start] else outages

/-- Without a write the state must stay as it is. -/
theorem follows_unwritten (follows : Follows incidents outages down) :
    Follows incidents (outagesAfter outages down after start) after ↔ after = down := by
  constructor
  · intro next
    cases down with
    | true =>
        cases after with
        | true => rfl
        | false =>
            obtain ⟨incident, member, isOpen⟩ := follows.opened rfl
            exact absurd isOpen (next.closed rfl incident member)
    | false =>
        cases after with
        | false => rfl
        | true =>
            obtain ⟨incident, member, isOpen⟩ := next.opened rfl
            exact absurd isOpen (follows.closed rfl incident member)
  · rintro rfl
    cases after <;> exact follows

theorem follows_started {row : Incident} (follows : Follows incidents outages false)
    (isOpen : row.recoveredAt = none) (started : row.startedAt = start) :
    Follows (incidents ++ [row]) (outagesAfter outages false after start) after ↔ after = true := by
  have last : row ∈ incidents ++ [row] := List.mem_append_right _ (List.mem_singleton_self row)
  constructor
  · intro next
    cases after with
    | true => rfl
    | false => exact absurd isOpen (next.closed rfl row last)
  · rintro rfl
    constructor
    · rw [List.map_append, follows.one, List.map_singleton, started]
      rfl
    · exact fun _ => ⟨row, last, isOpen⟩
    · exact fun up => absurd up (by decide)

theorem follows_recovered {write : IncidentWrite} (follows : Follows incidents outages true)
    (recovers : write.recoveredAt ≠ none) :
    Follows (incidents.map fun row => if row.recoveredAt = none then row.recover write else row)
      (outagesAfter outages true after start) after ↔ after = false := by
  have closed : ∀ incident ∈ incidents.map fun row =>
      if row.recoveredAt = none then row.recover write else row,
      incident.recoveredAt ≠ none := by
    intro incident member
    obtain ⟨row, _, rfl⟩ := List.mem_map.mp member
    split
    · exact recovers
    · assumption
  constructor
  · intro next
    cases after with
    | false => rfl
    | true =>
        obtain ⟨incident, member, isOpen⟩ := next.opened rfl
        exact absurd isOpen (closed incident member)
  · rintro rfl
    constructor
    · rw [List.map_map]
      refine Eq.trans (List.map_congr_left fun row _ => ?_) follows.one
      simp only [Function.comp]
      split <;> rfl
    · exact fun isDown => absurd isDown (by decide)
    · exact fun _ => closed

/-- Only the times at which the incidents start and recover matter. -/
theorem follows_of_times {others : List Incident} (follows : Follows incidents outages down)
    (started : others.map Incident.startedAt = incidents.map Incident.startedAt)
    (recovered : others.map Incident.recoveredAt = incidents.map Incident.recoveredAt) :
    Follows others outages down where
  one := started.trans follows.one
  opened := by
    intro isDown
    obtain ⟨incident, member, isOpen⟩ := follows.opened isDown
    have inside : none ∈ others.map Incident.recoveredAt :=
      recovered ▸ isOpen ▸ List.mem_map_of_mem member
    exact List.mem_map.mp inside
  closed := by
    intro isUp incident member isOpen
    have inside : none ∈ incidents.map Incident.recoveredAt :=
      recovered ▸ isOpen ▸ List.mem_map_of_mem member
    obtain ⟨other, listed, same⟩ := List.mem_map.mp inside
    exact follows.closed isUp other listed same

theorem follows_touched {checkedAt : Nat} {write : IncidentWrite}
    (follows : Follows incidents outages down) :
    Follows (incidents.map fun row => if row.recoveredAt = none then row.touch checkedAt write else row)
      (outagesAfter outages down after start) after ↔ after = down := by
  apply follows_unwritten
  apply follows_of_times follows
  all_goals
    rw [List.map_map]
    refine List.map_congr_left fun row _ => ?_
    simp only [Function.comp]
    split <;> rfl

end Follows

section Turns

variable {env : Env} {world : World} {targetId : String} {checkedAt : Nat} {result : Result}

/-- The state stays as it is when it is not turned or the merge keeps the older one. -/
theorem stays_iff (takes ok down : Bool) :
    (if takes then !ok else down) = down ↔ (down = ok → takes = false) := by
  revert takes ok down
  decide

theorem turns_iff (takes ok down : Bool) :
    (if takes then !ok else down) = !down ↔ down = ok ∧ takes = true := by
  revert takes ok down
  decide

theorem outagesOf_observe_of_ne {event : Event} (ne : targetId ≠ event.targetId) :
    (observe env world event).outagesOf targetId = world.outagesOf targetId := by
  simp only [observe, World.outagesOf]
  split
  · simp [ne.symm]
  · rfl

theorem outagesOf_observe (event : Event) :
    (observe env world event).outagesOf event.targetId =
      outagesAfter (world.outagesOf event.targetId) (world.store.down event.targetId)
        ((step env world.store event).down event.targetId) event.checkedAt := by
  simp only [observe, World.outagesOf, outagesAfter]
  split
  · simp
  · rfl

theorem tracked_observe_of_ne {event : Event} (mirrored : world.store.Mirrored)
    (ne : targetId ≠ event.targetId) :
    Tracked targetId (observe env world event) ↔ Tracked targetId world := by
  unfold Tracked
  rw [outagesOf_observe_of_ne ne]
  simp only [observe, down_step_of_ne mirrored ne, incidentsOf_step mirrored,
    incidentsOf_batch_of_ne ne]

theorem follows_insert {store : Store} (row : Incident) {outages : List Nat} {after : Bool}
    (follows : Follows (store.incidentsOf row.targetId) outages false)
    (isOpen : row.recoveredAt = none) :
    Follows ((store.insertIncident row).incidentsOf row.targetId)
      (outagesAfter outages false after row.startedAt) after ↔
    if ∀ incident ∈ store.incidents, incident.id ≠ row.id then after = true else after = false := by
  by_cases fresh : ∀ incident ∈ store.incidents, incident.id ≠ row.id
  · rw [if_pos fresh, incidentsOf_insertIncident_new rfl (follows.closed rfl) fresh]
    exact follows_started follows isOpen rfl
  · rw [if_neg fresh, insertIncident_taken rfl (follows.closed rfl) fresh]
    exact follows_unwritten follows

/-- A batch of a target that follows its state: what it leaves follows the next state exactly when
the turn is recorded. -/
theorem follows_written {store : Store} {outages : List Nat} {after : Bool}
    (follows : Follows (store.incidentsOf targetId) outages (store.down targetId)) :
    Follows ((store.written targetId checkedAt
        (buildIncidentUpdate checkedAt result (store.targets.get? targetId)
          (errorText result.error) (orNullText result.cfColo)).write).incidentsOf targetId)
      (outagesAfter outages (store.down targetId) after checkedAt) after ↔
    if store.down targetId = result.ok ∧ (result.ok = false →
        ∀ incident ∈ store.incidents, incident.id ≠ incidentId targetId checkedAt)
    then after = !store.down targetId
    else after = store.down targetId := by
  have was : isDown (store.targets.get? targetId) = store.down targetId := rfl
  cases wasDown : store.down targetId with
  | false =>
      rw [wasDown] at was follows
      cases ok : result.ok with
      | true =>
          rw [if_neg (by simp)]
          simp only [buildIncidentUpdate, ok, was, Store.written, Option.map_none, Option.getD_none]
          exact follows_unwritten follows
      | false =>
          simp only [buildIncidentUpdate, ok, was, Store.written, Store.incidentEvent,
            Option.map_some, Option.getD_some, true_and, forall_true_left]
          exact follows_insert (IncidentWrite.row targetId _) follows rfl
  | true =>
      rw [wasDown] at was follows
      cases ok : result.ok with
      | true =>
          rw [if_pos (by simp)]
          simp only [buildIncidentUpdate, ok, was, Store.written, Store.incidentEvent,
            Option.map_some, Option.getD_some]
          rw [incidentsOf_updateOpen_self fun row => row.targetId_recover _]
          exact follows_recovered follows (Option.some_ne_none _)
      | false =>
          rw [if_neg (by simp)]
          simp only [buildIncidentUpdate, ok, was, Store.written, Store.incidentEvent,
            Option.map_some, Option.getD_some]
          rw [incidentsOf_updateOpen_self fun row => row.targetId_touch checkedAt _]
          exact follows_touched follows

/-- One probe keeps the incidents of the target in step with its state exactly when a turn of the
state is recorded. -/
theorem tracked_observe {event : Event} (mirrored : world.store.Mirrored)
    (tracked : Tracked targetId world) :
    Tracked targetId (observe env world event) ↔ Recorded targetId world event := by
  by_cases own : event.targetId = targetId
  case neg =>
    rw [tracked_observe_of_ne mirrored (Ne.symm own)]
    exact iff_of_true tracked fun same => absurd same own
  subst own
  unfold Tracked Recorded
  rw [outagesOf_observe, show (observe env world event).store = step env world.store event from rfl,
    incidentsOf_step mirrored]
  simp only [forall_true_left]
  cases event with
  | fast target checkedAt result =>
      refine (follows_unwritten tracked).trans ?_
      rw [down_step mirrored rfl, stays_iff]
      rfl
  | history target checkedAt result batchSucceeds =>
      cases result with
      | none =>
          rw [step_skipped rfl]
          exact (follows_unwritten tracked).trans (iff_of_true rfl True.intro)
      | some result =>
          cases batchSucceeds with
          | false =>
              refine (follows_unwritten tracked).trans ?_
              rw [down_step mirrored rfl, stays_iff]
              simp [Event.targetId, Event.checkedAt]
          | true =>
              refine (follows_written tracked).trans ?_
              rw [down_step mirrored rfl, stays_iff, turns_iff]
              simp only [Event.targetId, Event.checkedAt, true_and]
              by_cases turns : world.store.down target.id = result.ok
              · by_cases fresh : result.ok = false →
                  ∀ incident ∈ world.store.incidents,
                    incident.id ≠ incidentId target.id checkedAt
                · simp only [turns, true_and, iff_true_intro fresh, if_true, iff_true,
                    forall_true_left]
                · simp only [turns, true_and, iff_false_intro fresh, if_false, iff_false,
                    forall_true_left, Bool.not_eq_true]
              · simp [turns]

end Turns

/-- At every moment of a run the incidents of a target follow its state, exactly when each probe that
turns the state is a history probe whose batch succeeds and whose incident is new. -/
theorem outages_have_incidents (env : Env) (targetId : String) (events : List Event) :
    (∀ before, before <+: events → Tracked targetId (runProbes env before)) ↔
      Runs.Along (observe env) (Recorded targetId) {} events := by
  have keep (world : World) (event : Event) (mirrored : world.store.Mirrored)
      (tracked : Tracked targetId world) :
      Tracked targetId (observe env world event) ↔ Recorded targetId world event :=
    tracked_observe mirrored tracked
  have stay (world : World) (event : Event) (mirrored : world.store.Mirrored)
      (_ : Recorded targetId world event) : (observe env world event).store.Mirrored :=
    mirrored_step mirrored
  have empty : ({} : World).store.Mirrored := by
    intro other row found
    cases found
  have untouched : Tracked targetId ({} : World) :=
    { one := rfl
      opened := fun goesDown => Bool.noConfusion goesDown
      closed := fun _ incident member => absurd member List.not_mem_nil }
  exact Runs.along_iff_forall_prefix _ keep stay empty untouched events

section Examples

private def home : Target := { id := "home" }

private def refused : Result := { ok := false, error := some "refused" }

/-- The fast probe finds the outage first, and the history probe takes it for one that goes on. -/
theorem fast_outage_without_incident :
    ¬ Tracked "home" (runProbes {} [.fast home 1000 refused, .history home 1300 (some refused) true]) := by
  intro tracked
  obtain ⟨incident, member, _⟩ := tracked.opened (by decide +kernel)
  have none_ : (runProbes {} [.fast home 1000 refused,
      .history home 1300 (some refused) true]).store.incidentsOf "home" = [] := by decide +kernel
  rw [none_] at member
  cases member

end Examples

end NieSla.Probe
