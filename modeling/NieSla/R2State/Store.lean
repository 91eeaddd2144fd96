import NieSla.Lib.OrderedMap
import NieSla.Util.Number

/-! The state object in R2 and the updates that are merged into it. -/
namespace NieSla.R2State

/-- An update, and the record of its target once it is stored. A `targetId` that is empty is
missing, and so is a time that is 0; `detail` is what nothing here reads. -/
structure StateUpdate where
  targetId : String
  checkedAt : Nat
  historyCheckedAt : Nat := 0
  detail : String := ""
deriving DecidableEq

abbrev Targets := OrderedMap String StateUpdate

/-- The record of a target after an update. -/
def currentRecord (previous : Option StateUpdate) (update : StateUpdate) : StateUpdate :=
  match previous with
  | none => update
  | some previous =>
      let current := if previous.checkedAt ≤ update.checkedAt then update else previous
      { current with
        historyCheckedAt := max update.historyCheckedAt previous.historyCheckedAt }

def applyR2StateUpdate (targets : Targets) (update : StateUpdate) : Targets :=
  targets.set update.targetId (currentRecord (targets.get? update.targetId) update)

def r2StateSchema : String := "nie-sla-r2-state-v1"

structure StateObject where
  schema : String
  updatedAt : Option Int
  targets : Targets

def readR2State : Option StateObject → StateObject
  | none => ⟨r2StateSchema, none, OrderedMap.empty⟩
  | some state =>
      { state with schema := if state.schema = "" then r2StateSchema else state.schema }

def targetsOf (object : Option StateObject) : Targets := (readR2State object).targets

/-- The loop of `mergeR2StateUpdates`. -/
def mergeUpdates (state : StateObject) (updates : List StateUpdate) (now : Int) : StateObject where
  schema := r2StateSchema
  updatedAt := some now
  targets := updates.foldl (fun targets update =>
    if update.targetId = "" then targets else applyR2StateUpdate targets update) state.targets

/-- The object that `removeTargetFromR2State` writes, if it writes one. -/
def removeTarget (state : StateObject) (targetId : String) (now : Int) : Option StateObject :=
  if (state.targets.get? targetId).isSome then
    some { state with updatedAt := some now, targets := state.targets.erase targetId }
  else none

/-! The state sync session. Its overlay holds the very objects of its list of updates, so that what
is set on one of them is set in the list as well. -/

structure Session where
  updates : List StateUpdate
  overlay : OrderedMap String Nat

def createR2StateSyncSession : Session := ⟨[], OrderedMap.empty⟩

def Session.setHistory (session : Session) (index : Nat) (historyCheckedAt : Nat) : Session :=
  { session with
    updates := session.updates.modify index fun update => { update with historyCheckedAt } }

def Session.addUpdate (session : Session) (update : StateUpdate) : Session :=
  if update.targetId = "" then session
  else
    let added := session.updates.length
    let updates := session.updates ++ [update]
    match session.overlay.get? update.targetId with
    | none => ⟨updates, session.overlay.set update.targetId added⟩
    | some index =>
        let previous := updates.getD index update
        let current := if previous.checkedAt ≤ update.checkedAt then added else index
        Session.setHistory ⟨updates, session.overlay.set update.targetId current⟩ current
          (max update.historyCheckedAt previous.historyCheckedAt)

def Session.add (session : Session) (list : List StateUpdate) : Session :=
  list.foldl Session.addUpdate session

/-- One round of the loop of `applyOverlay`. -/
def Session.overlayOne (view : Session × Targets) (index : Nat) : Session × Targets :=
  match view.1.updates[index]? with
  | none => view
  | some update =>
      let previous := view.2.get? update.targetId
      (if previous.all fun previous => previous.checkedAt ≤ update.checkedAt then
          view.1.setHistory index (currentRecord previous update).historyCheckedAt
        else view.1,
        applyR2StateUpdate view.2 update)

def Session.applyOverlay (session : Session) (targets : Targets) : Session × Targets :=
  session.overlay.values.foldl Session.overlayOne (session, targets)

inductive SessionStep where
  | add (list : List StateUpdate)
  | applyOverlay (targets : Targets)

def Session.step (session : Session) : SessionStep → Session
  | .add list => session.add list
  | .applyOverlay targets => (session.applyOverlay targets).1

def SessionStep.given : SessionStep → List StateUpdate
  | .add list => list
  | .applyOverlay _ => []

/-- The list that a session hands over to `mergeR2StateUpdates`. -/
def sessionUpdates (steps : List SessionStep) : List StateUpdate :=
  (steps.foldl Session.step createR2StateSyncSession).updates

/-! What the object comes to when one update or removal follows the other. -/

inductive Op where
  | put (update : StateUpdate)
  | remove (targetId : String)
deriving DecidableEq

def applyOp (targets : Targets) : Op → Targets
  | .put update => applyR2StateUpdate targets update
  | .remove targetId => targets.erase targetId

/-- The record is that of the update, its history marker as high or higher. -/
structure Reflects (record update : StateUpdate) : Prop where
  targetId : record.targetId = update.targetId
  checkedAt : record.checkedAt = update.checkedAt
  detail : record.detail = update.detail
  history : update.historyCheckedAt ≤ record.historyCheckedAt

theorem Reflects.refl (update : StateUpdate) : Reflects update update := ⟨rfl, rfl, rfl, le_rfl⟩

theorem Reflects.trans {record between update : StateUpdate} (first : Reflects record between)
    (second : Reflects between update) : Reflects record update where
  targetId := first.targetId.trans second.targetId
  checkedAt := first.checkedAt.trans second.checkedAt
  detail := first.detail.trans second.detail
  history := second.history.trans first.history

theorem reflects_raised {update : StateUpdate} {historyCheckedAt : Nat}
    (raised : update.historyCheckedAt ≤ historyCheckedAt) :
    Reflects { update with historyCheckedAt } update := ⟨rfl, rfl, rfl, raised⟩

theorem currentRecord_of_ge {previous : Option StateUpdate} {update : StateUpdate}
    (newest : ∀ record ∈ previous, record.checkedAt ≤ update.checkedAt) :
    Reflects (currentRecord previous update) update := by
  cases previous with
  | none => exact .refl update
  | some record =>
      simp only [currentRecord, if_pos (newest record rfl)]
      exact reflects_raised (le_max_left _ _)

theorem currentRecord_of_lt {record update : StateUpdate} (older : update.checkedAt < record.checkedAt) :
    Reflects (currentRecord (some record) update) record := by
  simp only [currentRecord, if_neg (Nat.not_le.mpr older)]
  exact reflects_raised (le_max_right _ _)

/-- A record stays until its target is removed or gets an update that is not older. -/
theorem reflects_applyOp {targets : Targets} {record update : StateUpdate} {op : Op}
    (found : targets.get? update.targetId = some record) (reflects : Reflects record update)
    (removed : op ≠ .remove update.targetId)
    (replaced : ∀ later, op = .put later → later.targetId = update.targetId →
      later.checkedAt < update.checkedAt) :
    ∃ record, (applyOp targets op).get? update.targetId = some record ∧ Reflects record update := by
  cases op with
  | remove targetId =>
      have other : update.targetId ≠ targetId := by
        rintro rfl
        exact removed rfl
      exact ⟨record, (OrderedMap.get?_erase_of_ne _ other).trans found, reflects⟩
  | put later =>
      simp only [applyOp, applyR2StateUpdate]
      by_cases same : later.targetId = update.targetId
      · rw [same, OrderedMap.get?_set_self, found]
        have older : later.checkedAt < record.checkedAt := by
          rw [reflects.checkedAt]
          exact replaced later rfl same
        exact ⟨_, rfl, (currentRecord_of_lt older).trans reflects⟩
      · exact ⟨record, (OrderedMap.get?_set_of_ne _ _ (Ne.symm same)).trans found, reflects⟩

theorem reflects_foldl {update : StateUpdate} {ops : List Op} {targets : Targets}
    {record : StateUpdate} (found : targets.get? update.targetId = some record)
    (reflects : Reflects record update) (removed : .remove update.targetId ∉ ops)
    (replaced : ∀ later, .put later ∈ ops → later.targetId = update.targetId →
      later.checkedAt < update.checkedAt) :
    ∃ record, (ops.foldl applyOp targets).get? update.targetId = some record ∧
      Reflects record update := by
  induction ops generalizing targets record with
  | nil => exact ⟨record, found, reflects⟩
  | cons op rest ih =>
      rw [List.mem_cons, not_or] at removed
      obtain ⟨first, others⟩ := removed
      obtain ⟨next, found, reflects⟩ := reflects_applyOp found reflects (Ne.symm first)
        fun later is same => replaced later (is ▸ List.mem_cons_self) same
      exact ih found reflects others fun later member => replaced later (List.mem_cons_of_mem _ member)

/-- An update is in the object in the end, or a newer record was there already, or an update that is
not older came after it, or its target was removed after it. -/
theorem put_kept (targets : Targets) (before after : List Op) (update : StateUpdate) :
    (∃ record, ((before ++ .put update :: after).foldl applyOp targets).get? update.targetId =
        some record ∧ Reflects record update) ∨
      (∃ record, (before.foldl applyOp targets).get? update.targetId = some record ∧
        update.checkedAt < record.checkedAt) ∨
      (∃ later, .put later ∈ after ∧ later.targetId = update.targetId ∧
        update.checkedAt ≤ later.checkedAt) ∨
      .remove update.targetId ∈ after := by
  by_cases newer : ∃ record, (before.foldl applyOp targets).get? update.targetId = some record ∧
      update.checkedAt < record.checkedAt
  · exact .inr (.inl newer)
  by_cases replaced : ∃ later, .put later ∈ after ∧ later.targetId = update.targetId ∧
      update.checkedAt ≤ later.checkedAt
  · exact .inr (.inr (.inl replaced))
  by_cases removed : .remove update.targetId ∈ after
  · exact .inr (.inr (.inr removed))
  left
  have newest : ∀ record ∈ (before.foldl applyOp targets).get? update.targetId,
      record.checkedAt ≤ update.checkedAt := fun record found => by
    by_contra older
    exact newer ⟨record, found, Nat.lt_of_not_le older⟩
  rw [List.foldl_append, List.foldl_cons]
  exact reflects_foldl (OrderedMap.get?_set_self _ _ _) (currentRecord_of_ge newest) removed
    fun later member same => by
      by_contra late
      exact replaced ⟨later, member, same, Nat.le_of_not_lt late⟩

/-! What is given to a session is in its list. -/

/-- Every update of the first list is in the second one. -/
def Retains (first second : List StateUpdate) : Prop :=
  ∀ update ∈ first, ∃ record ∈ second, Reflects record update

theorem Retains.trans {first second third : List StateUpdate} (before : Retains first second)
    (after : Retains second third) : Retains first third := by
  intro update member
  obtain ⟨between, member, reflects⟩ := before update member
  obtain ⟨record, member, again⟩ := after between member
  exact ⟨record, member, again.trans reflects⟩

theorem retains_of_subset {first second : List StateUpdate} (subset : first ⊆ second) :
    Retains first second := fun update member => ⟨update, subset member, .refl update⟩

theorem retains_setHistory {updates : List StateUpdate} {index historyCheckedAt : Nat}
    (raised : ∀ update ∈ updates[index]?, update.historyCheckedAt ≤ historyCheckedAt) :
    Retains updates (updates.modify index fun update => { update with historyCheckedAt }) := by
  intro update member
  obtain ⟨place, found⟩ := List.getElem?_of_mem member
  by_cases same : index = place
  · subst same
    refine ⟨{ update with historyCheckedAt }, List.mem_of_getElem? (i := index) ?_,
      reflects_raised (raised update found)⟩
    simp [found]
  · refine ⟨update, List.mem_of_getElem? (i := place) ?_, .refl update⟩
    simp [found, same]

theorem addUpdate_retains (session : Session) (update : StateUpdate) :
    Retains session.updates (session.addUpdate update).updates ∧
      (update.targetId ≠ "" → ∃ record ∈ (session.addUpdate update).updates,
        Reflects record update) := by
  by_cases missing : update.targetId = ""
  · rw [Session.addUpdate, if_pos missing]
    exact ⟨retains_of_subset (List.Subset.refl _), fun named => absurd missing named⟩
  · have all : Retains (session.updates ++ [update]) (session.addUpdate update).updates := by
      simp only [Session.addUpdate, if_neg missing]
      split
      · exact retains_of_subset (List.Subset.refl _)
      · next index found =>
          apply retains_setHistory
          intro record held
          split at held
          · have : record = update := by simpa using held.symm
            exact this ▸ le_max_left _ _
          · rw [List.getD_eq_getElem?_getD, Option.mem_def.mp held]
            exact le_max_right _ _
    have added : update ∈ session.updates ++ [update] := by simp
    exact ⟨(retains_of_subset (List.subset_append_left _ _)).trans all, fun _ => all update added⟩

theorem add_retains (session : Session) (list : List StateUpdate) :
    Retains session.updates (session.add list).updates ∧
      ∀ update ∈ list, update.targetId ≠ "" →
        ∃ record ∈ (session.add list).updates, Reflects record update := by
  induction list generalizing session with
  | nil => exact ⟨retains_of_subset (List.Subset.refl _), by simp⟩
  | cons first rest ih =>
      obtain ⟨kept, added⟩ := addUpdate_retains session first
      obtain ⟨later, others⟩ := ih (session.addUpdate first)
      refine ⟨kept.trans later, ?_⟩
      rw [List.forall_mem_cons]
      refine ⟨fun named => ?_, others⟩
      obtain ⟨record, member, reflects⟩ := added named
      obtain ⟨last, member, again⟩ := later record member
      exact ⟨last, member, again.trans reflects⟩

theorem overlayOne_retains (view : Session × Targets) (index : Nat) :
    Retains view.1.updates (Session.overlayOne view index).1.updates := by
  unfold Session.overlayOne
  split
  · exact retains_of_subset (List.Subset.refl _)
  · next update found =>
      dsimp only
      split
      · next newest =>
          apply retains_setHistory
          intro record held
          rw [found, Option.mem_some_iff] at held
          subst held
          apply (currentRecord_of_ge _).history
          intro previous before
          rw [Option.all_eq_true] at newest
          exact of_decide_eq_true (newest previous before)
      · exact retains_of_subset (List.Subset.refl _)

theorem applyOverlay_retains (session : Session) (targets : Targets) :
    Retains session.updates (session.applyOverlay targets).1.updates := by
  have all (indices : List Nat) (view : Session × Targets) :
      Retains view.1.updates (indices.foldl Session.overlayOne view).1.updates := by
    induction indices generalizing view with
    | nil => exact retains_of_subset (List.Subset.refl _)
    | cons index rest ih => exact (overlayOne_retains view index).trans (ih _)
  exact all session.overlay.values (session, targets)

theorem step_retains (session : Session) (step : SessionStep) :
    Retains session.updates (session.step step).updates ∧
      ∀ update ∈ step.given, update.targetId ≠ "" →
        ∃ record ∈ (session.step step).updates, Reflects record update := by
  cases step with
  | add list => exact add_retains session list
  | applyOverlay targets => exact ⟨applyOverlay_retains session targets, by simp [SessionStep.given]⟩

theorem sessionUpdates_given (steps : List SessionStep) :
    ∀ update ∈ steps.flatMap SessionStep.given, update.targetId ≠ "" →
      ∃ record ∈ sessionUpdates steps, Reflects record update := by
  have all (session : Session) : Retains session.updates (steps.foldl Session.step session).updates ∧
      ∀ update ∈ steps.flatMap SessionStep.given, update.targetId ≠ "" →
        ∃ record ∈ (steps.foldl Session.step session).updates, Reflects record update := by
    induction steps generalizing session with
    | nil => exact ⟨retains_of_subset (List.Subset.refl _), by simp⟩
    | cons step rest ih =>
        obtain ⟨kept, given⟩ := step_retains session step
        obtain ⟨later, others⟩ := ih (session.step step)
        refine ⟨kept.trans later, fun update member named => ?_⟩
        rw [List.flatMap_cons, List.mem_append] at member
        cases member with
        | inr member => exact others update member named
        | inl member =>
            obtain ⟨record, member, reflects⟩ := given update member named
            obtain ⟨last, member, again⟩ := later record member
            exact ⟨last, member, again.trans reflects⟩
  exact (all createR2StateSyncSession).2

end NieSla.R2State
