import NieSla.Tasks.Operations

/-! What any interleaving of the calls keeps: a task is claimed once, a finished task stays as it
is, a task that is to be cancelled does not succeed or fail, and results are stored only by the
completion that has made their task succeed. -/
namespace NieSla.Tasks

open Processes

/-- What one statement may make of a task. -/
structure Moved (before after : Task) : Prop where
  id : after.id = before.id
  agentId : after.agentId = before.agentId
  settled : before.status.active = false → after = before
  started : before.status ≠ .queued → after.status ≠ .queued
  cancelled : before.cancelRequestedAt.isSome → ¬ before.status.reported →
    after.cancelRequestedAt.isSome ∧ ¬ after.status.reported

theorem Moved.refl (task : Task) : Moved task task where
  id := rfl
  agentId := rfl
  settled _ := rfl
  started queued := queued
  cancelled requested unreported := ⟨requested, unreported⟩

theorem Moved.trans {first second third : Task} (one : Moved first second)
    (two : Moved second third) : Moved first third where
  id := two.id.trans one.id
  agentId := two.agentId.trans one.agentId
  settled finished := by
    have same := one.settled finished
    rw [two.settled (same ▸ finished), same]
  started queued := two.started (one.started queued)
  cancelled requested unreported :=
    have mid := one.cancelled requested unreported
    two.cancelled mid.1 mid.2

theorem moved_abandon {status : Status} {error : Option String} {now : Moment} {task : Task}
    (active : task.status.active = true) (ends : status ≠ .queued) :
    Moved task (abandon status error now task) := by
  unfold abandon
  split
  · rename_i requested
    exact ⟨rfl, rfl, fun finished => by simp [active] at finished, fun _ => by simp,
      fun _ _ => ⟨requested, by simp [Status.reported]⟩⟩
  · rename_i unrequested
    exact ⟨rfl, rfl, fun finished => by simp [active] at finished, fun _ => ends,
      fun requested => absurd requested unrequested⟩

theorem moved_claimed {claim : Claim} {now : Moment} {task : Task} (queued : task.status = .queued) :
    Moved task (claimed claim now task) where
  id := rfl
  agentId := rfl
  settled finished := by simp [queued, Status.active] at finished
  started _ := by simp [claimed]
  cancelled requested _ := ⟨requested, by simp [claimed, Status.reported]⟩

theorem moved_cancelled {now : Moment} {task : Task} (active : task.status.active = true) :
    Moved task (cancelled now task) := by
  unfold cancelled
  split
  · exact ⟨rfl, rfl, fun finished => by simp [active] at finished, fun _ => by simp,
      fun _ _ => ⟨rfl, by simp [Status.reported]⟩⟩
  · exact ⟨rfl, rfl, fun finished => by simp [active] at finished, id,
      fun _ unreported => ⟨rfl, unreported⟩⟩

/-- The outcome of a completion suits the row that it has read. -/
structure Outcome.Suits (outcome : Outcome) (row : Task) : Prop where
  finished : outcome.status.active = false
  cancelled : row.cancelRequestedAt.isSome → outcome.status = .cancelled

theorem suits_outcomeOf (cleaning : Cleaning) (row : Task) (body : Body) (now : Moment) :
    (outcomeOf cleaning row body now).Suits row := by
  unfold outcomeOf
  dsimp only
  split
  · exact ⟨rfl, fun _ => rfl⟩
  · rename_i unrequested
    constructor
    · split
      · rfl
      · split
        · rfl
        · split <;> rfl
    · exact fun requested => absurd requested unrequested

theorem moved_set {row task : Task} {outcome : Outcome} (suits : outcome.Suits row)
    (found : completable row task = true) : Moved task (outcome.set task) := by
  simp only [completable, Bool.and_eq_true, decide_eq_true_eq] at found
  obtain ⟨⟨_, running⟩, same⟩ := found
  have finished := suits.finished
  constructor
  · rfl
  · rfl
  · intro before
    simp [running, Status.active] at before
  · intro _ queued
    rw [show outcome.status = .queued from queued] at finished
    cases finished
  · intro requested _
    refine ⟨requested, ?_⟩
    rw [Outcome.set, suits.cancelled (same ▸ requested)]
    simp [Status.reported]

/-! Stores. -/

section Stores

variable {store after last : Store}

def Store.Distinct (store : Store) : Prop := (store.tasks.map Task.id).Nodup

structure Evolves (store after : Store) : Prop where
  moved : ∀ task ∈ store.tasks, ∃ next ∈ after.tasks, Moved task next
  distinct : store.Distinct → after.Distinct
  journal : store.journal ⊆ after.journal

theorem Evolves.refl (store : Store) : Evolves store store where
  moved task member := ⟨task, member, .refl task⟩
  distinct := id
  journal := List.Subset.refl _

theorem Evolves.trans (one : Evolves store after) (two : Evolves after last) :
    Evolves store last where
  moved task member := by
    obtain ⟨middle, inside, first⟩ := one.moved task member
    obtain ⟨next, there, second⟩ := two.moved middle inside
    exact ⟨next, there, first.trans second⟩
  distinct := two.distinct ∘ one.distinct
  journal := List.Subset.trans one.journal two.journal

/-- Statements that insert nothing. -/
def Rewritten (store after : Store) : Prop :=
  ∃ change : Task → Task, (∀ task, Moved task (change task)) ∧
    after.tasks = store.tasks.map change

theorem Rewritten.of_eq (same : after.tasks = store.tasks) : Rewritten store after :=
  ⟨id, Moved.refl, by rw [same, List.map_id]⟩

theorem rewritten_update {selects : Task → Bool} {set : Task → Task}
    (moves : ∀ task, selects task = true → Moved task (set task)) :
    Rewritten store (store.update selects set) := by
  refine ⟨fun task => if selects task then set task else task, ?_, rfl⟩
  intro task
  dsimp only
  split
  · exact moves task ‹_›
  · exact .refl task

theorem Rewritten.evolves (rewritten : Rewritten store after)
    (journal : store.journal ⊆ after.journal) : Evolves store after := by
  obtain ⟨change, moved, tasks⟩ := rewritten
  constructor
  · intro task member
    exact ⟨change task, tasks ▸ List.mem_map_of_mem member, moved task⟩
  · intro distinct
    have same : after.tasks.map Task.id = store.tasks.map Task.id := by
      rw [tasks, List.map_map]
      exact List.map_congr_left fun task _ => (moved task).id
    rw [Store.Distinct, same]
    exact distinct
  · exact journal

theorem tasks_insert {task : Task} (inserted : store.insert task = some after) :
    after = { store with tasks := store.tasks ++ [task] } ∧
      (∀ row ∈ store.tasks, row.id ≠ task.id) ∧
      ∀ row ∈ store.tasks, row.status.active = true → task.status.active = true →
        row.agentId ≠ task.agentId := by
  unfold Store.insert at inserted
  split at inserted
  · cases inserted
  · rename_i free
    simp only [List.any_eq_true, Bool.or_eq_true, Bool.and_eq_true, decide_eq_true_eq] at free
    cases inserted
    refine ⟨rfl, fun row member same => free ⟨row, member, Or.inl same⟩, ?_⟩
    exact fun row member one two same => free ⟨row, member, Or.inr ⟨⟨one, two⟩, same⟩⟩

theorem evolves_insert {task : Task} (inserted : store.insert task = some after) :
    Evolves store after := by
  obtain ⟨rfl, unused, _⟩ := tasks_insert inserted
  constructor
  · exact fun row member => ⟨row, List.mem_append_left _ member, .refl row⟩
  · intro distinct
    simp only [Store.Distinct, List.map_append, List.map_cons, List.map_nil]
    apply List.nodup_append.mpr
    refine ⟨distinct, List.nodup_singleton _, ?_⟩
    intro id there other same
    obtain ⟨row, member, rfl⟩ := List.mem_map.mp there
    rw [List.mem_singleton.mp same]
    exact unused row member
  · exact List.Subset.refl _

theorem row_eq_some (distinct : store.Distinct) {taskId : String} {task : Task} :
    store.row taskId = some task ↔ task ∈ store.tasks ∧ task.id = taskId := by
  unfold Store.row
  constructor
  · intro found
    exact ⟨List.mem_of_find?_eq_some found, by simpa using List.find?_some found⟩
  · rintro ⟨member, rfl⟩
    cases found : store.tasks.find? fun row => row.id = task.id with
    | none => simpa using List.find?_eq_none.mp found task member
    | some row =>
        have same : row.id = task.id := by simpa using List.find?_some found
        rw [List.inj_on_of_nodup_map distinct (List.mem_of_find?_eq_some found) member same]

/-- A row is found under its id after any number of statements. -/
theorem Evolves.row (evolves : Evolves store after) (distinct : store.Distinct) {taskId : String}
    {task : Task} (found : store.row taskId = some task) :
    ∃ next, after.row taskId = some next ∧ Moved task next := by
  obtain ⟨member, rfl⟩ := (row_eq_some distinct).mp found
  obtain ⟨next, there, moved⟩ := evolves.moved task member
  exact ⟨next, (row_eq_some (evolves.distinct distinct)).mpr ⟨there, moved.id⟩, moved⟩

end Stores

/-! Steps. -/

def Change.claimedTask : Change → Option String
  | .claimed _ taskId => some taskId
  | .succeeded _ _ => none

/-- A claimed task is claimed once, and queued no more. -/
structure Store.Sound (store : Store) : Prop where
  distinct : store.Distinct
  once : (store.journal.filterMap Change.claimedTask).Nodup
  claimed : ∀ call taskId, .claimed call taskId ∈ store.journal →
    ∃ task, store.row taskId = some task ∧ task.status ≠ .queued

/-- The call completes the task of this row. -/
def Completes (calls : Nat → Call) (call : Nat) (taskId : String) : Prop :=
  ∃ agentId body, calls call = .complete taskId agentId body

def Carries (calls : Nat → Call) (call : Nat) (store : Store) : Phase → Prop
  | .completing row outcome => outcome.Suits row ∧ Completes calls call row.id
  | .storing row _ =>
      Completes calls call row.id ∧ .succeeded call row.id ∈ store.journal ∧
        ∃ task, store.row row.id = some task ∧ task.agentId = row.agentId ∧ task.status = .succeeded
  | .cancelling row _ => row.status.active = true
  | .waiting | .checking _ _ _ | .inserting _ _ _ | .expiring _ _ _ | .failingStale _ _ _
  | .recovering _ | .selecting _ | .claiming _ _ | .finished => True

section Steps

variable {cleaning : Cleaning} {calls : Nat → Call} {call other : Nat} {store after : Store}
  {phase : Phase} {input : Input}

theorem Carries.later (evolves : Evolves store after) (distinct : store.Distinct)
    (carries : Carries calls call store phase) : Carries calls call after phase := by
  cases phase with
  | storing row columns =>
      obtain ⟨completes, done, task, found, owner, succeeded⟩ := carries
      obtain ⟨next, there, moved⟩ := evolves.row distinct found
      have same := moved.settled (by rw [succeeded]; rfl)
      exact ⟨completes, evolves.journal done, next, there, same ▸ owner, same ▸ succeeded⟩
  | _ => exact carries

variable (cleaning input) in
/-- A statement rewrites rows, or it is the `INSERT` of a creation. -/
theorem tasks_act (carries : Carries calls call store phase) :
    Rewritten store (act cleaning calls call store phase input).1 ∨
      ∃ agentId action options, phase = .inserting agentId action options ∧
        store.insert (newTask agentId action options input) =
          some (act cleaning calls call store phase input).1 := by
  cases phase with
  | inserting agentId action options =>
      cases inserted : store.insert (newTask agentId action options input) with
      | none => exact Or.inl (.of_eq (by simp only [act, inserted, Option.getD_none]))
      | some after =>
          refine Or.inr ⟨agentId, action, options, rfl, ?_⟩
          simp only [act, inserted, Option.getD_some]
  | expiring taskIds now claim =>
      apply Or.inl
      apply rewritten_update
      intro task selected
      simp only [expires, Bool.and_eq_true] at selected
      exact moved_abandon selected.1.2 (by simp)
  | failingStale taskIds now claim =>
      apply Or.inl
      apply rewritten_update
      intro task selected
      simp only [stale, Bool.and_eq_true, decide_eq_true_eq] at selected
      exact moved_abandon (by rw [selected.1.1.2]; rfl) (by simp)
  | recovering claim =>
      apply Or.inl
      simp only [act]
      split
      · exact .of_eq rfl
      · apply rewritten_update
        intro task selected
        simp only [orphaned, Bool.and_eq_true, decide_eq_true_eq] at selected
        exact moved_abandon (by rw [selected.1.2]; rfl) (by simp)
  | claiming claim queuedId =>
      apply Or.inl
      simp only [act]
      split
      · apply rewritten_update
        intro task selected
        simp only [claimable, Bool.and_eq_true, decide_eq_true_eq] at selected
        exact moved_claimed selected.2
      · exact .of_eq rfl
  | completing row outcome =>
      have updated : Rewritten store (store.update (completable row) outcome.set) :=
        rewritten_update fun task => moved_set carries.1
      apply Or.inl
      simp only [act]
      split
      · split <;> exact updated
      · exact .of_eq rfl
  | cancelling row now =>
      apply Or.inl
      apply rewritten_update
      intro task selected
      simp only [Bool.and_eq_true, decide_eq_true_eq] at selected
      apply moved_cancelled
      rw [selected.2]
      exact carries
  | checking _ _ _ | selecting _ =>
      apply Or.inl
      simp only [act]
      split <;> exact .of_eq rfl
  | waiting | storing _ _ | finished => exact Or.inl (.of_eq rfl)

variable (cleaning calls call store input) in
theorem journal_act (unclaiming : ∀ claim queuedId, phase ≠ .claiming claim queuedId) :
    ∃ added, (act cleaning calls call store phase input).1.journal = store.journal ++ added ∧
      added.filterMap Change.claimedTask = [] := by
  cases phase with
  | claiming claim queuedId => exact absurd rfl (unclaiming claim queuedId)
  | completing row outcome =>
      simp only [act]
      split
      · split
        · exact ⟨[.succeeded call row.id], rfl, rfl⟩
        · exact ⟨[], (List.append_nil _).symm, rfl⟩
      · exact ⟨[], (List.append_nil _).symm, rfl⟩
  | inserting agentId action options =>
      refine ⟨[], ?_, rfl⟩
      simp only [act, Store.insert, List.append_nil]
      split <;> rfl
  | checking _ _ _ | recovering _ | selecting _ =>
      refine ⟨[], ?_, rfl⟩
      simp only [act, List.append_nil]
      split <;> rfl
  | waiting | expiring _ _ _ | failingStale _ _ _ | storing _ _ | cancelling _ _ | finished =>
      exact ⟨[], (List.append_nil _).symm, rfl⟩

variable (cleaning input) in
theorem evolves_act (carries : Carries calls call store phase) :
    Evolves store (act cleaning calls call store phase input).1 := by
  have grows : store.journal ⊆ (act cleaning calls call store phase input).1.journal := by
    by_cases claiming : ∃ claim queuedId, phase = .claiming claim queuedId
    · obtain ⟨claim, queuedId, rfl⟩ := claiming
      simp only [act]
      split
      · exact List.subset_append_left _ _
      · exact List.Subset.refl _
    · obtain ⟨added, journal, _⟩ := journal_act cleaning calls call store input
        fun claim queuedId same => claiming ⟨claim, queuedId, same⟩
      rw [journal]
      exact List.subset_append_left _ _
  cases tasks_act cleaning input carries with
  | inl rewritten => exact rewritten.evolves grows
  | inr inserts =>
      obtain ⟨agentId, action, options, _, inserted⟩ := inserts
      exact evolves_insert inserted

/-- An update that finds a row with this id makes what it sets of it. -/
theorem row_update (distinct : store.Distinct) {selects : Task → Bool} {set : Task → Task}
    {taskId : String} (own : ∀ task, selects task = true → task.id = taskId)
    (evolves : Evolves store (store.update selects set))
    (kept : ∀ task, (set task).id = task.id) (found : 1 ≤ store.changes selects) :
    ∃ task, store.row taskId = some task ∧ selects task = true ∧
      (store.update selects set).row taskId = some (set task) := by
  obtain ⟨task, member, selected⟩ := List.countP_pos_iff.mp found
  refine ⟨task, (row_eq_some distinct).mpr ⟨member, own task selected⟩, selected, ?_⟩
  apply (row_eq_some (evolves.distinct distinct)).mpr
  constructor
  · apply List.mem_map.mpr
    exact ⟨task, member, if_pos selected⟩
  · rw [kept, own task selected]

/-- What was claimed before a statement is queued no more after it. -/
theorem claimed_later (sound : store.Sound) (evolves : Evolves store after) {taskId : String}
    (claimed : .claimed other taskId ∈ store.journal) :
    ∃ task, after.row taskId = some task ∧ task.status ≠ .queued := by
  obtain ⟨task, found, started⟩ := sound.claimed other taskId claimed
  obtain ⟨next, there, moved⟩ := evolves.row sound.distinct found
  exact ⟨next, there, moved.started started⟩

theorem sound_claiming (sound : store.Sound) {claim : Claim} {queuedId : String} :
    (act cleaning calls call store (.claiming claim queuedId) input).1.Sound := by
  have evolves : Evolves store (act cleaning calls call store (.claiming claim queuedId) input).1 :=
    evolves_act cleaning input True.intro
  simp only [act] at evolves ⊢
  split at evolves
  case isFalse missing =>
    rw [if_neg missing]
    exact sound
  rename_i found
  rw [if_pos found]
  have updated : Evolves store
      (store.update (claimable claim queuedId) (claimed claim input.now)) :=
    ⟨evolves.moved, evolves.distinct, List.Subset.refl _⟩
  obtain ⟨task, before, selected, now⟩ := row_update sound.distinct
    (fun task selected => by
      simp only [claimable, Bool.and_eq_true, decide_eq_true_eq] at selected
      exact selected.1.1) updated (fun _ => rfl) found
  simp only [claimable, Bool.and_eq_true, decide_eq_true_eq] at selected
  constructor
  · exact evolves.distinct sound.distinct
  · simp only [Store.record, Store.update, List.filterMap_append, List.filterMap_cons,
      Change.claimedTask, List.filterMap_nil]
    apply List.nodup_append.mpr
    refine ⟨sound.once, List.nodup_singleton _, ?_⟩
    intro taskId earlier other same
    rw [List.mem_singleton.mp same]
    rintro rfl
    obtain ⟨change, inside, names⟩ := List.mem_filterMap.mp earlier
    cases change with
    | succeeded owner id => cases names
    | claimed owner id =>
        cases names
        obtain ⟨again, there, started⟩ := sound.claimed owner _ inside
        rw [before] at there
        cases there
        exact started selected.2
  · intro owner taskId member
    cases List.mem_append.mp member with
    | inl earlier => exact claimed_later sound evolves earlier
    | inr new =>
        cases List.mem_singleton.mp new
        exact ⟨_, now, by simp [claimed]⟩

theorem sound_act (sound : store.Sound) (carries : Carries calls call store phase) :
    (act cleaning calls call store phase input).1.Sound := by
  by_cases claiming : ∃ claim queuedId, phase = .claiming claim queuedId
  · obtain ⟨claim, queuedId, rfl⟩ := claiming
    exact sound_claiming sound
  · have evolves := evolves_act cleaning input carries
    obtain ⟨added, journal, unclaimed⟩ := journal_act cleaning calls call store input
      fun claim queuedId same => claiming ⟨claim, queuedId, same⟩
    constructor
    · exact evolves.distinct sound.distinct
    · rw [journal, List.filterMap_append, unclaimed, List.append_nil]
      exact sound.once
    · intro owner taskId member
      rw [journal] at member
      cases List.mem_append.mp member with
      | inl earlier => exact claimed_later sound evolves earlier
      | inr new =>
          have named : taskId ∈ added.filterMap Change.claimedTask :=
            List.mem_filterMap.mpr ⟨_, new, rfl⟩
          rw [unclaimed] at named
          cases named

theorem carries_choice {condition : Prop} [Decidable condition] {yes no : Store × Phase}
    (first : condition → Carries calls call yes.1 yes.2)
    (second : ¬ condition → Carries calls call no.1 no.2) :
    Carries calls call (if condition then yes else no).1 (if condition then yes else no).2 := by
  by_cases holds : condition
  · rw [if_pos holds]
    exact first holds
  · rw [if_neg holds]
    exact second holds

theorem carries_start {next : Phase} (begun : start cleaning (calls call) store input = next) :
    Carries calls call store next := by
  cases called : calls call with
  | create agentId action options =>
      simp only [called, start] at begun
      split at begun
      · split at begun <;> exact begun ▸ True.intro
      · exact begun ▸ True.intro
  | claim agentId allowedAction runnerInstanceId =>
      simp only [called, start] at begun
      split at begun <;> exact begun ▸ True.intro
  | complete taskId agentId body =>
      simp only [called, start] at begun
      split at begun
      · rename_i row found
        split at begun
        · have same : row.id = taskId := by simpa using List.find?_some found
          subst begun
          refine ⟨suits_outcomeOf _ _ _ _, agentId, body, ?_⟩
          rw [called, same]
        · exact begun ▸ True.intro
      · exact begun ▸ True.intro
  | cancel taskId =>
      simp only [called, start] at begun
      split at begun
      · split at begun
        · rename_i active
          subst begun
          exact active
        · exact begun ▸ True.intro
      · exact begun ▸ True.intro
  | expireStale agentId =>
      simp only [called, start] at begun
      exact begun ▸ True.intro

theorem carries_completing (sound : store.Sound) {row : Task} {outcome : Outcome}
    (carries : Carries calls call store (.completing row outcome)) :
    Carries calls call (act cleaning calls call store (.completing row outcome) input).1
      (act cleaning calls call store (.completing row outcome) input).2 := by
  simp only [act]
  refine carries_choice (fun found => ?_) (fun _ => True.intro)
  refine carries_choice (fun succeeded => ?_) (fun _ => True.intro)
  cases outcome.store with
  | none => exact True.intro
  | some columns =>
      have updated : Evolves store (store.update (completable row) outcome.set) :=
        (rewritten_update fun task => moved_set carries.1).evolves (List.Subset.refl _)
      obtain ⟨task, _, selected, now⟩ := row_update sound.distinct
        (fun task selected => by
          simp only [completable, Bool.and_eq_true, decide_eq_true_eq] at selected
          exact selected.1.1.1) updated (fun _ => rfl) found
      simp only [completable, Bool.and_eq_true, decide_eq_true_eq] at selected
      exact ⟨carries.2, List.mem_append_right _ (List.mem_singleton_self _), _, now,
        selected.1.1.2, succeeded⟩

theorem carries_act (sound : store.Sound) (carries : Carries calls call store phase) :
    Carries calls call (act cleaning calls call store phase input).1
      (act cleaning calls call store phase input).2 := by
  cases phase with
  | waiting =>
      simp only [act]
      exact carries_start rfl
  | completing row outcome => exact carries_completing sound carries
  | failingStale taskIds now claim => cases claim <;> exact True.intro
  | checking _ _ _ | claiming _ _ =>
      simp only [act]
      exact carries_choice (fun _ => True.intro) (fun _ => True.intro)
  | selecting claim =>
      simp only [act]
      cases queuedTask claim input.now store <;> exact True.intro
  | inserting _ _ _ | expiring _ _ _ | recovering _ | storing _ _ | cancelling _ _ | finished =>
      exact True.intro

theorem keeps_sound :
    Keeps (act cleaning calls) (fun _ _ _ _ => True) Store.Sound (Carries calls) where
  shared _ _ _ _ sound carries _ := sound_act sound carries
  self _ _ _ _ sound carries _ := carries_act sound carries
  others _ _ _ _ sound carries _ _ _ _ waiting := waiting.later (evolves_act _ _ carries) sound.distinct

/-- The result columns of the rows of a target. -/
def Store.results (store : Store) (targetId : String) : List TargetResults :=
  (store.targets.filter fun target => target.id = targetId).map Target.results

variable (cleaning calls call store input) in
theorem targets_act (unstoring : ∀ row columns, phase ≠ .storing row columns) :
    (act cleaning calls call store phase input).1.targets = store.targets := by
  cases phase with
  | storing row columns => exact absurd rfl (unstoring row columns)
  | inserting agentId action options =>
      simp only [act, Store.insert]
      split <;> rfl
  | completing row outcome =>
      simp only [act]
      split
      · split <;> rfl
      · rfl
  | checking _ _ _ | recovering _ | selecting _ | claiming _ _ =>
      simp only [act]
      split <;> rfl
  | waiting | expiring _ _ _ | failingStale _ _ _ | cancelling _ _ | finished => rfl

theorem results_updateTarget {targetId other : String} (apart : targetId ≠ other)
    (columns : TargetResults → TargetResults) :
    (store.updateTarget other columns).results targetId = store.results targetId := by
  unfold Store.results Store.updateTarget
  induction store.targets with
  | nil => rfl
  | cons target rest ih =>
      by_cases own : target.id = other
      · have foreign : target.id ≠ targetId := own ▸ apart.symm
        simpa [own, foreign, apart.symm] using ih
      · by_cases named : target.id = targetId
        · simpa [own, named, apart] using ih
        · simpa [own, named] using ih

theorem storing_of_results {targetId : String}
    (changed : (act cleaning calls call store phase input).1.results targetId ≠
      store.results targetId) :
    ∃ row columns, phase = .storing row columns ∧ row.agentId = targetId := by
  by_cases storing : ∃ row columns, phase = .storing row columns
  · obtain ⟨row, columns, rfl⟩ := storing
    refine ⟨row, columns, rfl, ?_⟩
    by_contra apart
    exact changed (results_updateTarget (Ne.symm apart) columns)
  · have same := targets_act cleaning calls call store input fun row columns same => storing ⟨row, columns, same⟩
    rw [Store.results, same] at changed
    exact absurd rfl changed

end Steps

section Runs

variable (cleaning : Cleaning) (calls : Nat → Call)

/-- All calls are about to start. -/
def opened (tasks : List Task) (targets : List Target) : Pool Store Phase :=
  ⟨⟨tasks, targets, []⟩, fun _ => .waiting⟩

def runCalls (pool : Pool Store Phase) (events : List (Nat × Input)) : Pool Store Phase :=
  Runs.run (step (act cleaning calls)) pool events

variable {cleaning calls}

theorem sound_opened {tasks : List Task} (distinct : (tasks.map Task.id).Nodup)
    (targets : List Target) : Invariant Store.Sound (Carries calls) (opened tasks targets) where
  shared :=
    { distinct := distinct
      once := List.nodup_nil
      claimed := by
        intro call taskId member
        cases member }
  phase _ := True.intro

variable (cleaning) in
/-- Every run keeps the invariant, and only moves the tasks that it finds. -/
theorem run_sound {pool : Pool Store Phase} (sound : Invariant Store.Sound (Carries calls) pool)
    (events : List (Nat × Input)) :
    Invariant Store.Sound (Carries calls) (runCalls cleaning calls pool events) ∧
      Evolves pool.shared (runCalls cleaning calls pool events).shared := by
  have keep (state : Pool Store Phase) (event : Nat × Input)
      (holds : Invariant Store.Sound (Carries calls) state ∧ Evolves pool.shared state.shared) :
      Invariant Store.Sound (Carries calls) (step (act cleaning calls) state event) ∧
        Evolves pool.shared (step (act cleaning calls) state event).shared :=
    ⟨invariant_step keeps_sound holds.1 True.intro,
      holds.2.trans (evolves_act cleaning event.2 (holds.1.phase event.1))⟩
  exact Runs.run_invariant_of_step keep events ⟨sound, .refl _⟩

/-- In every run a task is claimed at most once, a finished task stays as it is, a task whose
cancellation was requested does not come to succeed or to fail, and the results of a target change
only by a completion that has made its task succeed. -/
theorem task_state_machine (cleaning : Cleaning) (calls : Nat → Call) (tasks : List Task)
    (targets : List Target) (distinct : (tasks.map Task.id).Nodup)
    (first second : List (Nat × Input)) :
    let middle := runCalls cleaning calls (opened tasks targets) first
    let last := runCalls cleaning calls middle second
    (last.shared.journal.filterMap Change.claimedTask).Nodup ∧
      (∀ taskId task, middle.shared.row taskId = some task → task.status.active = false →
        last.shared.row taskId = some task) ∧
      (∀ taskId task, middle.shared.row taskId = some task → task.cancelRequestedAt.isSome →
        ¬ task.status.reported →
          ∃ next, last.shared.row taskId = some next ∧ ¬ next.status.reported) ∧
      ∀ event targetId,
        (step (act cleaning calls) last event).shared.results targetId ≠
          last.shared.results targetId →
        ∃ taskId task, Completes calls event.1 taskId ∧
          .succeeded event.1 taskId ∈ last.shared.journal ∧
          last.shared.row taskId = some task ∧ task.agentId = targetId ∧
          task.status = .succeeded := by
  intro middle last
  have before : Invariant Store.Sound (Carries calls) middle :=
    (run_sound cleaning (sound_opened distinct targets) first).1
  obtain ⟨sound, evolves⟩ := run_sound cleaning before second
  refine ⟨sound.shared.once, ?_, ?_, ?_⟩
  · intro taskId task found finished
    obtain ⟨next, there, moved⟩ := evolves.row before.shared.distinct found
    rw [moved.settled finished] at there
    exact there
  · intro taskId task found requested unreported
    obtain ⟨next, there, moved⟩ := evolves.row before.shared.distinct found
    exact ⟨next, there, (moved.cancelled requested unreported).2⟩
  · intro event targetId changed
    obtain ⟨row, columns, phase, own⟩ := storing_of_results changed
    have carries := sound.phase event.1
    rw [phase] at carries
    obtain ⟨completes, done, task, found, owner, succeeded⟩ := carries
    exact ⟨row.id, task, completes, done, found, owner.trans own, succeeded⟩

private def plain : Cleaning where
  normalizeTaskResult _ result := .ok (.ipUnlock result)
  normalizeAgentNodeQualityReport report _ := .ok ⟨report, none⟩
  uploadNodeQualityReportImages := id
  sanitizeAnsiContent := id
  storedResult _ _ _ := "stored"

private def unlockTask : Task where
  id := "task"
  agentId := "node-1"
  action := .ipUnlock
  options := none
  status := .queued
  requestedAt := 100
  expiresAt := 1600

/-- One call claims a task and another completes it. -/
private def claimAndComplete : Nat → Call
  | 0 => .claim "Node 1" none "runner"
  | _ => .complete "task" "node-1" { status := "succeeded", result := "services" }

theorem task_state_machine_completedTask :
    let start := opened [unlockTask] [⟨"node-1", "tcp", true, {}⟩]
    let done := runCalls plain claimAndComplete start
      (List.replicate 6 (0, ⟨⟨200, by decide⟩, "", true⟩) ++
        List.replicate 3 (1, ⟨⟨300, by decide⟩, "", true⟩))
    done.shared.journal = [.claimed 0 "task", .succeeded 1 "task"] ∧
      (done.shared.journal.filterMap Change.claimedTask).Nodup ∧
      done.shared.results "node-1" = [{
        unlockData := some "services", unlockUpdatedAt := some 300, updatedAt := some 300 }] :=
  ⟨by decide +kernel, (task_state_machine plain claimAndComplete [unlockTask]
    [⟨"node-1", "tcp", true, {}⟩] (by decide) [] _).1, by decide +kernel⟩

end Runs

end NieSla.Tasks
