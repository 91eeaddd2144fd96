import NieSla.Telemetry.Exports

/-! An hour that is written again is exported again, as long as no run deletes the row of an export
whose object has been written since the run has read it. -/
namespace NieSla.Telemetry
open Processes

/-- A written object is there. -/
def Written (store : ExportStore) : Prop :=
  ∀ key, 0 < store.written key → (store.chunks.objects.get? key).isSome = true

/-- What a run that is about to delete a row has read is exported, or was not there. -/
def Exported (store : ExportStore) : RunPhase → Prop
  | .exporting _ entry (.clear version) _ => version ≤ store.exported entry.1
  | _ => True

/-- The hour is to be exported, and no row says so. -/
def Due (store : ExportStore) (key : HourKey) : Prop :=
  Owed store key ∧ store.chunks.exports.get? key = none

section Phases

variable {env : Env} {store : ExportStore} {key : HourKey}

theorem exported_nextExport (currentAt : Int) (rows : List (HourKey × ExportAttempt)) :
    Exported store (nextExport currentAt rows) := by
  induction rows with
  | nil => trivial
  | cons entry rest ih =>
      unfold nextExport
      split
      · exact ih
      · trivial

theorem exported_addExportPage (currentAt : Int) (exports : OrderedMap HourKey ExportAttempt)
    (listed : List (HourKey × ExportAttempt)) (startAfter : Option HourKey) :
    Exported store (addExportPage currentAt exports listed startAfter) := by
  unfold addExportPage
  dsimp only
  split
  · exact exported_nextExport currentAt _
  · trivial

theorem exported_failedExport (currentAt : Int) (entry : HourKey × ExportAttempt)
    (attempt : ExportAttempt) (error : String) (rest : List (HourKey × ExportAttempt)) :
    Exported store (.exporting currentAt entry (failedExport currentAt attempt error) rest) := by
  unfold failedExport
  dsimp only
  split <;> trivial

theorem exported_afterFlush (currentAt : Int) (phase : FlushPhase) :
    Exported store (afterFlush env currentAt phase) := by
  cases phase with
  | finished =>
      simp only [afterFlush]
      split <;> trivial
  | listing legacy listed startAfter => trivial
  | flushing item await rest => trivial

end Phases

section Steps

variable {collate : String → String → Bool} {env : Env} {calls : Nat → FlushCall} {store : ExportStore}
  {phase : RunPhase} {input : RunInput} {key : HourKey}

/-- Of the stores only the exported versions grow at an export that goes well. -/
theorem exported_mono (call : Nat) (key : HourKey) :
    store.exported key ≤ (flushAct collate env calls call store phase input).1.exported key := by
  unfold flushAct
  cases phase with
  | waiting =>
      dsimp only
      split
      · exact le_rfl
      · split <;> exact le_rfl
  | flushing currentAt phase => cases phase <;> exact le_rfl
  | listing | finished => exact le_rfl
  | exporting currentAt entry await rest =>
      cases await with
      | read | clear | drop | retry => exact le_rfl
      | sending version =>
          unfold resumeExport
          dsimp only
          split
          · exact le_rfl
          · by_cases same : key = entry.1
            · subst same
              simp
            · simp [Function.update_of_ne same]

theorem written_step (call : Nat) (written : Written store) :
    Written (flushAct collate env calls call store phase input).1 := by
  unfold flushAct
  cases phase with
  | waiting =>
      dsimp only
      split
      · exact written
      · split
        · exact written
        · exact written
  | flushing currentAt phase =>
      cases phase with
      | listing | finished => exact written
      | flushing item await rest =>
          cases await with
          | put merged =>
              intro key positive
              simp only [resumeFlush, resumeHour, countWrite] at positive ⊢
              by_cases same : key = item.key
              · subst same
                simp
              · rw [Function.update_of_ne same] at positive
                rw [OrderedMap.get?_set_of_ne _ _ same]
                exact written key positive
          | readBack =>
              simp only [resumeFlush, resumeHour]
              split <;> exact written
          | get | head | exportGet | exportPut | delete => exact written
  | listing | finished => exact written
  | exporting currentAt entry await rest =>
      cases await with
      | sending version =>
          simp only [resumeExport]
          split <;> exact written
      | read | clear | drop | retry => exact written

theorem exported_step (call : Nat) (written : Written store) :
    Exported (flushAct collate env calls call store phase input).1
      (flushAct collate env calls call store phase input).2 := by
  unfold flushAct
  cases phase with
  | waiting =>
      dsimp only
      split
      · trivial
      · split <;> trivial
  | flushing currentAt phase => exact exported_afterFlush currentAt _
  | listing currentAt listed startAfter => exact exported_addExportPage currentAt _ _ _
  | finished => trivial
  | exporting currentAt entry await rest =>
      cases await with
      | read =>
          simp only [resumeExport]
          split
          · exact exported_failedExport currentAt entry _ _ rest
          · split
            · trivial
            · rename_i absent
              have never : store.written entry.1 = 0 :=
                Nat.eq_zero_of_not_pos fun positive => absent (written entry.1 positive)
              simp [Exported, never]
      | sending version =>
          simp only [resumeExport]
          split
          · exact exported_failedExport currentAt entry _ _ rest
          · simp [Exported]
      | clear | drop | retry => exact exported_nextExport currentAt rest

/-- What is due after a step was due before it, or the run has just written the object. -/
theorem answers_step (enabled : env.timeseriesExport = true) :
    Answers (flushAct collate env calls) ClearsCurrent Written (fun _ => Exported) Due Queues := by
  intro call store phase input written exported current key due
  unfold flushAct at due ⊢
  cases phase with
  | waiting =>
      refine .inl ⟨?_, id⟩
      dsimp only at due
      split at due
      · exact due
      · split at due <;> exact due
  | listing currentAt listed startAfter => exact .inl ⟨due, id⟩
  | finished => exact .inl ⟨due, id⟩
  | flushing currentAt phase =>
      cases phase with
      | listing | finished => exact .inl ⟨due, id⟩
      | flushing item await rest =>
          by_cases same : item.key = key
          · subst same
            cases await with
            | get => exact .inl ⟨due, And.right⟩
            | put merged => exact .inr ⟨rfl, trivial⟩
            | head => exact .inr ⟨rfl, trivial⟩
            | readBack =>
                simp only [resumeFlush, resumeHour, enabled, if_true]
                exact .inr ⟨rfl, trivial⟩
            | exportGet => exact .inr ⟨rfl, trivial⟩
            | exportPut attempt =>
                have stored := due.2
                simp [resumeFlush, resumeHour] at stored
            | delete row others => exact .inl ⟨due, And.right⟩
          · refine .inl ⟨?_, fun queues => same queues.1⟩
            have other : key ≠ item.key := Ne.symm same
            cases await with
            | put merged =>
                simpa [Due, Owed, resumeFlush, resumeHour, countWrite, Function.update_of_ne other] using due
            | exportPut attempt =>
                simpa [Due, Owed, resumeFlush, resumeHour, OrderedMap.get?_set_of_ne _ _ other] using due
            | readBack =>
                simp only [resumeFlush, resumeHour, enabled, if_true] at due
                exact due
            | get | head | exportGet | delete => exact due
  | exporting currentAt entry await rest =>
      refine .inl ⟨?_, id⟩
      by_cases same : key = entry.1
      · subst same
        cases await with
        | read => exact due
        | sending version =>
            simp only [resumeExport] at due
            split at due
            · exact due
            · obtain ⟨⟨later, kept⟩, absent⟩ := due
              refine ⟨⟨lt_of_le_of_lt ?_ later, kept⟩, absent⟩
              simp
        | clear version =>
            have later : store.exported entry.1 < store.written entry.1 := due.1.1
            have now : store.written entry.1 = version := current
            exact absurd (exported.trans_lt later) (now ▸ lt_irrefl _)
        | drop =>
            have kept := due.1.2
            simp [resumeExport] at kept
        | retry attempt =>
            have stored := due.2
            simp [resumeExport] at stored
      · cases await with
        | read => exact due
        | sending version =>
            simp only [resumeExport] at due
            split at due
            · exact due
            · simpa [Due, Owed, Function.update_of_ne same] using due
        | clear version => simpa [Due, Owed, resumeExport, OrderedMap.get?_erase_of_ne _ same] using due
        | drop =>
            simpa [Due, Owed, resumeExport, OrderedMap.get?_erase_of_ne _ same, Function.update_of_ne same]
              using due
        | retry attempt =>
            simpa [Due, Owed, resumeExport, OrderedMap.get?_set_of_ne _ _ same] using due

theorem keeps_exports :
    Keeps (flushAct collate env calls) ClearsCurrent Written (fun _ => Exported) where
  shared call _ _ _ written _ _ := written_step call written
  self call _ _ _ written _ _ := exported_step call written
  others call _ phase input _ _ _ other _ idle remembers := by
    cases idle with
    | exporting currentAt entry await rest =>
        cases await with
        | clear version => exact remembers.trans (exported_mono call entry.1)
        | read | sending | drop | retry => trivial
    | waiting | flushing | listing | finished => trivial

end Steps

/-- Any number of runs, in any order of their steps: where an object has been written after every
version that is exported was read, and the export was not dropped since, a row of the export is stored
or a run is about to store it. -/
theorem changed_hour_queued (collate : String → String → Bool) (env : Env)
    (enabled : env.timeseriesExport = true) (calls : Nat → FlushCall) (chunks : ChunkStore)
    (events : List (Nat × RunInput))
    (current : Runs.Along (Processes.step (flushAct collate env calls)) (Allowed ClearsCurrent)
      ⟨⟨chunks, fun _ => 0, fun _ => 0, fun _ => 0⟩, fun _ => .waiting⟩ events) (key : HourKey) :
    let pool := Runs.run (Processes.step (flushAct collate env calls))
      ⟨⟨chunks, fun _ => 0, fun _ => 0, fun _ => 0⟩, fun _ => .waiting⟩ events
    Owed pool.shared key → (pool.shared.chunks.exports.get? key).isSome = true ∨
      ∃ call, Queues (pool.phase call) key := by
  intro pool owed
  have initial : Invariant Written (fun _ => Exported)
      (⟨⟨chunks, fun _ => 0, fun _ => 0, fun _ => 0⟩, fun _ => .waiting⟩ : Pool ExportStore RunPhase) :=
    ⟨fun _ positive => absurd positive (Nat.lt_irrefl 0), fun _ => trivial⟩
  have covered : Covered Due Queues
      (⟨⟨chunks, fun _ => 0, fun _ => 0, fun _ => 0⟩, fun _ => .waiting⟩ : Pool ExportStore RunPhase) :=
    fun _ due => absurd due.1.1 (Nat.lt_irrefl 0)
  have reached := (run_covered keeps_exports (answers_step enabled) initial covered current).2
  cases stored : pool.shared.chunks.exports.get? key with
  | some attempt => exact .inl rfl
  | none => exact .inr (reached key ⟨owed, stored⟩)

private def exportAgent : AgentId := ⟨"exporter", by decide +kernel, by decide⟩

private def exportSample (ts : Int) : Batch := { points := [⟨ts, [("mem", 1)], []⟩] }

private def exportOrder (first second : String) : Bool := first ≤ second

private def exportEnv : Env := { timeseriesExport := true }

private def exportChunks : ChunkStore := appendLocal exportOrder exportAgent (exportSample 10810) .empty

/-- The first call is an alarm, the second brings a late point of the same hour. -/
private def exportCalls : Nat → FlushCall
  | 0 => none
  | _ => some (exportAgent, exportSample 10811)

/-- As many steps of a call, at one time. -/
private def exportSteps (call count : Nat) : List (Nat × RunInput) :=
  List.replicate count (call, { now := 30000 })

/-- The second call starts when the first has deleted the row, and stores it again. -/
theorem changed_hour_queued_again :
    let pool := Runs.run (Processes.step (flushAct exportOrder exportEnv exportCalls))
      ⟨⟨exportChunks, fun _ => 0, fun _ => 0, fun _ => 0⟩, fun _ => .waiting⟩
      (exportSteps 0 14 ++ exportSteps 1 10)
    (pool.shared.chunks.exports.get? (exportAgent, 10800)).isSome = true ∨
      ∃ call, Queues (pool.phase call) (exportAgent, 10800) :=
  changed_hour_queued exportOrder exportEnv rfl exportCalls exportChunks _ (by decide +kernel)
    (exportAgent, 10800) (by decide +kernel)

/-- The second call writes the object and stores the row while the first is exporting, which then
deletes it; both runs end. -/
theorem late_point_not_exported :
    let pool := Runs.run (Processes.step (flushAct exportOrder exportEnv exportCalls))
      ⟨⟨exportChunks, fun _ => 0, fun _ => 0, fun _ => 0⟩, fun _ => .waiting⟩
      (exportSteps 0 12 ++ exportSteps 1 9 ++ exportSteps 0 2 ++ exportSteps 1 2)
    pool.phase 0 = .finished ∧ pool.phase 1 = .finished ∧ Owed pool.shared (exportAgent, 10800) ∧
      pool.shared.chunks.exports = .empty := by
  refine ⟨?_, ?_, ?_, ?_⟩
  all_goals decide +kernel

end NieSla.Telemetry
