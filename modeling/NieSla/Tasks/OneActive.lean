import NieSla.Tasks.StateMachine

/-! How many tasks of one agent are queued or running. The check of a creation knows the canonical
id and the id of the target, the unique index knows the raw `agent_id` only. -/
namespace NieSla.Tasks

open Processes

/-- Two active tasks of one agent, under whatever spelling, are the same task. -/
def Store.OneActive (store : Store) : Prop :=
  ∀ first ∈ store.tasks, ∀ second ∈ store.tasks,
    first.status.active = true → second.status.active = true →
      sanitizeAgentId first.agentId = sanitizeAgentId second.agentId → first.id = second.id

/-- A creation that inserts its row finds no active task of the agent under another spelling. -/
def Unaliased (_call : Nat) (store : Store) (phase : Phase) (input : Input) : Prop :=
  match phase with
  | .inserting agentId _ _ =>
      (∀ task ∈ store.tasks, task.id ≠ input.uuid) →
        ∀ task ∈ store.tasks, task.status.active = true →
          sanitizeAgentId task.agentId = sanitizeAgentId agentId → task.agentId = agentId
  | _ => True

instance (call : Nat) (store : Store) : ∀ phase input, Decidable (Unaliased call store phase input)
  | .inserting agentId _ _, input => inferInstanceAs (Decidable
      ((∀ task ∈ store.tasks, task.id ≠ input.uuid) → ∀ task ∈ store.tasks,
        task.status.active = true →
          sanitizeAgentId task.agentId = sanitizeAgentId agentId → task.agentId = agentId))
  | .waiting, _ | .checking _ _ _, _ | .expiring _ _ _, _ | .failingStale _ _ _, _
  | .recovering _, _ | .selecting _, _ | .claiming _ _, _ | .completing _ _, _ | .storing _ _, _
  | .cancelling _ _, _ | .finished, _ => .isTrue True.intro

section Steps

variable {cleaning : Cleaning} {calls : Nat → Call} {call : Nat} {store after : Store}
  {phase : Phase} {input : Input}

theorem Moved.active {before after : Task} (moved : Moved before after)
    (active : after.status.active = true) : before.status.active = true := by
  by_contra finished
  have same := moved.settled (Bool.eq_false_iff.mpr finished)
  rw [same] at active
  exact finished active

theorem oneActive_rewritten (rewritten : Rewritten store after) (one : store.OneActive) :
    after.OneActive := by
  obtain ⟨change, moved, tasks⟩ := rewritten
  intro first inside second there active running same
  rw [tasks] at inside there
  obtain ⟨before, member, rfl⟩ := List.mem_map.mp inside
  obtain ⟨earlier, listed, rfl⟩ := List.mem_map.mp there
  rw [(moved before).agentId, (moved earlier).agentId] at same
  rw [(moved before).id, (moved earlier).id]
  exact one before member earlier listed ((moved before).active active)
    ((moved earlier).active running) same

/-- An inserted row leaves one active task exactly when no other spelling is active. -/
theorem oneActive_insert {agentId : String} {action : Action} {options : Option String}
    (inserted : store.insert (newTask agentId action options input) = some after)
    (one : store.OneActive) :
    after.OneActive ↔ Unaliased call store (.inserting agentId action options) input := by
  obtain ⟨rfl, unused, unindexed⟩ := tasks_insert inserted
  have last : newTask agentId action options input ∈
      store.tasks ++ [newTask agentId action options input] :=
    List.mem_append_right _ (List.mem_singleton_self _)
  constructor
  · intro single _ task member active same
    exact absurd (single task (List.mem_append_left _ member) _ last active rfl same)
      (unused task member)
  · intro unaliased
    -- The index excludes the spelling that is inserted, the condition all others.
    have free (task : Task) (member : task ∈ store.tasks) (active : task.status.active = true)
        (same : sanitizeAgentId task.agentId = sanitizeAgentId agentId) : False :=
      unindexed task member active rfl (unaliased unused task member active same)
    intro first inside second there active running same
    cases List.mem_append.mp inside with
    | inl before =>
        cases List.mem_append.mp there with
        | inl earlier => exact one first before second earlier active running same
        | inr new =>
            rw [List.mem_singleton.mp new] at same
            exact (free first before active same).elim
    | inr new =>
        rw [List.mem_singleton.mp new] at same ⊢
        cases List.mem_append.mp there with
        | inl earlier => exact (free second earlier running same.symm).elim
        | inr other => rw [List.mem_singleton.mp other]

/-- An insert that fails has found the row that the condition asks for. -/
theorem unaliased_of_conflict {agentId : String} {action : Action} {options : Option String}
    (conflict : store.insert (newTask agentId action options input) = none)
    (one : store.OneActive) (distinct : store.Distinct) :
    Unaliased call store (.inserting agentId action options) input := by
  intro unused task member active same
  unfold Store.insert at conflict
  split at conflict
  case isFalse => cases conflict
  rename_i found
  simp only [List.any_eq_true, Bool.or_eq_true, Bool.and_eq_true, decide_eq_true_eq] at found
  obtain ⟨row, inside, clash⟩ := found
  cases clash with
  | inl taken => exact absurd taken (unused row inside)
  | inr indexed =>
      have owner : row.agentId = agentId := indexed.2
      have equal := one task member row inside active indexed.1.1 (by rw [same, owner])
      rw [List.inj_on_of_nodup_map distinct member inside equal, owner]

theorem oneActive_act (sound : store.Sound) (carries : Carries calls call store phase)
    (one : store.OneActive) :
    (act cleaning calls call store phase input).1.OneActive ↔ Unaliased call store phase input := by
  cases tasks_act cleaning input carries with
  | inr inserts =>
      obtain ⟨agentId, action, options, rfl, inserted⟩ := inserts
      exact oneActive_insert inserted one
  | inl rewritten =>
      refine iff_of_true (oneActive_rewritten rewritten one) ?_
      cases phase with
      | inserting agentId action options =>
          cases inserted : store.insert (newTask agentId action options input) with
          | none => exact unaliased_of_conflict inserted one sound.distinct
          | some next =>
              simp only [act, inserted, Option.getD_some] at rewritten
              exact (oneActive_insert inserted one).mp (oneActive_rewritten rewritten one)
      | _ => exact True.intro

end Steps

/-- At every moment of a run at most one task of each agent is active, exactly when every creation
that inserts its row finds no active task of the agent under another spelling. -/
theorem one_active_task (cleaning : Cleaning) (calls : Nat → Call) (tasks : List Task)
    (targets : List Target) (distinct : (tasks.map Task.id).Nodup)
    (one : (opened tasks targets).shared.OneActive) (events : List (Nat × Input)) :
    (∀ before, before <+: events →
        (runCalls cleaning calls (opened tasks targets) before).shared.OneActive) ↔
      Runs.Along (step (act cleaning calls)) (Allowed Unaliased) (opened tasks targets) events := by
  have keep (state : Pool Store Phase) (event : Nat × Input)
      (holds : Invariant Store.Sound (Carries calls) state) (single : state.shared.OneActive) :
      (step (act cleaning calls) state event).shared.OneActive ↔
        Allowed Unaliased state event :=
    oneActive_act holds.shared (holds.phase event.1) single
  have stay (state : Pool Store Phase) (event : Nat × Input)
      (holds : Invariant Store.Sound (Carries calls) state) (_ : Allowed Unaliased state event) :
      Invariant Store.Sound (Carries calls) (step (act cleaning calls) state event) :=
    invariant_step keeps_sound holds True.intro
  exact Runs.along_iff_forall_prefix _ keep stay (sound_opened distinct targets) one events

section Examples

private def noCleaning : Cleaning where
  normalizeTaskResult _ _ := .error "no result"
  normalizeAgentNodeQualityReport _ _ := .error "no report"
  uploadNodeQualityReportImages := id
  sanitizeAnsiContent := id
  storedResult _ _ _ := ""

private def vps : Target := ⟨"node-1", "tcp", true, {}⟩

private def sameSpelling : Nat → Call := fun _ => .create "Node 1" .backroute none

/-- Two overlapping creations: both find no task, and the index refuses the second insert. -/
theorem one_active_task_sameSpelling :
    (runCalls noCleaning sameSpelling (opened [] [vps])
      [(0, ⟨⟨100, by decide⟩, "a", true⟩), (1, ⟨⟨100, by decide⟩, "b", true⟩),
        (0, ⟨⟨101, by decide⟩, "a", true⟩), (1, ⟨⟨101, by decide⟩, "b", true⟩),
        (0, ⟨⟨102, by decide⟩, "a", true⟩), (1, ⟨⟨102, by decide⟩, "b", true⟩)]).shared.OneActive := by
  apply (one_active_task noCleaning sameSpelling [] [vps] (by decide) _ _).mpr _ _ List.prefix_rfl
  · intro first inside
    cases inside
  · decide +kernel

private def twoSpellings : Nat → Call
  | 0 => .create "Node 1" .backroute none
  | _ => .create "node-1" .ipUnlock none

/-- A task under a spelling that is neither the canonical id nor the id of the target is seen by
neither the check nor the index, also when the second creation starts after the first. -/
theorem second_spelling_queued :
    ¬ (runCalls noCleaning twoSpellings (opened [] [vps])
      (List.replicate 3 (0, ⟨⟨100, by decide⟩, "a", true⟩) ++
        List.replicate 3 (1, ⟨⟨200, by decide⟩, "b", true⟩))).shared.OneActive := by
  intro one
  have tasks : (runCalls noCleaning twoSpellings (opened [] [vps])
      (List.replicate 3 (0, ⟨⟨100, by decide⟩, "a", true⟩) ++
        List.replicate 3 (1, ⟨⟨200, by decide⟩, "b", true⟩))).shared.tasks =
      [newTask "Node 1" .backroute none ⟨⟨100, by decide⟩, "a", true⟩,
        newTask "node-1" .ipUnlock none ⟨⟨200, by decide⟩, "b", true⟩] := by decide +kernel
  have same := one _ (tasks ▸ List.mem_cons_self) _
    (tasks ▸ List.mem_cons_of_mem _ (List.mem_singleton_self _)) rfl rfl (by decide +kernel)
  exact absurd same (by decide)

end Examples

end NieSla.Tasks
