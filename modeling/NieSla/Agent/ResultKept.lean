import NieSla.Agent.PendingResult

/-! A finished result is delivered, kept in a file or refused for good, as long as no upload of a
kept one is answered by an error status that a later upload could escape. -/
namespace NieSla.Agent
namespace Poller

variable {Payload : Type}

def Settled (poller : Poller Payload) (result : Finished Payload) : Prop :=
  result ∈ poller.delivered ∨ result ∈ poller.refused

def Kept (poller : Poller Payload) (result : Finished Payload) : Prop :=
  ∃ slot, heldIn poller.disk slot = some result

/-- The poll that finished the result is still uploading or writing it. -/
def InHand (poller : Poller Payload) (result : Finished Payload) : Prop :=
  (∃ attempt, poller.phase = .upload result attempt) ∨ poller.phase = .persist result

def Accounted (poller : Poller Payload) : Prop :=
  ∀ result ∈ poller.finished, poller.Settled result ∨ poller.Kept result ∨ poller.InHand result

/-- What the slot holds is no longer owed to the Worker. -/
def Cleared (poller : Poller Payload) (slot : Slot) : Prop :=
  ∀ result, heldIn poller.disk slot = some result → poller.Settled result

/-- No result is lost, a task is claimed only when none is owed, and none that is owed is written
to a slot that holds another. -/
structure Disciplined (poller : Poller Payload) : Prop where
  accounted : poller.Accounted
  claims : poller.phase = .claim → ∀ slot, poller.Cleared slot
  writes : ∀ result, poller.phase = .persist result → poller.Cleared (writeSlot poller.disk)

/-- A restart does not fall between the end of a task and the write of its result, and the file
of a result can be read back. -/
def Assumed (size : Finished Payload → Nat) (poller : Poller Payload) : PollEvent Payload → Prop
  | .restart => ∀ result, ¬ poller.InHand result
  | .outcome payload => ∀ taskId, poller.phase = .execute taskId → size ⟨taskId, payload⟩ ≤ pendingReadBound
  | _ => True

/-- The upload of a kept result is answered by no error status but a terminal client error, and
no claimed task has the empty id. -/
def Spared (poller : Poller Payload) : PollEvent Payload → Prop
  | .answer answer => ∀ slot flushed result, poller.phase = .post slot flushed result →
      ∀ code, answer = .status code → TerminalStatus code
  | .reply reply => ∀ action, reply ≠ some (some ⟨some "", some action⟩)
  | _ => True

/-- What holds at each place in a poll. -/
def PhaseSound (size : Finished Payload → Nat) (poller : Poller Payload) : Phase Payload → Prop
  | .flush slot _ => slot = .backup → poller.Cleared .primary
  | .post slot _ result =>
      heldIn poller.disk slot = some result ∧ (slot = .backup → poller.Cleared .primary)
  | .remove slot _ => poller.Cleared slot ∧ (slot = .backup → poller.Cleared .primary)
  | .claim => ∀ slot, poller.Cleared slot
  | .execute taskId => taskId ≠ "" ∧ ∀ slot, poller.Cleared slot
  | .upload result _ | .persist result =>
      (result.taskId ≠ "" ∧ size result ≤ pendingReadBound) ∧ ∀ slot, poller.Cleared slot

structure Sound (size : Finished Payload → Nat) (poller : Poller Payload) : Prop where
  accounted : poller.Accounted
  phase : poller.PhaseSound size poller.phase

theorem Sound.disciplined {size : Finished Payload → Nat} {poller : Poller Payload}
    (sound : Sound size poller) : poller.Disciplined where
  accounted := sound.accounted
  claims := by
    intro place
    have here := sound.phase
    rwa [place] at here
  writes := by
    intro result place
    have here := sound.phase
    rw [place] at here
    exact here.2 _

section Steps

variable {size : Finished Payload → Nat} {poller next : Poller Payload} {slot : Slot}
  {flushed : Bool} {result : Finished Payload}

/-- Nothing finished, nothing forgotten: what was accounted for still is. -/
theorem Accounted.later (accounted : poller.Accounted) (same : next.finished = poller.finished)
    (settled : ∀ result, poller.Settled result → next.Settled result)
    (kept : ∀ result, poller.Kept result → next.Settled result ∨ next.Kept result)
    (inHand : ∀ result, poller.InHand result →
      next.Settled result ∨ next.Kept result ∨ next.InHand result) : next.Accounted := by
  intro result finished
  rw [same] at finished
  rcases accounted result finished with done | held | busy
  · exact .inl (settled result done)
  · exact (kept result held).imp_right .inl
  · exact inHand result busy

theorem heldIn_of_readable {content : PendingFile Payload} (found : poller.disk slot = some (.file content)) :
    heldIn poller.disk slot = readPendingTaskResult (.file content) := by
  rw [heldIn, found]
  rfl

theorem heldIn_update_self (entry : Option (Entry Payload)) :
    heldIn (Function.update poller.disk slot entry) slot = entry.bind readPendingTaskResult := by
  rw [heldIn, Function.update_self]

theorem heldIn_update_of_ne {other : Slot} (apart : other ≠ slot) (entry : Option (Entry Payload)) :
    heldIn (Function.update poller.disk slot entry) other = heldIn poller.disk other := by
  rw [heldIn, Function.update_of_ne apart]
  rfl

theorem cleared_of_none (nothing : heldIn poller.disk slot = none) : poller.Cleared slot := by
  intro result held
  rw [nothing] at held
  cases held

theorem PhaseSound.nextSlot (here : poller.Cleared slot)
    (before : slot = .backup → poller.Cleared .primary) :
    poller.PhaseSound size (nextSlot flushed slot) := by
  cases slot with
  | primary => exact fun _ => here
  | backup =>
      cases flushed with
      | true => exact nofun
      | false =>
        intro slot
        cases slot with
        | primary => exact before rfl
        | backup => exact here

/-- The file of a slot that owes nothing is removed, or stays. -/
theorem Sound.dropSlot (sound : Sound size poller) (busy : ∀ result, ¬ poller.InHand result)
    (here : poller.Cleared slot) (before : slot = .backup → poller.Cleared .primary) (done : Bool) :
    Sound size
      { poller with
        disk := if done then Function.update poller.disk slot none else poller.disk
        phase := Poller.nextSlot flushed slot } := by
  have held : ∀ other result, heldIn (if done then Function.update poller.disk slot none else poller.disk)
      other = some result → heldIn poller.disk other = some result := by
    intro other result
    cases done with
    | false => exact id
    | true =>
        by_cases apart : other = slot
        · subst apart
          simp [heldIn_update_self]
        · simp [heldIn_update_of_ne apart]
  have stays : ∀ other, poller.Cleared other → ({ poller with
      disk := if done then Function.update poller.disk slot none else poller.disk
      phase := Poller.nextSlot flushed slot } : Poller Payload).Cleared other :=
    fun other cleared result there => cleared result (held other result there)
  refine ⟨sound.accounted.later rfl (fun _ => id) ?_ fun result there => absurd there (busy result), ?_⟩
  · rintro result ⟨other, there⟩
    by_cases apart : other = slot
    · subst apart
      exact .inl (here result there)
    · refine .inr ⟨other, ?_⟩
      cases done with
      | false => exact there
      | true => simpa [heldIn_update_of_ne apart] using there
  · exact .nextSlot (stays slot here) fun last => stays .primary (before last)

theorem sound_examine (sound : Sound size poller) (place : poller.phase = .flush slot flushed)
    (done : Bool) : Sound size (poller.examine slot flushed done) := by
  have before : slot = .backup → poller.Cleared .primary := by
    have here := sound.phase
    rwa [place] at here
  have busy : ∀ result, ¬ poller.InHand result := by
    simp [InHand, place]
  have skip (nothing : heldIn poller.disk slot = none) :
      Sound size { poller with phase := Poller.nextSlot flushed slot } :=
    sound.dropSlot busy (cleared_of_none nothing) before false
  unfold examine
  split
  next absent => exact skip (by simp [heldIn, absent])
  next link => exact skip (by simp [heldIn, link, readPendingTaskResult])
  next content found =>
    have held := heldIn_of_readable found
    split
    next result readable =>
      rw [readable] at held
      exact ⟨sound.accounted.later rfl (fun _ => id) (fun _ => .inr)
        fun result there => absurd there (busy result), held, before⟩
    next unreadable =>
      rw [unreadable] at held
      exact sound.dropSlot busy (cleared_of_none held) before done

theorem Settled.note {other : Finished Payload} (settled : poller.Settled other) (result : Finished Payload)
    (answer : Answer) : (poller.note result answer).Settled other := by
  refine settled.imp (fun there => ?_) (fun there => ?_)
  all_goals
    simp only [Poller.note]
    split
    · exact List.mem_append_left _ there
    · exact there

theorem settled_note_success : (poller.note result .success).Settled result := by
  simp [Settled, note]

theorem settled_note_refused {code : Nat} (terminal : TerminalStatus code) :
    (poller.note result (.status code)).Settled result := by
  have refuses : Refuses (.status code) := ⟨code, rfl, terminal⟩
  simp [Settled, note, refuses]

/-- The answer is noted, and the poll goes on with the same files. -/
theorem Sound.noted (sound : Sound size poller) (answer : Answer) (phase : Phase Payload)
    (busy : ∀ other, poller.InHand other →
      (poller.note result answer).Settled other ∨ ({ poller with phase } : Poller Payload).InHand other)
    (here : PhaseSound size (poller.note result answer) phase) :
    Sound size { poller.note result answer with phase } := by
  refine ⟨sound.accounted.later rfl (fun other there => there.note result answer) (fun _ => .inr) ?_, ?_⟩
  · exact fun other there => (busy other there).imp_right .inr
  · cases phase <;> exact here

theorem Cleared.note (cleared : poller.Cleared slot) (result : Finished Payload) (answer : Answer) :
    (poller.note result answer).Cleared slot :=
  fun other held => (cleared other held).note result answer

theorem sound_post (sound : Sound size poller) (place : poller.phase = .post slot flushed result)
    (answer : Answer) (spared : ∀ code, answer = .status code → TerminalStatus code) :
    Sound size (poller.receive answer) := by
  have here := sound.phase
  rw [place] at here
  obtain ⟨held, before⟩ := here
  have busy : ∀ other, poller.InHand other → (poller.note result answer).Settled other := by
    simp [InHand, place]
  have goOn (phase : Phase Payload) (sounds : PhaseSound size (poller.note result answer) phase) :
      Sound size { poller.note result answer with phase } :=
    sound.noted answer phase (fun other there => .inl (busy other there)) sounds
  have removed (settled : (poller.note result answer).Settled result) :
      (poller.note result answer).Cleared slot := by
    intro other there
    cases held.symm.trans there
    exact settled
  have earlier (last : slot = .backup) := (before last).note result answer
  cases answer with
  | success =>
      simp only [receive, place, postJson]
      exact goOn _ ⟨removed settled_note_success, earlier⟩
  | status code =>
      simp only [receive, place, postJson, terminalTaskStatus, List.findSome?, Option.isSome_some, if_true]
      exact goOn _ ⟨removed (settled_note_refused (spared code rfl)), earlier⟩
  | transport =>
      simp only [receive, place, postJson, terminalTaskStatus, List.findSome?, Option.isSome_none,
        Bool.false_eq_true, if_false]
      exact goOn _ nofun

theorem sound_upload {attempt : Nat} (sound : Sound size poller)
    (place : poller.phase = .upload result attempt) (answer : Answer) :
    Sound size (poller.receive answer) := by
  have here := sound.phase
  rw [place] at here
  obtain ⟨writable, cleared⟩ := here
  have same : ∀ other, poller.InHand other → other = result := by
    rintro other (⟨number, there⟩ | there)
    · cases place.symm.trans there
      rfl
    · cases place.symm.trans there
  have later (slot : Slot) := (cleared slot).note result answer
  have failed (phase : Phase Payload) (again : ({ poller with phase } : Poller Payload).InHand result)
      (sounds : PhaseSound size (poller.note result answer) phase) :
      Sound size { poller.note result answer with phase } := by
    refine sound.noted answer phase (fun other there => .inr ?_) sounds
    rwa [same other there]
  cases answer with
  | success =>
      simp only [receive, place, postJson]
      refine sound.noted .success _ (fun other there => .inl ?_) nofun
      rw [same other there]
      exact settled_note_success
  | status code =>
      simp only [receive, place, postJson]
      split
      · exact failed _ (.inl ⟨_, rfl⟩) ⟨writable, later⟩
      · exact failed _ (.inr rfl) ⟨writable, later⟩
  | transport =>
      simp only [receive, place, postJson]
      split
      · exact failed _ (.inl ⟨_, rfl⟩) ⟨writable, later⟩
      · exact failed _ (.inr rfl) ⟨writable, later⟩

/-- The result in hand goes to a slot that owes nothing. -/
theorem sound_persist (sound : Sound size poller) (place : poller.phase = .persist result)
    (done : Bool) : Sound size (poller.operate size done) := by
  have here := sound.phase
  rw [place] at here
  obtain ⟨⟨named, small⟩, cleared⟩ := here
  have written : heldIn (Function.update poller.disk (writeSlot poller.disk)
      (some (pendingEntry size result))) (writeSlot poller.disk) = some result := by
    rw [heldIn_update_self, Option.bind_some, readPendingTaskResult_pendingEntry named small]
  simp only [operate, place]
  refine ⟨sound.accounted.later rfl (fun _ => id) ?_ ?_, nofun⟩
  · rintro other ⟨slot, held⟩
    exact .inl (cleared slot other held)
  · rintro other (⟨number, there⟩ | there)
    all_goals cases place.symm.trans there
    exact .inr (.inl ⟨_, written⟩)

theorem sound_restart (sound : Sound size poller) (free : ∀ result, ¬ poller.InHand result) :
    Sound size { poller with phase := idle } :=
  ⟨sound.accounted.later rfl (fun _ => id) (fun _ => .inr) fun result there => absurd there (free result),
    nofun⟩

theorem sound_claim (sound : Sound size poller) (place : poller.phase = .claim)
    (reply : Option (Option TaskReply)) (named : ∀ action, reply ≠ some (some ⟨some "", some action⟩)) :
    Sound size (poller.claim reply) := by
  have cleared := sound.phase
  rw [place] at cleared
  have busy : ∀ result, ¬ poller.InHand result := by
    simp [InHand, place]
  simp only [claim, place]
  split
  next taskId action =>
    refine ⟨sound.accounted.later rfl (fun _ => id) (fun _ => .inr) fun result there =>
      absurd there (busy result), ?_, cleared⟩
    rintro rfl
    exact named action rfl
  next => exact sound_restart sound busy

theorem sound_execute {taskId : String} (sound : Sound size poller) (place : poller.phase = .execute taskId)
    (payload : Payload) (small : size ⟨taskId, payload⟩ ≤ pendingReadBound) :
    Sound size (poller.finish payload) := by
  have here := sound.phase
  rw [place] at here
  simp only [finish, place]
  refine ⟨fun result finished => ?_, ⟨here.1, small⟩, here.2⟩
  rcases List.mem_append.mp finished with before | now
  · rcases sound.accounted result before with done | kept | busy
    · exact .inl done
    · exact .inr (.inl kept)
    · simp [InHand, place] at busy
  · rw [List.mem_singleton.mp now]
    exact .inr (.inr (.inl ⟨1, rfl⟩))

theorem sound_operate (sound : Sound size poller) (done : Bool) : Sound size (poller.operate size done) := by
  cases place : poller.phase with
  | flush slot flushed =>
      simp only [operate, place]
      exact sound_examine sound place done
  | remove slot flushed =>
      have here := sound.phase
      rw [place] at here
      simp only [operate, place]
      exact sound.dropSlot (by simp [InHand, place]) here.1 here.2 done
  | persist result => exact sound_persist sound place done
  | post | claim | execute | upload =>
      simp only [operate, place]
      exact sound

/-- One operation of a poll, or a restart. -/
theorem sound_step (sound : Sound size poller) (event : PollEvent Payload)
    (assumed : Assumed size poller event) (spared : Spared poller event) :
    Sound size (poller.step size event) := by
  cases event with
  | file done => exact sound_operate sound done
  | answer answer =>
      cases place : poller.phase with
      | post slot flushed result => exact sound_post sound place answer (spared slot flushed result place)
      | upload result attempt => exact sound_upload sound place answer
      | flush | remove | claim | execute | persist =>
          simp only [step, receive, place]
          exact sound
  | reply reply =>
      cases place : poller.phase with
      | claim => exact sound_claim sound place reply spared
      | flush | post | remove | execute | upload | persist =>
          simp only [step, Poller.claim, place]
          exact sound
  | outcome payload =>
      cases place : poller.phase with
      | execute taskId => exact sound_execute sound place payload (assumed taskId place)
      | flush | post | remove | claim | upload | persist =>
          simp only [step, finish, place]
          exact sound
  | restart => exact sound_restart sound assumed

theorem sound_start (disk : Slot → Option (Entry Payload)) : Sound size (start disk) := by
  refine ⟨fun result finished => .inr (.inl ?_), nofun⟩
  rcases List.mem_append.mp finished with first | second
  · exact ⟨.primary, Option.mem_toList.mp first⟩
  · exact ⟨.backup, Option.mem_toList.mp second⟩

end Steps

/-- Any sequence of polls and restarts, on whatever files there are at first. -/
theorem result_delivered_or_kept (size : Finished Payload → Nat) (disk : Slot → Option (Entry Payload))
    (events : List (PollEvent Payload))
    (along : Runs.Along (step size) (fun poller event => Assumed size poller event ∧ Spared poller event)
      (start disk) events) :
    (Runs.run (step size) (start disk) events).Disciplined := by
  have keep : ∀ poller event, Sound size poller → Assumed size poller event ∧ Spared poller event →
      Sound size (step size poller event) :=
    fun poller event sound allowed => sound_step sound event allowed.1 allowed.2
  exact (Runs.run_invariant keep (sound_start disk) along).disciplined

/-- Three failed uploads of a finished task, and then the Worker is overloaded. -/
def overloaded (code : Nat) : List (PollEvent String) :=
  [.file true, .file true, .reply (some (some ⟨some "tsk_speed", some "nodequality"⟩)), .outcome "report",
    .answer .transport, .answer .transport, .answer .transport, .file true,
    .file true, .answer (.status code), .file true]

def reportSize (_ : Finished String) : Nat := 65536

/-- The same task, deleted on the Worker in the meantime. -/
theorem result_refused_disciplined :
    (Runs.run (step reportSize) (start fun _ => none) (overloaded 410)).Disciplined :=
  result_delivered_or_kept reportSize (fun _ => none) (overloaded 410) (by
    simp [overloaded, Runs.Along, Assumed, Spared, step, operate, receive, claim, finish, start, idle, examine, InHand, nextSlot, postJson,
      note, writeSlot, pendingEntry, readPendingTaskResult, reportSize, pendingReadBound, TerminalStatus])

/-- An overloaded Worker makes the agent throw the result away. -/
theorem overloaded_result_discarded :
    ¬ (Runs.run (step reportSize) (start fun _ => none) (overloaded 503)).Disciplined := by
  intro disciplined
  have lost : (⟨"tsk_speed", "report"⟩ : Finished String) ∈
      (Runs.run (step reportSize) (start fun _ => none) (overloaded 503)).finished := by decide
  rcases disciplined.accounted _ lost with (settled | settled) | ⟨slot, held⟩ | ⟨attempt, busy⟩ | busy
  · revert settled
    decide
  · revert settled
    decide
  · cases slot
    all_goals
      revert held
      decide
  · cases busy
  · cases busy

end Poller
end NieSla.Agent
