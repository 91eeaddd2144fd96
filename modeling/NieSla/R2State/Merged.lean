import NieSla.R2State.Lock

/-! The lock of the state object excludes, so that no merge is lost. -/
namespace NieSla.R2State

/-- What a call does to the object. -/
def Call.ops : Call → List Op
  | .remove targetId => [.remove targetId]
  | call => (call.updates.filter fun update => update.targetId ≠ "").map .put

/-- What the calls that have written do to the object, in the order of their writes. -/
def written (calls : Nat → Call) (writes : List Nat) : List Op :=
  writes.flatMap fun call => (calls call).ops

theorem mergeUpdates_targets (state : StateObject) (updates : List StateUpdate) (now : Int) :
    (mergeUpdates state updates now).targets =
      ((updates.filter fun update => update.targetId ≠ "").map Op.put).foldl applyOp
        state.targets := by
  simp only [mergeUpdates]
  generalize state.targets = targets
  induction updates generalizing targets with
  | nil => rfl
  | cons update rest ih =>
      by_cases missing : update.targetId = ""
      · simp [missing, ih]
      · simp [missing, ih, applyOp]

theorem removeTarget_targets {state next : StateObject} {targetId : String} {now : Int}
    (wrote : removeTarget state targetId now = some next) :
    next.targets = state.targets.erase targetId := by
  unfold removeTarget at wrote
  split at wrote
  · exact congrArg StateObject.targets (Option.some.inj wrote).symm
  · contradiction

theorem next_targets {call : Call} {state next : StateObject} {now : Int}
    (wrote : call.next state now = some next) :
    next.targets = call.ops.foldl applyOp state.targets := by
  cases call with
  | remove targetId => exact removeTarget_targets wrote
  | merge updates =>
      rw [← Option.some.inj wrote]
      exact mergeUpdates_targets state updates now
  | session steps =>
      rw [← Option.some.inj wrote]
      exact mergeUpdates_targets state (sessionUpdates steps) now

theorem given_ops {call : Call} {update : StateUpdate} (given : update ∈ call.given)
    (named : update.targetId ≠ "") : ∃ record, .put record ∈ call.ops ∧ Reflects record update := by
  have stored {list : List StateUpdate} {record : StateUpdate} (member : record ∈ list)
      (reflects : Reflects record update) :
      Op.put record ∈ (list.filter fun update => update.targetId ≠ "").map Op.put := by
    refine List.mem_map_of_mem (List.mem_filter.mpr ⟨member, ?_⟩)
    exact decide_eq_true (reflects.targetId.trans_ne named)
  cases call with
  | remove targetId => exact absurd given List.not_mem_nil
  | merge updates => exact ⟨update, stored given (.refl update), .refl update⟩
  | session steps =>
      obtain ⟨record, member, reflects⟩ := sessionUpdates_given steps update given named
      exact ⟨record, stored member reflects, reflects⟩

section Exclusion

variable {env : Env} {uuid : Nat → Nat → String} {calls : Nat → Call}

/-- The call holds the lock for as long as its time has not run out. -/
structure HoldsLock (uuid : Nat → Nat → String) (call : Nat) (state : Shared)
    (token : LockToken) : Prop where
  drawn : ∃ attempt, token.uuid = uuid call attempt
  row : state.clock ≤ token.expires → state.lock = some token

/-- What a call relies on in each of its phases. -/
def Sound (uuid : Nat → Nat → String) (calls : Nat → Call) (call : Nat) (state : Shared) :
    Phase → Prop
  | .inserting _ now => now ≤ state.clock
  | .confirming attempt token => token.uuid = uuid call attempt
  | .reading (some token) => HoldsLock uuid call state token
  | .writing lock next => ∃ token, lock = some token ∧ HoldsLock uuid call state token ∧
      (state.clock ≤ token.expires →
        next.targets = (calls call).ops.foldl applyOp (targetsOf state.object))
  | .releasing lock outcome => (∀ token ∈ lock, ∃ attempt, token.uuid = uuid call attempt) ∧
      (outcome = .written → call ∈ state.writes)
  | .returned outcome => outcome = .written → call ∈ state.writes
  | _ => True

/-- The object is what the calls have made of it, in the order of their writes. -/
def Merged (calls : Nat → Call) (targets : Targets) (state : Shared) : Prop :=
  targetsOf state.object = (written calls state.writes).foldl applyOp targets

/-- The part of `Orderly` that is about one step. -/
structure Timely (state : Shared) (phase : Phase) (input : Input) : Prop where
  clock : state.clock ≤ input.now
  held : ∀ token ∈ phase.held, input.now ≤ token.expires
  locked : phase ≠ .reading none

/-- What a step of one call leaves to the others. -/
structure Leaves (uuid : Nat → Nat → String) (call : Nat) (state later : Shared) : Prop where
  clock : state.clock ≤ later.clock
  lock : ∀ token, state.lock = some token → later.clock ≤ token.expires →
    (∀ attempt, token.uuid ≠ uuid call attempt) → later.lock = some token
  object : later.object = state.object ∨
    ∃ token attempt, state.lock = some token ∧ token.uuid = uuid call attempt
  writes : state.writes ⊆ later.writes

theorem upsertLock_keeps {held token : LockToken} {now : Int} (valid : now ≤ held.expires) :
    upsertLock (some held) token now = some held := by
  simp [upsertLock, Int.not_lt.mpr valid]

theorem leaves_act {call : Nat} {state : Shared} {phase : Phase} {input : Input}
    (sound : Sound uuid calls call state phase) (timely : Timely state phase input) :
    Leaves uuid call state (act env uuid calls call state phase input).1 := by
  have ticked : Leaves uuid call state { state with clock := input.now } :=
    ⟨timely.clock, fun _ row _ _ => row, .inl rfl, List.Subset.refl _⟩
  cases phase with
  | inserting attempt now =>
      refine ⟨timely.clock, fun token row valid other => ?_, .inl rfl, List.Subset.refl _⟩
      simp only [act]
      split
      · exact row
      · rw [row]
        exact upsertLock_keeps (sound.trans (timely.clock.trans valid))
  | writing lock next =>
      obtain ⟨token, rfl, holds, -⟩ := sound
      have row := holds.row (timely.clock.trans (timely.held token rfl))
      obtain ⟨attempt, drawn⟩ := holds.drawn
      simp only [act]
      split
      · exact ticked
      · exact ⟨timely.clock, fun _ row _ _ => row, .inr ⟨token, attempt, row, drawn⟩,
          List.subset_append_left _ _⟩
  | releasing lock outcome =>
      refine ⟨timely.clock, fun token row _ other => ?_, .inl rfl, List.Subset.refl _⟩
      cases lock with
      | none => exact row
      | some mine =>
          simp only [act]
          split
          · exact row
          · obtain ⟨attempt, drawn⟩ := sound.1 mine rfl
            have foreign : state.lock ≠ some mine := by
              rw [row]
              rintro same
              exact other attempt (Option.some.inj same ▸ drawn)
            simp only [deleteLock, if_neg foreign]
            exact row
  | _ => exact ticked

theorem holdsLock_later {call other : Nat} {state later : Shared} {token : LockToken}
    (distinct : ∀ first attempt second again, uuid first attempt = uuid second again →
      first = second)
    (leaves : Leaves uuid call state later) (ne : other ≠ call)
    (holds : HoldsLock uuid other state token) : HoldsLock uuid other later token where
  drawn := holds.drawn
  row := fun valid => by
    obtain ⟨attempt, drawn⟩ := holds.drawn
    refine leaves.lock token (holds.row (leaves.clock.trans valid)) valid fun again same => ?_
    exact ne (distinct _ _ _ _ (drawn.symm.trans same))

theorem sound_later {call other : Nat} {state later : Shared} {phase : Phase}
    (distinct : ∀ first attempt second again, uuid first attempt = uuid second again →
      first = second)
    (leaves : Leaves uuid call state later) (ne : other ≠ call)
    (sound : Sound uuid calls other state phase) : Sound uuid calls other later phase := by
  cases phase with
  | inserting attempt now => exact sound.trans leaves.clock
  | reading lock =>
      cases lock with
      | none => trivial
      | some token => exact holdsLock_later distinct leaves ne sound
  | writing lock next =>
      obtain ⟨token, rfl, holds, current⟩ := sound
      refine ⟨token, rfl, holdsLock_later distinct leaves ne holds, fun valid => ?_⟩
      have before := leaves.clock.trans valid
      cases leaves.object with
      | inl same => rw [same, current before]
      | inr wrote =>
          -- Only the holder of the lock writes, and the lock is held here.
          obtain ⟨foreign, attempt, row, drawn⟩ := wrote
          obtain ⟨again, mine⟩ := holds.drawn
          have same : token = foreign :=
            Option.some.inj ((holds.row before).symm.trans row)
          rw [same] at mine
          exact absurd (distinct _ _ _ _ (mine.symm.trans drawn)) ne
  | releasing lock outcome => exact ⟨sound.1, fun was => leaves.writes (sound.2 was)⟩
  | returned outcome => exact fun was => leaves.writes (sound was)
  | _ => trivial

theorem sound_unlocked (call : Nat) (state : Shared) :
    Sound uuid calls call state ((calls call).unlocked env) := by
  unfold Call.unlocked
  split
  · split
    · exact fun was => absurd was (by decide)
    · trivial
  · exact fun was => absurd was (by decide)

theorem sound_start (call : Nat) (state : Shared) :
    Sound uuid calls call state ((calls call).start env) := by
  unfold Call.start
  split
  · split
    · exact fun was => absurd was (by decide)
    · split
      · trivial
      · exact sound_unlocked call state
  · split
    · exact fun was => absurd was (by decide)
    · split
      · trivial
      · exact sound_unlocked call state

theorem sound_reading {call : Nat} {state : Shared} {token : LockToken} {input : Input}
    (holds : HoldsLock uuid call state token) (timely : Timely state (.reading (some token)) input) :
    Sound uuid calls call (act env uuid calls call state (.reading (some token)) input).1
      (act env uuid calls call state (.reading (some token)) input).2 := by
  have drawn : ∀ mine ∈ some token, ∃ attempt, mine.uuid = uuid call attempt := by
    intro mine same
    rw [← Option.some.inj same]
    exact holds.drawn
  have row := holds.row (timely.clock.trans (timely.held token rfl))
  simp only [act]
  split
  · exact ⟨drawn, fun was => absurd was (by decide)⟩
  · split
    · exact ⟨drawn, fun was => absurd was (by decide)⟩
    · next next wrote => exact ⟨token, rfl, ⟨holds.drawn, fun _ => row⟩, fun _ => next_targets wrote⟩

theorem sound_act {call : Nat} {state : Shared} {phase : Phase} {input : Input}
    (sound : Sound uuid calls call state phase) (timely : Timely state phase input) :
    Sound uuid calls call (act env uuid calls call state phase input).1
      (act env uuid calls call state phase input).2 := by
  cases phase with
  | waiting => exact sound_start call _
  | acquiring attempt => exact le_rfl
  | inserting attempt now =>
      by_cases error : (input.fails || input.unconfirmed) = true
      · simp only [act, if_pos error]
        exact sound_unlocked call _
      · simp only [act, if_neg error]
        rfl
  | confirming attempt token =>
      simp only [act]
      split
      · exact sound_unlocked call _
      · split
        · next row => exact ⟨⟨attempt, sound⟩, fun _ => row⟩
        · split
          · trivial
          · exact sound_unlocked call _
  | reading lock =>
      cases lock with
      | none => exact absurd rfl timely.locked
      | some token => exact sound_reading sound timely
  | writing lock next =>
      obtain ⟨token, rfl, holds, -⟩ := sound
      have drawn : ∀ mine ∈ some token, ∃ attempt, mine.uuid = uuid call attempt := by
        intro mine same
        rw [← Option.some.inj same]
        exact holds.drawn
      simp only [act]
      split
      · exact ⟨drawn, fun was => absurd was (by decide)⟩
      · exact ⟨drawn, fun _ => by simp⟩
  | releasing lock outcome => exact sound.2
  | returned outcome => exact sound

theorem merged_act {targets : Targets} {call : Nat} {state : Shared} {phase : Phase} {input : Input}
    (merged : Merged calls targets state) (sound : Sound uuid calls call state phase)
    (timely : Timely state phase input) :
    Merged calls targets (act env uuid calls call state phase input).1 := by
  cases phase with
  | writing lock next =>
      obtain ⟨token, rfl, -, current⟩ := sound
      simp only [act]
      split
      · exact merged
      · have read := current (timely.clock.trans (timely.held token rfl))
        simp only [Merged, written, List.flatMap_append, List.foldl_append, List.flatMap_singleton]
        rw [← written, ← merged, ← read]
        rfl
  | _ => exact merged

theorem keeps (targets : Targets)
    (distinct : ∀ first attempt second again, uuid first attempt = uuid second again →
      first = second) :
    Processes.Keeps (act env uuid calls) (fun _ => Timely) (Merged calls targets)
      (Sound uuid calls) where
  shared _ _ _ _ merged sound timely := merged_act merged sound timely
  self _ _ _ _ _ sound timely := sound_act sound timely
  others _ _ _ _ _ sound timely _ ne _ waiting :=
    sound_later distinct (leaves_act sound timely) ne waiting

theorem timely_of_orderly {pool : Processes.Pool Shared Phase} {event : Nat × Input}
    (orderly : Orderly pool event) : Processes.Allowed (fun _ => Timely) pool event :=
  ⟨orderly.clock, orderly.held event.1, orderly.locked⟩

theorem sound_run {start : Shared} {events : List (Nat × Input)}
    (distinct : ∀ first attempt second again, uuid first attempt = uuid second again →
      first = second)
    (along : Runs.Along (Processes.step (act env uuid calls)) Orderly
      (idle start.clock start.lock start.object) events) :
    Processes.Invariant (Merged calls (targetsOf start.object)) (Sound uuid calls)
      (Runs.run (Processes.step (act env uuid calls)) (idle start.clock start.lock start.object)
        events) :=
  Runs.run_invariant
    (fun _ _ holds orderly =>
      Processes.invariant_step (keeps _ distinct) holds (timely_of_orderly orderly))
    ⟨rfl, fun _ => trivial⟩ along

/-- A call that is between its read and its write has a lock that has not run out. -/
def Unexpired (pool : Processes.Pool Shared Phase) : Prop :=
  ∀ call, (pool.phase call).between = true → ∀ token ∈ (pool.phase call).held,
    pool.shared.clock ≤ token.expires

theorem clock_act (call : Nat) (state : Shared) (phase : Phase) (input : Input) :
    (act env uuid calls call state phase input).1.clock = input.now := by
  cases phase with
  | writing lock next =>
      simp only [act]
      split <;> rfl
  | _ => rfl

@[simp] theorem between_unlocked (call : Call) : (call.unlocked env).between = false := by
  unfold Call.unlocked
  repeat' split
  all_goals rfl

@[simp] theorem between_start (call : Call) : (call.start env).between = false := by
  unfold Call.start
  repeat' split
  all_goals first | rfl | exact between_unlocked _

theorem between_act {call : Nat} {state : Shared} {phase : Phase} {input : Input}
    (between : (act env uuid calls call state phase input).2.between = true) :
    ∃ lock, phase = .reading lock ∧ (act env uuid calls call state phase input).2.held = lock := by
  cases phase with
  | reading lock =>
      refine ⟨lock, rfl, ?_⟩
      simp only [act] at between ⊢
      split at between
      · cases between
      · next usable =>
          rw [if_neg usable]
          split at between
          · cases between
          · rfl
  | waiting => cases (between_start (calls call)).symm.trans between
  | acquiring attempt => cases between
  | inserting attempt now =>
      simp only [act] at between
      split at between
      · cases (between_unlocked (calls call)).symm.trans between
      · cases between
  | confirming attempt token =>
      simp only [act] at between
      split at between
      · cases (between_unlocked (calls call)).symm.trans between
      · split at between
        · cases between
        · split at between
          · cases between
          · cases (between_unlocked (calls call)).symm.trans between
  | writing lock next =>
      simp only [act] at between
      split at between <;> cases between
  | releasing lock outcome => cases between
  | returned outcome => cases between

theorem unexpired_step {pool : Processes.Pool Shared Phase} {event : Nat × Input}
    (orderly : Orderly pool event) :
    Unexpired (Processes.step (act env uuid calls) pool event) := by
  intro call between token held
  have clock : (Processes.step (act env uuid calls) pool event).shared.clock = event.2.now :=
    clock_act _ _ _ _
  rw [clock]
  by_cases same : call = event.1
  · subst same
    simp only [Processes.step, Function.update_self] at between held
    obtain ⟨lock, was, kept⟩ := between_act between
    refine orderly.held event.1 token ?_
    rw [was]
    exact kept ▸ held
  · simp only [Processes.step, Function.update_of_ne same] at held
    exact orderly.held call token held

theorem unexpired_run {start : Shared} {events : List (Nat × Input)}
    (along : Runs.Along (Processes.step (act env uuid calls)) Orderly
      (idle start.clock start.lock start.object) events) :
    Unexpired (Runs.run (Processes.step (act env uuid calls))
      (idle start.clock start.lock start.object) events) :=
  Runs.run_invariant (fun _ _ _ orderly => unexpired_step orderly)
    (fun _ between => absurd between Bool.false_ne_true) along

theorem between_held {pool : Processes.Pool Shared Phase} {targets : Targets} {call : Nat}
    (holds : Processes.Invariant (Merged calls targets) (Sound uuid calls) pool)
    (unexpired : Unexpired pool) (between : (pool.phase call).between = true) :
    ∃ token attempt, pool.shared.lock = some token ∧ token.uuid = uuid call attempt := by
  have sound := holds.phase call
  have valid := unexpired call between
  revert between sound valid
  cases pool.phase call with
  | writing lock next =>
      intro _ sound valid
      obtain ⟨token, rfl, held, -⟩ := sound
      obtain ⟨attempt, drawn⟩ := held.drawn
      exact ⟨token, attempt, held.row (valid token rfl), drawn⟩
  | _ => exact fun between => absurd between Bool.false_ne_true

/-- With the lock at most one call is between its read and its write; the object is what the calls
that have written make of it one after the other, and an update that was reported as written is in
it, unless a newer record was there, an update that is not older came after it, or its target was
removed after it. -/
theorem merges_kept (start : Shared) (events : List (Nat × Input))
    (distinct : ∀ first attempt second again, uuid first attempt = uuid second again →
      first = second)
    (along : Runs.Along (Processes.step (act env uuid calls)) Orderly
      (idle start.clock start.lock start.object) events) :
    let final := Runs.run (Processes.step (act env uuid calls))
      (idle start.clock start.lock start.object) events
    let ops := written calls final.shared.writes
    (∀ first second, (final.phase first).between = true → (final.phase second).between = true →
      first = second) ∧
    targetsOf final.shared.object = ops.foldl applyOp (targetsOf start.object) ∧
    ∀ call, final.phase call = .returned .written → ∀ update ∈ (calls call).given,
      update.targetId ≠ "" → ∃ given before after, Reflects given update ∧
        ops = before ++ .put given :: after ∧
        ((∃ record, (targetsOf final.shared.object).get? update.targetId = some record ∧
            Reflects record update) ∨
          (∃ record, (before.foldl applyOp (targetsOf start.object)).get? update.targetId =
            some record ∧ update.checkedAt < record.checkedAt) ∨
          (∃ later, .put later ∈ after ∧ later.targetId = update.targetId ∧
            update.checkedAt ≤ later.checkedAt) ∨
          .remove update.targetId ∈ after) := by
  intro final ops
  have holds := sound_run distinct along
  have unexpired := unexpired_run along
  refine ⟨fun first second firstBetween secondBetween => ?_, holds.shared, ?_⟩
  · obtain ⟨token, attempt, row, drawn⟩ := between_held holds unexpired firstBetween
    obtain ⟨other, again, same, mine⟩ := between_held holds unexpired secondBetween
    rw [Option.some.inj (row.symm.trans same)] at drawn
    exact distinct _ _ _ _ (drawn.symm.trans mine)
  · intro call reported update given named
    have wrote : call ∈ final.shared.writes := by
      have sound := holds.phase call
      rw [reported] at sound
      exact sound rfl
    obtain ⟨record, member, reflects⟩ := given_ops given named
    have stored : .put record ∈ ops := List.mem_flatMap.mpr ⟨call, wrote, member⟩
    obtain ⟨before, after, split⟩ := List.append_of_mem stored
    have object : targetsOf final.shared.object =
        (before ++ .put record :: after).foldl applyOp (targetsOf start.object) :=
      split ▸ holds.shared
    refine ⟨record, before, after, reflects, split, ?_⟩
    rw [object, ← reflects.targetId, ← reflects.checkedAt]
    cases put_kept (targetsOf start.object) before after record with
    | inl kept =>
        obtain ⟨last, found, again⟩ := kept
        exact .inl ⟨last, found, again.trans reflects⟩
    | inr other => exact .inr other

/-! A call without the lock goes no further when the database is bound. -/

def Phase.readsUnlocked : Phase → Bool
  | .reading none => true
  | _ => false

theorem readsUnlocked_unlocked (bound : env.databaseBound = true) (call : Call) :
    (call.unlocked env).readsUnlocked = false := by
  cases call <;> simp [Call.unlocked, bound, Phase.readsUnlocked]

theorem readsUnlocked_start (bound : env.databaseBound = true) (call : Call) :
    (call.start env).readsUnlocked = false := by
  unfold Call.start
  simp only [bound, if_true]
  repeat' split
  all_goals rfl

theorem readsUnlocked_act (bound : env.databaseBound = true) {call : Nat} {state : Shared}
    {phase : Phase} {input : Input} (locked : phase.readsUnlocked = false) :
    (act env uuid calls call state phase input).2.readsUnlocked = false := by
  have unlocked := readsUnlocked_unlocked bound (calls call)
  cases phase with
  | waiting => exact readsUnlocked_start bound (calls call)
  | inserting attempt now =>
      simp only [act]
      split
      · exact unlocked
      · rfl
  | confirming attempt token =>
      simp only [act]
      split
      · exact unlocked
      · split
        · rfl
        · split
          · rfl
          · exact unlocked
  | reading lock =>
      simp only [act]
      split
      · rfl
      · split <;> rfl
  | writing lock next =>
      simp only [act]
      split <;> rfl
  | _ => rfl

theorem readsUnlocked_run (bound : env.databaseBound = true) (start : Shared)
    (events : List (Nat × Input)) (call : Nat) :
    ((Runs.run (Processes.step (act env uuid calls))
      (idle start.clock start.lock start.object) events).phase call).readsUnlocked = false := by
  have keep (pool : Processes.Pool Shared Phase) (event : Nat × Input)
      (holds : ∀ call, (pool.phase call).readsUnlocked = false) (call : Nat) :
      ((Processes.step (act env uuid calls) pool event).phase call).readsUnlocked = false := by
    by_cases same : call = event.1
    · subst same
      simp only [Processes.step, Function.update_self]
      exact readsUnlocked_act bound (holds event.1)
    · simp only [Processes.step, Function.update_of_ne same]
      exact holds call
  exact Runs.run_invariant_of_step keep events (fun _ => rfl) call

end Exclusion

/-! Runs of the first few calls. -/

/-- `Orderly`, where only the calls below `bound` have started. -/
def OrderlyBelow (bound : Nat) (pool : Processes.Pool Shared Phase) (event : Nat × Input) : Prop :=
  event.1 < bound ∧ pool.shared.clock ≤ event.2.now ∧
    (∀ call < bound, ∀ token ∈ (pool.phase call).held, event.2.now ≤ token.expires) ∧
    (pool.phase event.1).readsUnlocked = false

instance (bound : Nat) (pool : Processes.Pool Shared Phase) (event : Nat × Input) :
    Decidable (OrderlyBelow bound pool event) := inferInstanceAs (Decidable (_ ∧ _))

theorem orderly_of_below {env : Env} {uuid : Nat → Nat → String} {calls : Nat → Call} (bound : Nat)
    {pool : Processes.Pool Shared Phase} {events : List (Nat × Input)}
    (fresh : ∀ call, bound ≤ call → pool.phase call = .waiting)
    (along : Runs.Along (Processes.step (act env uuid calls)) (OrderlyBelow bound) pool events) :
    Runs.Along (Processes.step (act env uuid calls)) Orderly pool events := by
  induction events generalizing pool with
  | nil => trivial
  | cons event rest ih =>
      obtain ⟨⟨started, clock, held, locked⟩, later⟩ := along
      refine ⟨⟨clock, fun call token member => ?_, fun unlocked => ?_⟩, ih (fun call above => ?_) later⟩
      · by_cases below : call < bound
        · exact held call below token member
        · rw [fresh call (Nat.le_of_not_lt below)] at member
          cases member
      · rw [unlocked] at locked
        cases locked
      · have other : call ≠ event.1 := (started.trans_le above).ne'
        simp only [Processes.step, Function.update_of_ne other]
        exact fresh call above

/-- A session, a merge with an older update of the same target, and a removal. -/
def contendedCalls : Nat → Call
  | 0 => .session [.add [⟨"front", 600, 600, ""⟩], .add [⟨"front", 660, 0, ""⟩]]
  | 1 => .merge [⟨"front", 630, 0, ""⟩, ⟨"rear", 600, 0, ""⟩]
  | 2 => .remove "rear"
  | _ => .merge []

def contendedUuid (call attempt : Nat) : String :=
  String.ofList (List.replicate call 'c' ++ List.replicate attempt 'r')

/-- The merge tries for the lock while the session has it, and gets it later. -/
def contendedRun : List (Nat × Input) :=
  [0, 0, 1, 1, 0, 1, 0, 1, 0, 0, 0, 1, 1, 1, 1, 1, 1, 2, 2, 2, 2, 2, 2, 2].map fun call =>
    (call, { now := 700 })

private theorem contendedUuid_distinct (first attempt second again : Nat)
    (same : contendedUuid first attempt = contendedUuid second again) : first = second := by
  have counts := congrArg (fun uuid => uuid.toList.count 'c') same
  simpa [contendedUuid, List.count_replicate] using counts

private theorem contendedRun_orderly :
    Runs.Along (Processes.step (act {} contendedUuid contendedCalls)) Orderly
      (idle 700 none none) contendedRun :=
  orderly_of_below 3 (fun _ _ => rfl) (by decide +kernel)

theorem merges_kept_contended :
    let final := Runs.run (Processes.step (act {} contendedUuid contendedCalls))
      (idle 700 none none) contendedRun
    targetsOf final.shared.object =
      (written contendedCalls final.shared.writes).foldl applyOp (targetsOf none) :=
  (merges_kept ⟨700, none, none, []⟩ contendedRun contendedUuid_distinct contendedRun_orderly).2.1

/-- The merge was reported as written. Its update of `front` is not in the object though it was the
last one of this target, and neither is its update of `rear`, which none came after. -/
theorem reported_not_reflected :
    let final := Runs.run (Processes.step (act {} contendedUuid contendedCalls))
      (idle 700 none none) contendedRun
    Runs.Along (Processes.step (act {} contendedUuid contendedCalls)) Orderly
      (idle 700 none none) contendedRun ∧
    final.phase 1 = .returned .written ∧
    written contendedCalls final.shared.writes = [.put ⟨"front", 600, 600, ""⟩,
      .put ⟨"front", 660, 600, ""⟩, .put ⟨"front", 630, 0, ""⟩, .put ⟨"rear", 600, 0, ""⟩,
      .remove "rear"] ∧
    (targetsOf final.shared.object).get? "front" = some ⟨"front", 660, 600, ""⟩ ∧
    (targetsOf final.shared.object).get? "rear" = none :=
  ⟨contendedRun_orderly, rfl, by decide +kernel, by decide +kernel, by decide +kernel⟩

end NieSla.R2State
