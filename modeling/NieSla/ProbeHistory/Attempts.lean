import NieSla.ProbeHistory.CompletedDays

/-! The attempts that the day flush counts are kept by day, for all targets, and an archive write
does not forget them: a dead letter is earned by its target as long as the count that moves a row is
made of the failures of that row alone. -/
namespace NieSla.ProbeHistory
open Processes

/-- The consecutive archive writes of a day of a target that have failed last. -/
def failures (key : DayKey) : List Fact → Nat
  | [] => 0
  | .failed other :: rest => (if other = key then 1 else 0) + failures key rest
  | .stored other :: rest => if other = key then 0 else failures key rest
  | _ :: rest => failures key rest

def unconfirmedCount (key : DayKey) (journal : List Fact) : Nat := journal.count (.unconfirmed key)

/-- The target has earned the dead letter by itself. -/
def Earned (key : DayKey) (before : List Fact) : Prop :=
  maxArchiveDayAttempts ≤ failures key before ∨ maxArchiveConfirmFails ≤ unconfirmedCount key before

def EarnedAll (journal : List Fact) : Prop :=
  ∀ key before, .moved key :: before <:+ journal → Earned key before

/-- What the attempts of a day have been counted from. -/
def counted (day : Int) : List Fact → Nat
  | [] => 0
  | .cleared other :: rest => if other = day then 0 else counted day rest
  | .failed key :: rest | .thrown key :: rest => (if key.2 = day then 1 else 0) + counted day rest
  | .unsaved key :: rest =>
      (if key.2 = day then maxArchiveDayAttempts else 0) + counted day rest
  | _ :: rest => counted day rest

/-- Since the attempts of the day were forgotten, only archive writes of this target have counted,
and none of them has succeeded. -/
def ownAttempts (key : DayKey) : List Fact → Bool
  | [] => true
  | .cleared day :: rest => day = key.2 || ownAttempts key rest
  | .failed other :: rest | .unsaved other :: rest =>
      (other.2 ≠ key.2 || other = key) && ownAttempts key rest
  | .thrown other :: rest => other.2 ≠ key.2 && ownAttempts key rest
  | .stored other :: rest => other ≠ key && ownAttempts key rest
  | _ :: rest => ownAttempts key rest

def Outcome.failing : Outcome → Bool
  | .succeeded => false
  | .failed _ => true

/-- The step ends in the `catch` of the loop. -/
def throws (env : Env) (outcome : Outcome) : RowAwait → Bool
  | .archive _ .storageMeta => outcome.failing || !env.archiveBound
  | .archive _ _ | .confirmMeta | .deleteConfirmed | .put _ | .deleteMoved .unconfirmed =>
      outcome.failing
  | _ => false

def writesArchive : RowAwait → Bool
  | .archive _ _ | .put _ => true
  | _ => false

/-- A step that throws when the attempts of its day have reached the limit throws in the archive
write, and the attempts are all of its own row. -/
def OwnFailure (env : Env) (_ : Nat) (hub : Hub) (waiting : Waiting) (input : Input) : Prop :=
  match waiting with
  | .flushing _ key _ await =>
      throws env input.outcome await → maxArchiveDayAttempts ≤ hub.attempts key.2 + 1 →
        writesArchive await ∧ ownAttempts key hub.journal
  | _ => True

instance (env : Env) (process : Nat) (hub : Hub) (waiting : Waiting) (input : Input) :
    Decidable (OwnFailure env process hub waiting input) := by
  unfold OwnFailure
  split <;> infer_instance

section Journal

variable {key : DayKey} {day : Int} {journal later : List Fact}

/-- Facts that no count depends on. -/
def Fact.quiet : Fact → Bool
  | .archived .. | .lettered .. | .replaced .. => true
  | _ => false

/-- Only quiet facts have been added. -/
def Silent (journal later : List Fact) : Prop :=
  ∃ facts, (∀ fact ∈ facts, Fact.quiet fact) ∧ later = facts ++ journal

theorem Silent.refl (journal : List Fact) : Silent journal journal := ⟨[], nofun, rfl⟩

theorem Silent.suffix (silent : Silent journal later) : journal <:+ later := by
  obtain ⟨facts, _, grown⟩ := silent
  exact ⟨facts, grown.symm⟩

theorem counted_quiet {facts : List Fact} (quiet : ∀ fact ∈ facts, fact.quiet) :
    counted day (facts ++ journal) = counted day journal := by
  induction facts with
  | nil => rfl
  | cons fact rest ih =>
      obtain ⟨first, others⟩ := List.forall_mem_cons.mp quiet
      cases fact <;> first | exact ih others | cases first

theorem failures_quiet {facts : List Fact} (quiet : ∀ fact ∈ facts, fact.quiet) :
    failures key (facts ++ journal) = failures key journal := by
  induction facts with
  | nil => rfl
  | cons fact rest ih =>
      obtain ⟨first, others⟩ := List.forall_mem_cons.mp quiet
      cases fact <;> first | exact ih others | cases first

theorem ownAttempts_quiet {facts : List Fact} (quiet : ∀ fact ∈ facts, fact.quiet) :
    ownAttempts key (facts ++ journal) = ownAttempts key journal := by
  induction facts with
  | nil => rfl
  | cons fact rest ih =>
      obtain ⟨first, others⟩ := List.forall_mem_cons.mp quiet
      cases fact <;> first | exact ih others | cases first

theorem unconfirmedCount_mono (longer : journal <:+ later) :
    unconfirmedCount key journal ≤ unconfirmedCount key later :=
  longer.sublist.count_le _

/-- A suffix that starts with a fact that is not quiet was there before the quiet ones. -/
theorem suffix_of_quiet {facts before : List Fact} {fact : Fact}
    (quiet : ∀ fact ∈ facts, fact.quiet) (loud : fact.quiet = false)
    (held : fact :: before <:+ facts ++ journal) : fact :: before <:+ journal := by
  induction facts with
  | nil => exact held
  | cons first rest ih =>
      obtain ⟨silent, others⟩ := List.forall_mem_cons.mp quiet
      rcases List.suffix_cons_iff.mp held with same | inside
      · cases same
        rw [silent] at loud
        cases loud
      · exact ih others inside

/-- A count that is of the own row alone is one of its failures, unless the row has not been
confirmed. -/
theorem counted_le (own : ownAttempts key journal)
    (unsaved : ∀ before, .unsaved key :: before <:+ journal →
      maxArchiveConfirmFails ≤ unconfirmedCount key before) :
    counted key.2 journal ≤ failures key journal ∨
      maxArchiveConfirmFails ≤ unconfirmedCount key journal := by
  induction journal with
  | nil => exact .inl le_rfl
  | cons fact rest ih =>
      have older : ∀ before, .unsaved key :: before <:+ rest →
          maxArchiveConfirmFails ≤ unconfirmedCount key before :=
        fun before held => unsaved before (held.trans (List.suffix_cons _ _))
      have longer : unconfirmedCount key rest ≤ unconfirmedCount key (fact :: rest) :=
        unconfirmedCount_mono (List.suffix_cons _ _)
      cases fact with
      | cleared day =>
          simp only [ownAttempts, Bool.or_eq_true, decide_eq_true_eq] at own
          by_cases same : day = key.2
          · exact .inl (by simp [counted, same])
          · simp only [counted, if_neg same]
            exact (ih (own.resolve_left same) older).imp_right fun enough => enough.trans longer
      | failed other =>
          simp only [ownAttempts, Bool.and_eq_true, Bool.or_eq_true, decide_eq_true_eq] at own
          refine (ih own.2 older).imp (fun enough => ?_) fun enough => enough.trans longer
          have alone : (if other.2 = key.2 then 1 else 0) ≤ if other = key then 1 else 0 := by
            cases own.1 with
            | inl different => rw [if_neg different]; exact Nat.zero_le _
            | inr same => rw [same, if_pos rfl, if_pos rfl]
          exact Nat.add_le_add alone enough
      | thrown other =>
          simp only [ownAttempts, Bool.and_eq_true, decide_eq_true_eq] at own
          simp only [counted, if_neg own.1, Nat.zero_add]
          exact (ih own.2 older).imp_right fun enough => enough.trans longer
      | stored other =>
          simp only [ownAttempts, Bool.and_eq_true, decide_eq_true_eq] at own
          simp only [counted, failures, if_neg own.1]
          exact (ih own.2 older).imp_right fun enough => enough.trans longer
      | unsaved other =>
          simp only [ownAttempts, Bool.and_eq_true, Bool.or_eq_true, decide_eq_true_eq] at own
          cases own.1 with
          | inl different =>
              simp only [counted, if_neg different, Nat.zero_add]
              exact (ih own.2 older).imp_right fun enough => enough.trans longer
          | inr same =>
              subst same
              exact .inr ((unsaved rest (List.suffix_refl _)).trans longer)
      | _ => exact (ih own older).imp_right fun enough => enough.trans longer

end Journal

/-! What holds of the hub and of the flush. -/

structure Counted (hub : Hub) : Prop where
  attempts : ∀ day, hub.attempts day ≤ counted day hub.journal
  rows : ∀ key row, hub.buffer.rows.get? key = some row →
    row.confirmFails ≤ unconfirmedCount key hub.journal
  unsaved : ∀ key before, .unsaved key :: before <:+ hub.journal →
    maxArchiveConfirmFails ≤ unconfirmedCount key before
  earned : EarnedAll hub.journal

def CauseCounted (key : DayKey) (journal : List Fact) : Cause → Prop
  | .unconfirmed => maxArchiveConfirmFails ≤ unconfirmedCount key journal
  | .attempts count => count ≤ counted key.2 journal

def AwaitCounted (key : DayKey) (journal : List Fact) : RowAwait → Prop
  | .archive confirmFails _ => confirmFails ≤ unconfirmedCount key journal
  | .put row => row.confirmFails ≤ unconfirmedCount key journal
  | .letterGet cause | .letterPut cause _ => CauseCounted key journal cause
  | _ => True

def RowsCounted (journal : List Fact) (rows : List (DayKey × DayRow)) : Prop :=
  ∀ entry ∈ rows, entry.2.confirmFails ≤ unconfirmedCount entry.1 journal

/-- Only the alarm flushes; a row that another call stores has no failed confirmation. -/
def WaitingCounted (process : Nat) (hub : Hub) : Waiting → Prop
  | .flushing pass key row await => process = 0 ∧ RowsCounted hub.journal ((key, row) :: pass.left) ∧
      AwaitCounted key hub.journal await
  | .storingDay _ row => row.confirmFails = 0
  | _ => True

section Steps

variable {env : Env} {hub next : Hub} {key : DayKey} {row : DayRow} {pass : Pass} {now : Int}

/-- Nothing that is counted changes. -/
structure Quiet (hub next : Hub) : Prop where
  attempts : next.archiveAttempts = hub.archiveAttempts
  rows : next.buffer.rows = hub.buffer.rows
  journal : Silent hub.journal next.journal

theorem Quiet.refl (hub : Hub) : Quiet hub hub := ⟨rfl, rfl, [], nofun, rfl⟩

theorem quiet_archive (points : List ProbePoint) (outcome : Outcome) (await : ArchiveAwait) :
    Quiet hub (hub.archive env key points outcome await) := by
  unfold Hub.archive
  split
  · exact ⟨rfl, rfl, [_], List.forall_mem_singleton.mpr rfl, rfl⟩
  · exact .refl hub

theorem quiet_letter (existing points : List ProbePoint) (outcome : Outcome) :
    Quiet hub (hub.letter env key existing points outcome) := by
  unfold Hub.letter
  split
  · exact ⟨rfl, rfl, [_], List.forall_mem_singleton.mpr rfl, rfl⟩
  · exact .refl hub

theorem quiet_replay (entry : List ProbePoint) (seen : Nat) (outcome : Outcome)
    (await : ArchiveAwait) : Quiet hub (hub.replay env key entry seen outcome await) := by
  unfold Hub.replay
  split
  · refine ⟨rfl, rfl, _, ?_, rfl⟩
    rintro fact member
    obtain ⟨ts, _, rfl⟩ := List.mem_map.mp member
    rfl
  · exact .refl hub

theorem quiet_replayAct (outcome : Outcome) (left : List DayKey) (await : ReplayAwait) :
    Quiet hub (replayAct env outcome left key hub await).1 := by
  cases await with
  | get =>
      simp only [replayAct]
      split <;> exact .refl hub
  | archive entry seen await =>
      have quiet : Quiet hub (hub.replay env key entry seen outcome await) := quiet_replay ..
      simp only [replayAct]
      split <;> exact quiet
  | delete entry =>
      simp only [replayAct]
      split <;> exact ⟨rfl, rfl, [], nofun, rfl⟩

theorem Counted.quiet (counts : Counted hub) (quiet : Quiet hub next) : Counted next := by
  have longer := quiet.journal.suffix
  obtain ⟨facts, silent, journal⟩ := quiet.journal
  refine ⟨fun day => ?_, fun key row found => ?_, fun key before held => ?_, fun key before held => ?_⟩
  · rw [Hub.attempts, quiet.attempts, journal, counted_quiet silent]
    exact counts.attempts day
  · rw [quiet.rows] at found
    exact (counts.rows key row found).trans (unconfirmedCount_mono longer)
  · rw [journal] at held
    exact counts.unsaved key before (suffix_of_quiet silent rfl held)
  · rw [journal] at held
    exact counts.earned key before (suffix_of_quiet silent rfl held)

theorem RowsCounted.mono {journal later : List Fact} {rows : List (DayKey × DayRow)}
    (counts : RowsCounted journal rows) (longer : journal <:+ later) : RowsCounted later rows :=
  fun entry member => (counts entry member).trans (unconfirmedCount_mono longer)

theorem AwaitCounted.silent {await : RowAwait} (counts : AwaitCounted key hub.journal await)
    (quiet : Silent hub.journal next.journal) : AwaitCounted key next.journal await := by
  have longer := quiet.suffix
  obtain ⟨facts, silent, journal⟩ := quiet
  have causes : ∀ cause, CauseCounted key hub.journal cause → CauseCounted key next.journal cause := by
    intro cause counts
    cases cause with
    | unconfirmed => exact Nat.le_trans counts (unconfirmedCount_mono longer)
    | attempts count =>
        show count ≤ counted key.2 next.journal
        rw [journal, counted_quiet silent]
        exact counts
  cases await with
  | archive => exact Nat.le_trans counts (unconfirmedCount_mono longer)
  | put => exact Nat.le_trans counts (unconfirmedCount_mono longer)
  | letterGet cause => exact causes cause counts
  | letterPut cause => exact causes cause counts
  | _ => trivial

/-- The loop goes on with rows that are counted. -/
theorem counted_nextRow {currentDay : Int} {budget : Nat} {left : List (DayKey × DayRow)}
    (rows : RowsCounted hub.journal left) :
    WaitingCounted 0 hub (nextRow now currentDay budget left) := by
  induction left with
  | nil => trivial
  | cons entry rest ih =>
      have others := ih fun other member => rows other (List.mem_cons_of_mem _ member)
      obtain ⟨key, row⟩ := entry
      simp only [nextRow]
      split
      · exact others
      · split
        · exact others
        · split
          · exact others
          · refine ⟨rfl, rows, ?_⟩
            split
            · trivial
            · exact Nat.zero_le _

theorem Counted.noted {fact : Fact} (counts : Counted hub) (journal : next.journal = fact :: hub.journal)
    (rows : next.buffer.rows = hub.buffer.rows)
    (attempts : ∀ day, next.attempts day ≤ counted day (fact :: hub.journal))
    (unsaved : ∀ key, fact = .unsaved key → maxArchiveConfirmFails ≤ unconfirmedCount key hub.journal)
    (earned : ∀ key, fact = .moved key → Earned key hub.journal) : Counted next := by
  refine ⟨fun day => ?_, fun key row found => ?_, fun key before held => ?_, fun key before held => ?_⟩
  · rw [journal]
    exact attempts day
  · rw [rows] at found
    rw [journal]
    exact (counts.rows key row found).trans (unconfirmedCount_mono (List.suffix_cons _ _))
  · rw [journal] at held
    rcases List.suffix_cons_iff.mp held with same | inside
    · cases same
      exact unsaved key rfl
    · exact counts.unsaved key before inside
  · rw [journal] at held
    rcases List.suffix_cons_iff.mp held with same | inside
    · cases same
      exact earned key rfl
    · exact counts.earned key before inside

theorem Counted.setRow {kept : DayRow} (counts : Counted hub)
    (fails : kept.confirmFails ≤ unconfirmedCount key hub.journal) : Counted (hub.setRow key kept) := by
  refine ⟨counts.attempts, fun other row found => ?_, counts.unsaved, counts.earned⟩
  by_cases same : other = key
  · subst same
    rw [Hub.setRow, OrderedMap.get?_set_self] at found
    cases found
    exact fails
  · rw [Hub.setRow, OrderedMap.get?_set_of_ne _ _ same] at found
    exact counts.rows other row found

theorem Counted.eraseRow (counts : Counted hub) : Counted (hub.eraseRow key) := by
  refine ⟨counts.attempts, fun other row found => ?_, counts.unsaved, counts.earned⟩
  by_cases same : other = key
  · subst same
    rw [Hub.eraseRow, OrderedMap.get?_erase_self] at found
    cases found
  · rw [Hub.eraseRow, OrderedMap.get?_erase_of_ne _ same] at found
    exact counts.rows other row found

theorem attempts_setAttempts (day other : Int) (count : Nat) :
    (hub.setAttempts day count).attempts other = if other = day then count else hub.attempts other := by
  unfold Hub.attempts Hub.setAttempts
  by_cases same : other = day
  · subst same
    rw [OrderedMap.get?_set_self, if_pos rfl]
    rfl
  · rw [OrderedMap.get?_set_of_ne _ _ same, if_neg same]

/-- The `catch` counts the failure, and moves the row when it has earned that. -/
theorem counted_caught {fact : Fact} (counts : Counted hub)
    (rows : RowsCounted hub.journal ((key, row) :: pass.left))
    (kind : fact = .failed key ∨ fact = .thrown key)
    (own : maxArchiveDayAttempts ≤ hub.attempts key.2 + 1 →
      fact = .failed key ∧ ownAttempts key hub.journal) :
    Counted (caught fact pass now key row hub).1 ∧
      WaitingCounted 0 (caught fact pass now key row hub).1 (caught fact pass now key row hub).2 := by
  have count : ∀ day, counted day (fact :: hub.journal) =
      (if key.2 = day then 1 else 0) + counted day hub.journal := by
    intro day
    cases kind with
    | inl failed => rw [failed]; rfl
    | inr thrown => rw [thrown]; rfl
  have loud : ∀ other, fact ≠ .unsaved other ∧ fact ≠ .moved other := by
    intro other
    cases kind with
    | inl failed => rw [failed]; exact ⟨nofun, nofun⟩
    | inr thrown => rw [thrown]; exact ⟨nofun, nofun⟩
  have attempted := counts.attempts key.2
  unfold caught
  simp only
  split
  case isTrue limit =>
    obtain ⟨failed, alone⟩ := own limit
    have once : Counted (hub.note [fact]) := by
      refine counts.noted rfl rfl (fun day => ?_) (fun other same => absurd same (loud other).1)
        fun other same => absurd same (loud other).2
      rw [count day]
      exact (counts.attempts day).trans (Nat.le_add_left _ _)
    have earned : Earned key (fact :: hub.journal) := by
      refine (counted_le alone (counts.unsaved key)).imp (fun enough => ?_) fun enough => ?_
      · rw [failed, failures, if_pos rfl]
        omega
      · exact enough.trans (unconfirmedCount_mono (List.suffix_cons _ _))
    refine ⟨once.noted rfl rfl once.attempts nofun ?_, rfl, ?_, ?_⟩
    · rintro other ⟨⟩
      exact earned
    · exact rows.mono ⟨[_, _], rfl⟩
    · show hub.attempts key.2 + 1 ≤ counted key.2 (fact :: hub.journal)
      rw [count, if_pos rfl]
      omega
  case isFalse below =>
    refine ⟨counts.noted rfl rfl (fun day => ?_) (fun other same => absurd same (loud other).1)
        fun other same => absurd same (loud other).2, ?_⟩
    · rw [count day]
      show (hub.setAttempts key.2 (hub.attempts key.2 + 1)).attempts day ≤ _
      rw [attempts_setAttempts]
      have before := counts.attempts day
      by_cases same : day = key.2
      · subst same
        rw [if_pos rfl, if_pos rfl]
        omega
      · rw [if_neg same, if_neg (Ne.symm same)]
        omega
    · apply counted_nextRow
      have left : RowsCounted hub.journal pass.left := (List.forall_mem_cons.mp rows).2
      exact left.mono ⟨[fact], rfl⟩

theorem counted_failedConfirmation (counts : Counted hub)
    (rows : RowsCounted hub.journal ((key, row) :: pass.left)) :
    Counted (failedConfirmation pass key row hub).1 ∧
      WaitingCounted 0 (failedConfirmation pass key row hub).1 (failedConfirmation pass key row hub).2 := by
  have once : Counted (hub.note [.unconfirmed key]) :=
    counts.noted rfl rfl counts.attempts nofun nofun
  have more : row.confirmFails + 1 ≤ unconfirmedCount key (.unconfirmed key :: hub.journal) := by
    unfold unconfirmedCount
    rw [List.count_cons_self]
    exact Nat.succ_le_succ (rows (key, row) List.mem_cons_self)
  unfold failedConfirmation
  simp only
  split
  case isTrue limit =>
    refine ⟨once.noted rfl rfl once.attempts nofun ?_, rfl, rows.mono ⟨[_, _], rfl⟩, ?_⟩
    · rintro other ⟨⟩
      exact .inr (limit.trans more)
    · exact (limit.trans more).trans (unconfirmedCount_mono (List.suffix_cons _ _))
  case isFalse below => exact ⟨once, rfl, rows.mono ⟨[_], rfl⟩, more⟩

theorem counted_clearAttempts (counts : Counted hub) (day : Int) : Counted (hub.clearAttempts day) := by
  refine counts.noted rfl rfl (fun other => ?_) nofun nofun
  show ((hub.archiveAttempts.erase day).get? other).getD 0 ≤ _
  by_cases same : other = day
  · subst same
    rw [OrderedMap.get?_erase_self]
    exact Nat.zero_le _
  · rw [OrderedMap.get?_erase_of_ne _ same, counted, if_neg (Ne.symm same)]
    exact counts.attempts other

theorem counted_unsaved {cause : Cause} (counts : Counted hub)
    (rows : RowsCounted hub.journal ((key, row) :: pass.left))
    (earned : CauseCounted key hub.journal cause) :
    Counted (unsaved cause pass now key hub).1 ∧
      WaitingCounted 0 (unsaved cause pass now key hub).1 (unsaved cause pass now key hub).2 := by
  have left : RowsCounted hub.journal pass.left := (List.forall_mem_cons.mp rows).2
  cases cause with
  | unconfirmed =>
      refine ⟨counts.noted rfl rfl (fun day => ?_) ?_ nofun, counted_nextRow (left.mono ⟨[_], rfl⟩)⟩
      · show (hub.setAttempts key.2 maxArchiveDayAttempts).attempts day ≤ _
        rw [attempts_setAttempts]
        have before := counts.attempts day
        by_cases same : day = key.2
        · subst same
          rw [if_pos rfl, counted, if_pos rfl]
          exact Nat.le_add_right _ _
        · rw [if_neg same, counted, if_neg (Ne.symm same), Nat.zero_add]
          exact before
      · rintro other ⟨⟩
        exact earned
  | attempts count =>
      refine ⟨⟨fun day => ?_, counts.rows, counts.unsaved, counts.earned⟩, counted_nextRow left⟩
      show (hub.setAttempts key.2 count).attempts day ≤ _
      rw [attempts_setAttempts]
      by_cases same : day = key.2
      · subst same
        rw [if_pos rfl]
        exact earned
      · rw [if_neg same]
        exact counts.attempts day

theorem throws_of_thrown {buffer : HistoryBuffer} {outcome : Outcome} {confirmFails : Nat}
    {await : ArchiveAwait} (thrown : archiveNext env buffer key outcome await = .thrown) :
    throws env outcome (.archive confirmFails await) := by
  cases outcome with
  | failed applied => cases await <;> rfl
  | succeeded =>
      cases await with
      | storageMeta =>
          unfold archiveNext at thrown
          cases bound : env.archiveBound with
          | false => simp [throws, bound]
          | true => simp [bound] at thrown
      | _ => cases thrown

theorem counted_flushAct {input : Input} {await : RowAwait} (counts : Counted hub)
    (waiting : WaitingCounted 0 hub (.flushing pass key row await))
    (own : throws env input.outcome await → maxArchiveDayAttempts ≤ hub.attempts key.2 + 1 →
      writesArchive await ∧ ownAttempts key hub.journal) :
    Counted (flushAct env input pass key row hub await).1 ∧
      WaitingCounted 0 (flushAct env input pass key row hub await).1
        (flushAct env input pass key row hub await).2 := by
  obtain ⟨_, rows, awaited⟩ := waiting
  have left : RowsCounted hub.journal pass.left := (List.forall_mem_cons.mp rows).2
  have goesOn : WaitingCounted 0 hub (pass.next input.now) := counted_nextRow left
  have never (limit : throws env input.outcome await) (idle : writesArchive await = false)
      (reached : maxArchiveDayAttempts ≤ hub.attempts key.2 + 1) (fact : Fact) :
      fact = .failed key ∧ ownAttempts key hub.journal := by
    have writes := (own limit reached).1
    rw [idle] at writes
    cases writes
  cases await with
  | confirmMeta =>
      cases outcome : input.outcome with
      | succeeded =>
          simp only [flushAct, outcome]
          exact ⟨counts, rfl, rows, trivial⟩
      | failed applied =>
          simp only [flushAct, outcome]
          exact counted_caught counts rows (.inr rfl)
            fun limit => never (by rw [outcome]; rfl) rfl limit _
  | confirmHead =>
      cases outcome : input.outcome with
      | succeeded =>
          simp only [flushAct, outcome]
          split
          · exact ⟨counts, rfl, rows, trivial⟩
          · exact counted_failedConfirmation counts rows
      | failed applied =>
          simp only [flushAct, outcome]
          exact counted_failedConfirmation counts rows
  | confirmVerify =>
      cases outcome : input.outcome with
      | succeeded =>
          simp only [flushAct, outcome]
          split
          · unfold confirmed
            split
            · exact ⟨counted_clearAttempts counts key.2, rfl, rows.mono ⟨[_], rfl⟩, trivial⟩
            · exact ⟨counts, goesOn⟩
          · exact counted_failedConfirmation counts rows
      | failed applied =>
          simp only [flushAct, outcome]
          exact counted_failedConfirmation counts rows
  | deleteConfirmed =>
      cases outcome : input.outcome with
      | succeeded =>
          simp only [flushAct, outcome]
          exact ⟨counts.eraseRow, goesOn⟩
      | failed applied =>
          simp only [flushAct, outcome]
          have own (limit) := never (by rw [outcome]; rfl) rfl limit (.thrown key)
          cases applied with
          | false => exact counted_caught counts rows (.inr rfl) own
          | true => exact counted_caught counts.eraseRow rows (.inr rfl) own
  | archive confirmFails await =>
      have quiet : Quiet hub (hub.archive env key row.points input.outcome await) := quiet_archive ..
      have longer := quiet.journal.suffix
      obtain ⟨facts, silent, journal⟩ := quiet.journal
      simp only [flushAct]
      cases following : archiveNext env hub.buffer key input.outcome await with
      | waiting next => exact ⟨counts.quiet quiet, rfl, rows.mono longer, awaited.silent quiet.journal⟩
      | done => exact ⟨counts.quiet quiet, rfl, rows.mono longer, awaited.silent quiet.journal⟩
      | thrown =>
          apply counted_caught (counts.quiet quiet) (rows.mono longer) (.inl rfl)
          intro limit
          rw [Hub.attempts, quiet.attempts] at limit
          rw [journal, ownAttempts_quiet silent]
          exact ⟨rfl, (own (throws_of_thrown following) limit).2⟩
  | put kept =>
      cases outcome : input.outcome with
      | succeeded =>
          simp only [flushAct, outcome]
          have stored : Counted (hub.setRow key kept) := counts.setRow awaited
          have saved : ∀ other, Fact.stored key ≠ .unsaved other := by
            intro other same
            cases same
          have moved : ∀ other, Fact.stored key ≠ .moved other := by
            intro other same
            cases same
          refine ⟨stored.noted rfl rfl stored.attempts (fun other same => absurd same (saved other))
            (fun other same => absurd same (moved other)), ?_⟩
          exact counted_nextRow (left.mono ⟨[_], rfl⟩)
      | failed applied =>
          simp only [flushAct, outcome]
          have own (limit : maxArchiveDayAttempts ≤ hub.attempts key.2 + 1) :
              Fact.failed key = .failed key ∧ ownAttempts key hub.journal :=
            ⟨rfl, (own (by rw [outcome]; rfl) limit).2⟩
          cases applied with
          | false => exact counted_caught counts rows (.inl rfl) own
          | true => exact counted_caught (counts.setRow awaited) rows (.inl rfl) own
  | letterGet cause =>
      cases outcome : input.outcome with
      | succeeded =>
          simp only [flushAct, outcome]
          exact ⟨counts, rfl, rows, awaited⟩
      | failed applied =>
          simp only [flushAct, outcome]
          exact counted_unsaved counts rows awaited
  | letterPut cause existing =>
      have quiet : Quiet hub (hub.letter env key existing row.points input.outcome) := quiet_letter ..
      have longer := quiet.journal.suffix
      have lettered := counts.quiet quiet
      simp only [flushAct]
      split
      · exact ⟨counted_clearAttempts lettered key.2, rfl, (rows.mono longer).mono ⟨[_], rfl⟩, trivial⟩
      · have caused : AwaitCounted key
            (hub.letter env key existing row.points input.outcome).journal (.letterGet cause) :=
          AwaitCounted.silent awaited quiet.journal
        exact counted_unsaved lettered (rows.mono longer) caused
  | deleteMoved cause =>
      cases outcome : input.outcome with
      | succeeded =>
          simp only [flushAct, outcome]
          exact ⟨counts.eraseRow, goesOn⟩
      | failed applied =>
          cases cause with
          | unconfirmed =>
              simp only [flushAct, outcome]
              have own (limit) := never (by rw [outcome]; rfl) rfl limit (.thrown key)
              cases applied with
              | false => exact counted_caught counts rows (.inr rfl) own
              | true => exact counted_caught counts.eraseRow rows (.inr rfl) own
          | attempts count =>
              simp only [flushAct, outcome]
              cases applied with
              | false => exact ⟨counts, trivial⟩
              | true => exact ⟨counts.eraseRow, trivial⟩

theorem waitingCounted_nextReplay {process : Nat} (left : List DayKey) :
    WaitingCounted process hub (nextReplay left) := by
  cases left <;> trivial

theorem waitingCounted_replayAct {process : Nat} (outcome : Outcome) (left : List DayKey)
    (await : ReplayAwait) : WaitingCounted process next (replayAct env outcome left key hub await).2 := by
  cases await with
  | get =>
      simp only [replayAct]
      split
      · trivial
      · exact waitingCounted_nextReplay left
  | archive entry seen await =>
      simp only [replayAct]
      split
      · trivial
      · trivial
      · exact waitingCounted_nextReplay left
  | delete entry => exact waitingCounted_nextReplay left

theorem counted_beginFlush {input : Input} (counts : Counted hub) :
    WaitingCounted 0 hub (beginFlush env input hub) := by
  unfold beginFlush
  split
  · apply counted_nextRow
    intro entry member
    have inside : entry ∈ hub.buffer.rows.entries := (List.mem_insertionSort _).mp member
    exact counts.rows entry.1 entry.2 (OrderedMap.get?_eq_some.mpr inside)
  · trivial

/-- A step that is not one of the day flush notes nothing that is counted. -/
theorem silent_act {calls : Nat → Call} {process : Nat} {waiting : Waiting} {input : Input}
    (other : ∀ pass key row await, waiting ≠ .flushing pass key row await) :
    Silent hub.journal (act env calls process hub waiting input).1.journal := by
  cases waiting with
  | flushing pass key row await => exact absurd rfl (other pass key row await)
  | idle =>
      simp only [act]
      split
      · exact .refl _
      · cases call : calls process with
        | writeDeadLetterDay key points =>
            simp only [begin]
            split <;> exact .refl _
        | _ => exact .refl _
  | returned => exact .refl _
  | listing target limit =>
      simp only [act]
      split <;> exact .refl _
  | replaying left key await => exact (quiet_replayAct input.outcome left await).journal
  | lettering key points existing => exact (quiet_letter existing points input.outcome).journal
  | archivingDay key points await => exact (quiet_archive points input.outcome await).journal
  | readingDay key points archived => exact .refl _
  | storingDay key row =>
      simp only [act]
      split <;> exact .refl _

theorem counted_act {calls : Nat → Call} {process : Nat} {waiting : Waiting} {input : Input}
    (counts : Counted hub) (own : WaitingCounted process hub waiting)
    (guard : OwnFailure env process hub waiting input) :
    Counted (act env calls process hub waiting input).1 ∧
      WaitingCounted process (act env calls process hub waiting input).1
        (act env calls process hub waiting input).2 := by
  cases waiting with
  | flushing pass key row await =>
      obtain ⟨rfl, rows, awaited⟩ := own
      exact counted_flushAct counts ⟨rfl, rows, awaited⟩ guard
  | idle =>
      simp only [act]
      split
      case isTrue alarm =>
        subst alarm
        exact ⟨counts, counted_beginFlush counts⟩
      case isFalse =>
        cases call : calls process with
        | append entry => exact ⟨⟨counts.attempts, counts.rows, counts.unsaved, counts.earned⟩, trivial⟩
        | memDay key points =>
            refine ⟨counts, ?_⟩
            simp only [begin]
            split <;> trivial
        | writeDeadLetterDay key points =>
            simp only [begin]
            split <;> exact ⟨counts, trivial⟩
        | replayDeadLetter key => exact ⟨counts, trivial⟩
        | drainDeadLetters target limit => exact ⟨counts, trivial⟩
  | returned =>
      simp only [act]
      split
      case isTrue alarm =>
        subst alarm
        exact ⟨counts, counted_beginFlush counts⟩
      case isFalse => exact ⟨counts, trivial⟩
  | listing target limit =>
      simp only [act]
      split
      · exact ⟨counts, waitingCounted_nextReplay _⟩
      · exact ⟨counts, trivial⟩
  | replaying left key await =>
      exact ⟨counts.quiet (quiet_replayAct input.outcome left await),
        waitingCounted_replayAct input.outcome left await⟩
  | lettering key points existing =>
      exact ⟨counts.quiet (quiet_letter existing points input.outcome), trivial⟩
  | archivingDay key points await =>
      refine ⟨counts.quiet (quiet_archive points input.outcome await), ?_⟩
      simp only [act]
      split <;> trivial
  | readingDay key points archived =>
      refine ⟨counts, ?_⟩
      simp only [act]
      split
      · show DayRow.confirmFails _ = 0
        split <;> rfl
      · trivial
  | storingDay key row =>
      have fails : row.confirmFails ≤ unconfirmedCount key hub.journal := by
        have zero : row.confirmFails = 0 := own
        omega
      simp only [act]
      split
      · exact ⟨counts.setRow fails, trivial⟩
      · exact ⟨counts, trivial⟩

variable (env) in
theorem keeps_counted (calls : Nat → Call) :
    Keeps (act env calls) (OwnFailure env) Counted WaitingCounted where
  shared _ _ _ _ counts own guard := (counted_act counts own guard).1
  self _ _ _ _ counts own guard := (counted_act counts own guard).2
  others process hub waiting input counts own guard other different waitingOther ownOther := by
    cases waitingOther with
    | flushing pass key row await =>
        obtain ⟨rfl, rows, awaited⟩ := ownOther
        have silent : Silent hub.journal (act env calls process hub waiting input).1.journal := by
          apply silent_act
          rintro pass key row await rfl
          exact different own.1.symm
        exact ⟨rfl, rows.mono silent.suffix, awaited.silent silent⟩
    | storingDay key row => exact ownOther
    | _ => trivial

end Steps

/-- When every failure that moves a row is one of the archive write and finds only failures of that
row counted, each dead letter has been earned by its own target and day. -/
theorem dead_letters_earned (env : Env) (calls : Nat → Call) (events : List (Nat × Input))
    (own : Runs.Along (step (act env calls)) (Allowed (OwnFailure env)) (opened .empty []) events) :
    EarnedAll (Runs.run (step (act env calls)) (opened .empty []) events).shared.journal := by
  have initial : Invariant Counted WaitingCounted (opened .empty []) := by
    refine ⟨⟨fun day => Nat.le_refl 0, nofun, fun key before held => ?_, fun key before held => ?_⟩,
      fun process => trivial⟩
    · exact absurd (List.suffix_nil.mp held) (List.cons_ne_nil _ _)
    · exact absurd (List.suffix_nil.mp held) (List.cons_ne_nil _ _)
  exact (run_invariant (keeps_counted env calls) initial own).shared.earned

section Runs

private def letterTarget (name : String) (clean : name ≠ "" ∧ name.length ≤ 96 ∧
    name.toList.all allowedChar ∧ trimDashes name.toList = name.toList) : TargetId := ⟨name, clean⟩

/-- A day of memory for three targets. -/
private def threeDays (process : Nat) : Call :=
  .memDay (match process with
    | 1 => letterTarget "a" (by decide)
    | 2 => letterTarget "b" (by decide)
    | _ => letterTarget "c" (by decide), 1) []

private def storeDay (process : Nat) : List (Nat × Input) :=
  List.replicate 3 (process, ⟨100000, .succeeded⟩)

/-- An alarm of a later day lists the rows, and the object of each cannot be read. -/
private def failedReads (rows : Nat) : List (Nat × Input) :=
  (0, ⟨300000, .succeeded⟩) :: (List.replicate rows
    [(0, ⟨300000, .succeeded⟩), (0, ⟨300000, .succeeded⟩), (0, ⟨300000, .failed false⟩)]).flatten

/-- The third alarm that fails for the only target moves its row. -/
theorem dead_letters_earned_oneTarget :
    EarnedAll (Runs.run (step (act {} threeDays)) (opened .empty [])
      (storeDay 1 ++ (failedReads 1 ++ [(0, ⟨300000, .succeeded⟩), (0, ⟨300000, .succeeded⟩)]) ++
        (failedReads 1 ++ [(0, ⟨300000, .succeeded⟩), (0, ⟨300000, .succeeded⟩)]) ++
        failedReads 1)).shared.journal :=
  dead_letters_earned {} threeDays _ (by decide +kernel)

/-- One failure for each of three targets moves the row of the third. -/
theorem dead_letter_of_shared_attempts :
    ¬ EarnedAll (Runs.run (step (act {} threeDays)) (opened .empty [])
      (storeDay 1 ++ storeDay 2 ++ storeDay 3 ++ failedReads 3)).shared.journal := by
  intro earned
  have journal : (Runs.run (step (act {} threeDays)) (opened .empty [])
      (storeDay 1 ++ storeDay 2 ++ storeDay 3 ++ failedReads 3)).shared.journal =
      [.moved (letterTarget "c" (by decide), 1), .failed (letterTarget "c" (by decide), 1),
        .failed (letterTarget "b" (by decide), 1), .failed (letterTarget "a" (by decide), 1)] := by
    decide +kernel
  rw [journal] at earned
  have wrong := earned (letterTarget "c" (by decide), 1) _ (List.suffix_refl _)
  revert wrong
  unfold Earned
  decide +kernel

end Runs

end NieSla.ProbeHistory
