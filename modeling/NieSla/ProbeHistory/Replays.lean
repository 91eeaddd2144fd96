import NieSla.ProbeHistory.CompletedDays

/-! A time that has once been dead-lettered stays in the dead letter or in the R2 object of its day,
and no replay overtakes a newer point, as long as no write or delete of the two goes past points that
its call has not read. -/
namespace NieSla.ProbeHistory
open Processes

/-- A point of the time has been put into the dead letter. -/
def lettered (key : DayKey) (ts : Int) (journal : List Fact) : Bool :=
  journal.any fun fact =>
    match fact with
    | .lettered other times => other = key && times.contains ts
    | _ => false

/-- The object or the dead letter has a point of the time. -/
def KeptAt (env : Env) (hub : Hub) (key : DayKey) (ts : Int) : Prop :=
  ts ∈ timesOf env key (hub.buffer.objectPoints key) ∨
    ts ∈ timesOf env key (hub.buffer.deadPoints key)

/-- Nothing of a dead letter is lost, and no newer point has been replaced. -/
structure Kept (env : Env) (hub : Hub) : Prop where
  held : ∀ key ts, lettered key ts hub.journal → KeptAt env hub key ts
  newer : ∀ key ts, .replaced key ts ∉ hub.journal

/-- The merged day is below the limit. -/
def BelowLimit (env : Env) (key : DayKey) (existing incoming : List ProbePoint) : Prop :=
  (timesOf env key (existing ++ incoming)).dedup.length ≤ maxDayPoints env

instance (env : Env) (key : DayKey) (existing incoming : List ProbePoint) :
    Decidable (BelowLimit env key existing incoming) := inferInstanceAs (Decidable (_ ≤ _))

/-- What a put of an object must have read: the dead-lettered times that the object has by now. -/
def ReadObject (env : Env) (hub : Hub) (key : DayKey) (points existing : List ProbePoint) : Prop :=
  (∀ ts ∈ timesOf env key (hub.buffer.objectPoints key), lettered key ts hub.journal →
    ts ∈ timesOf env key (existing ++ points)) ∧ BelowLimit env key existing points

def ArchiveRead (env : Env) (hub : Hub) (key : DayKey) (points : List ProbePoint)
    (outcome : Outcome) : ArchiveAwait → Prop
  | .put existing => outcome.applied → ReadObject env hub key points existing
  | _ => True

/-- What a put of a dead letter must have read: the times it has by now, but for those that the
object has. -/
def LetterRead (env : Env) (hub : Hub) (key : DayKey) (points existing : List ProbePoint)
    (outcome : Outcome) : Prop :=
  outcome.applied →
    (∀ ts ∈ timesOf env key (hub.buffer.deadPoints key),
      ts ∈ timesOf env key (existing ++ (existing ++ points)) ∨
        ts ∈ timesOf env key (hub.buffer.objectPoints key)) ∧
      BelowLimit env key existing (existing ++ points)

/-- A replay finds no point of another value that was archived after its dead letter was written. -/
def NotOvertaken (env : Env) (hub : Hub) (key : DayKey) (entry : List ProbePoint) (seen : Nat)
    (outcome : Outcome) : ArchiveAwait → Prop
  | .put _ => outcome.applied → ∀ ts ∈ timesOf env key entry, overtaken key seen ts hub.journal →
      bucketAt env key.2 entry ts = bucketAt env key.2 (hub.buffer.objectPoints key) ts
  | _ => True

def ReplayRead (env : Env) (hub : Hub) (key : DayKey) (outcome : Outcome) : ReplayAwait → Prop
  | .get => True
  | .archive entry seen await =>
      ArchiveRead env hub key entry outcome await ∧ NotOvertaken env hub key entry seen outcome await
  | .delete entry => outcome.applied → ∀ ts ∈ timesOf env key (hub.buffer.deadPoints key),
      ts ∈ timesOf env key entry ∨ ts ∈ timesOf env key (hub.buffer.objectPoints key)

/-- Each write of an object or a dead letter, and each delete of a dead letter, is made by a call
that has read what it goes past. -/
def AllRead (env : Env) (_ : Nat) (hub : Hub) (waiting : Waiting) (input : Input) : Prop :=
  match waiting with
  | .flushing _ key row (.archive _ await) =>
      ArchiveRead env hub key row.points input.outcome await
  | .flushing _ key row (.letterPut _ existing) =>
      LetterRead env hub key row.points existing input.outcome
  | .replaying _ key await => ReplayRead env hub key input.outcome await
  | .lettering key points existing => LetterRead env hub key points existing input.outcome
  | .archivingDay key points await => ArchiveRead env hub key points input.outcome await
  | _ => True

section Decidable

variable (env : Env) (hub : Hub) (key : DayKey) (points existing : List ProbePoint)
  (outcome : Outcome)

instance : Decidable (ReadObject env hub key points existing) := inferInstanceAs (Decidable (_ ∧ _))

instance : ∀ await, Decidable (ArchiveRead env hub key points outcome await)
  | .put _ => inferInstanceAs (Decidable (_ → _))
  | .storageMeta | .readMeta | .get | .head | .verify => .isTrue trivial

instance : Decidable (LetterRead env hub key points existing outcome) :=
  inferInstanceAs (Decidable (_ → _))

instance (seen : Nat) : ∀ await, Decidable (NotOvertaken env hub key points seen outcome await)
  | .put _ => inferInstanceAs (Decidable (_ → _))
  | .storageMeta | .readMeta | .get | .head | .verify => .isTrue trivial

instance : ∀ await, Decidable (ReplayRead env hub key outcome await)
  | .get => .isTrue trivial
  | .archive _ _ _ => inferInstanceAs (Decidable (_ ∧ _))
  | .delete _ => inferInstanceAs (Decidable (_ → _))

instance (process : Nat) (waiting : Waiting) (input : Input) :
    Decidable (AllRead env process hub waiting input) := by
  unfold AllRead
  split <;> infer_instance

end Decidable

section Times

variable {env : Env} {key : DayKey} {existing incoming : List ProbePoint} {ts : Int}

theorem timesOf_append :
    timesOf env key (existing ++ incoming) = timesOf env key existing ++ timesOf env key incoming := by
  rw [timesOf, dayPoints_append, List.map_append]
  rfl

theorem mem_timesOf : ts ∈ timesOf env key existing ↔ (bucketAt env key.2 existing ts).isSome := by
  rw [bucketAt, OrderedMap.lastBy_isSome, timesOf, List.mem_map]

theorem bucketAt_merged (below : BelowLimit env key existing incoming) :
    bucketAt env key.2 (mergeDay env key.2 existing incoming) ts =
      bucketAt env key.2 (existing ++ incoming) ts := by
  have inside : Within env key.2 (timesOf env key (existing ++ incoming)).toFinset
      (existing ++ incoming) := by
    intro point member
    exact List.mem_toFinset.mpr (List.mem_map.mpr ⟨point, member, rfl⟩)
  obtain ⟨old, new⟩ := within_append.mp inside
  apply bucketAt_mergeDay old new
  rw [List.card_toFinset]
  exact below

theorem mem_timesOf_merged (below : BelowLimit env key existing incoming) :
    ts ∈ timesOf env key (mergeDay env key.2 existing incoming) ↔
      ts ∈ timesOf env key (existing ++ incoming) := by
  rw [mem_timesOf, mem_timesOf, bucketAt_merged below]

end Times

/-! What holds of the hub and of a waiting call. -/

structure Safe (env : Env) (hub : Hub) : Prop extends Kept env hub where
  dead : ∀ key, ∀ ts ∈ timesOf env key (hub.buffer.deadPoints key), lettered key ts hub.journal

/-- Once the object has been put, it has the times of the entry. -/
def ArchiveAwait.past : ArchiveAwait → Bool
  | .head | .verify => true
  | _ => false

def Lettered (env : Env) (hub : Hub) (key : DayKey) (points : List ProbePoint) : Prop :=
  ∀ ts ∈ timesOf env key points, lettered key ts hub.journal

def InObject (env : Env) (hub : Hub) (key : DayKey) (points : List ProbePoint) : Prop :=
  ∀ ts ∈ timesOf env key points, ts ∈ timesOf env key (hub.buffer.objectPoints key)

def WaitingSafe (env : Env) (_ : Nat) (hub : Hub) : Waiting → Prop
  | .flushing _ key _ (.letterPut _ existing) => Lettered env hub key existing
  | .replaying _ key (.archive entry _ await) =>
      Lettered env hub key entry ∧ (await.past → InObject env hub key entry)
  | .replaying _ key (.delete entry) => Lettered env hub key entry ∧ InObject env hub key entry
  | .lettering key _ existing => Lettered env hub key existing
  | _ => True

/-- What a step keeps for every call: what is dead-lettered stays so, and in its object. -/
structure Later (env : Env) (hub next : Hub) : Prop where
  lettered : ∀ key ts, lettered key ts hub.journal → lettered key ts next.journal
  objects : ∀ key ts, ProbeHistory.lettered key ts hub.journal →
    ts ∈ timesOf env key (hub.buffer.objectPoints key) →
      ts ∈ timesOf env key (next.buffer.objectPoints key)

section Steps

variable {env : Env} {hub next : Hub} {key : DayKey} {points existing entry : List ProbePoint}
  {outcome : Outcome} {await : ArchiveAwait} {ts : Int}

theorem Later.refl (env : Env) (hub : Hub) : Later env hub hub := ⟨fun _ _ => id, fun _ _ _ => id⟩

theorem Later.trans {last : Hub} (first : Later env hub next) (second : Later env next last) :
    Later env hub last :=
  ⟨fun key ts known => second.lettered key ts (first.lettered key ts known),
    fun key ts known inside =>
      second.objects key ts (first.lettered key ts known) (first.objects key ts known inside)⟩

theorem WaitingSafe.later {process : Nat} {waiting : Waiting} (safe : WaitingSafe env process hub waiting)
    (later : Later env hub next) : WaitingSafe env process next waiting := by
  have known {key : DayKey} {points : List ProbePoint} (own : Lettered env hub key points) :
      Lettered env next key points :=
    fun ts member => later.lettered key ts (own ts member)
  have inside {key : DayKey} {points : List ProbePoint} (own : Lettered env hub key points)
      (held : InObject env hub key points) : InObject env next key points :=
    fun ts member => later.objects key ts (own ts member) (held ts member)
  cases waiting with
  | flushing pass key row await =>
      cases await with
      | letterPut cause existing => exact known safe
      | _ => trivial
  | replaying left key await =>
      cases await with
      | get => trivial
      | archive entry seen await => exact ⟨known safe.1, fun past => inside safe.1 (safe.2 past)⟩
      | delete entry => exact ⟨known safe.1, inside safe.1 safe.2⟩
  | lettering key points existing => exact known safe
  | _ => trivial

/-- Neither the objects nor the dead letters nor what is noted of them changes. -/
structure Frame (hub next : Hub) : Prop where
  objects : next.buffer.objects = hub.buffer.objects
  deadLetters : next.buffer.deadLetters = hub.buffer.deadLetters
  lettered : ∀ key ts, lettered key ts next.journal = lettered key ts hub.journal
  replaced : ∀ key ts, .replaced key ts ∈ next.journal → .replaced key ts ∈ hub.journal

theorem Frame.refl (hub : Hub) : Frame hub hub := ⟨rfl, rfl, fun _ _ => rfl, fun _ _ => id⟩

theorem Frame.trans {last : Hub} (first : Frame hub next) (second : Frame next last) :
    Frame hub last :=
  ⟨second.objects.trans first.objects, second.deadLetters.trans first.deadLetters,
    fun key ts => (second.lettered key ts).trans (first.lettered key ts),
    fun key ts member => first.replaced key ts (second.replaced key ts member)⟩

theorem Frame.objectPoints (frame : Frame hub next) (key : DayKey) :
    next.buffer.objectPoints key = hub.buffer.objectPoints key := by
  rw [HistoryBuffer.objectPoints, frame.objects]
  rfl

theorem Frame.deadPoints (frame : Frame hub next) (key : DayKey) :
    next.buffer.deadPoints key = hub.buffer.deadPoints key := by
  rw [HistoryBuffer.deadPoints, frame.deadLetters]
  rfl

theorem Frame.later (frame : Frame hub next) : Later env hub next := by
  refine ⟨fun key ts known => ?_, fun key ts _ inside => ?_⟩
  · rw [frame.lettered]
    exact known
  · rw [frame.objectPoints]
    exact inside

theorem Safe.frame (safe : Safe env hub) (frame : Frame hub next) : Safe env next := by
  refine ⟨⟨fun key ts known => ?_, fun key ts member => ?_⟩, fun key ts member => ?_⟩
  · rw [frame.lettered] at known
    unfold KeptAt
    rw [frame.objectPoints, frame.deadPoints]
    exact safe.held key ts known
  · exact safe.newer key ts (frame.replaced key ts member)
  · rw [frame.lettered]
    rw [frame.deadPoints] at member
    exact safe.dead key ts member

theorem objectPoints_setObject (merged : List ProbePoint) (other : DayKey) :
    (hub.setObject key merged).buffer.objectPoints other =
      if other = key then merged else hub.buffer.objectPoints other := by
  unfold HistoryBuffer.objectPoints Hub.setObject
  rw [OrderedMap.get?_set]
  split <;> rfl

theorem deadPoints_setLetter (merged : List ProbePoint) (other : DayKey) :
    (hub.setLetter key merged).buffer.deadPoints other =
      if other = key then merged else hub.buffer.deadPoints other := by
  unfold HistoryBuffer.deadPoints Hub.setLetter
  rw [OrderedMap.get?_set]
  split <;> rfl

theorem deadPoints_eraseLetter (other : DayKey) :
    (hub.eraseLetter key).buffer.deadPoints other =
      if other = key then [] else hub.buffer.deadPoints other := by
  unfold HistoryBuffer.deadPoints Hub.eraseLetter
  rw [OrderedMap.get?_erase]
  split <;> rfl

theorem lettered_append (facts journal : List Fact) :
    lettered key ts (facts ++ journal) = (lettered key ts facts || lettered key ts journal) :=
  List.any_append

/-- A put of an object that loses no dead-lettered time of it. -/
theorem safe_setObject (safe : Safe env hub) (read : ReadObject env hub key points existing) :
    Safe env (hub.setObject key (mergeDay env key.2 existing points)) ∧
      Later env hub (hub.setObject key (mergeDay env key.2 existing points)) ∧
      InObject env (hub.setObject key (mergeDay env key.2 existing points)) key points := by
  have later : Later env hub (hub.setObject key (mergeDay env key.2 existing points)) := by
    refine ⟨fun _ _ => id, fun other ts known inside => ?_⟩
    rw [objectPoints_setObject]
    split
    case isTrue same =>
      subst same
      exact (mem_timesOf_merged read.2).mpr (read.1 ts inside known)
    case isFalse => exact inside
  refine ⟨⟨⟨fun other ts known => ?_, safe.newer⟩, safe.dead⟩, later, fun ts member => ?_⟩
  · exact (safe.held other ts known).imp_left (later.objects other ts known)
  · rw [objectPoints_setObject, if_pos rfl, mem_timesOf_merged read.2, timesOf_append]
    exact List.mem_append_right _ member

theorem safe_archive (safe : Safe env hub) (read : ArchiveRead env hub key points outcome await) :
    Safe env (hub.archive env key points outcome await) ∧
      Later env hub (hub.archive env key points outcome await) := by
  cases await with
  | put existing =>
      cases applied : outcome.applied with
      | false =>
          simp only [Hub.archive, archivePut, applied, Bool.false_eq_true, if_false]
          exact ⟨safe, .refl env hub⟩
      | true =>
          simp only [Hub.archive, archivePut, applied, if_true]
          obtain ⟨put, later, _⟩ := safe_setObject safe (read applied)
          have frame : Frame (hub.setObject key (mergeDay env key.2 existing points))
              ((hub.setObject key (mergeDay env key.2 existing points)).note
                [.archived key (timesOf env key points)]) :=
            ⟨rfl, rfl, fun _ _ => rfl, fun _ _ member => (List.mem_cons.mp member).resolve_left nofun⟩
          exact ⟨put.frame frame, later.trans frame.later⟩
  | _ => exact ⟨safe, .refl env hub⟩

theorem safe_replay {seen : Nat} (safe : Safe env hub)
    (read : ArchiveRead env hub key entry outcome await)
    (newest : NotOvertaken env hub key entry seen outcome await) :
    Safe env (hub.replay env key entry seen outcome await) ∧
      Later env hub (hub.replay env key entry seen outcome await) ∧
      (∀ existing, await = .put existing → outcome.applied →
        InObject env (hub.replay env key entry seen outcome await) key entry) := by
  cases await with
  | put existing =>
      cases applied : outcome.applied with
      | false =>
          simp only [Hub.replay, archivePut, applied, Bool.false_eq_true, if_false]
          exact ⟨safe, .refl env hub, nofun⟩
      | true =>
          simp only [Hub.replay, archivePut, applied, if_true]
          obtain ⟨put, later, inside⟩ := safe_setObject safe (read applied)
          have none : replacedTimes env key entry (mergeDay env key.2 existing entry) seen hub = [] := by
            apply List.filter_eq_nil_iff.mpr
            intro ts member
            rw [Bool.and_eq_true, decide_eq_true_eq]
            rintro ⟨late, different⟩
            apply different
            rw [bucketAt_merged (read applied).2, bucketAt_append, ← newest applied ts member late]
            obtain ⟨point, found⟩ := Option.isSome_iff_exists.mp (mem_timesOf.mp member)
            rw [found]
            rfl
          rw [none]
          exact ⟨put, later, fun _ _ _ => inside⟩
  | _ => exact ⟨safe, .refl env hub, nofun⟩

theorem safe_letter (safe : Safe env hub) (known : Lettered env hub key existing)
    (read : LetterRead env hub key points existing outcome) :
    Safe env (hub.letter env key existing points outcome) ∧
      Later env hub (hub.letter env key existing points outcome) := by
  unfold Hub.letter
  split
  case isFalse => exact ⟨safe, .refl env hub⟩
  case isTrue applied =>
    obtain ⟨covers, below⟩ := read applied
    have written (ts : Int) : ts ∈ timesOf env key (letterOf env key existing points) ↔
        ts ∈ timesOf env key existing ∨ ts ∈ timesOf env key points := by
      unfold letterOf
      rw [mem_timesOf_merged below]
      simp only [timesOf_append, List.mem_append]
      tauto
    have noted (other : DayKey) (ts : Int) :
        lettered other ts (.lettered key (timesOf env key points) :: hub.journal) ↔
          (key = other ∧ ts ∈ timesOf env key points) ∨ lettered other ts hub.journal := by
      simp [lettered]
    have later : Later env hub ((hub.setLetter key (letterOf env key existing points)).note
        [.lettered key (timesOf env key points)]) :=
      ⟨fun other ts known => (noted other ts).mpr (.inr known), fun _ _ _ => id⟩
    refine ⟨⟨⟨fun other ts now => ?_, fun other ts member => ?_⟩, fun other ts member => ?_⟩, later⟩
    · unfold KeptAt
      simp only [Hub.note, deadPoints_setLetter]
      cases (noted other ts).mp now with
      | inl fresh =>
          rw [if_pos fresh.1.symm, ← fresh.1, written]
          exact .inr (.inr fresh.2)
      | inr before =>
          refine (safe.held other ts before).elim .inl fun dead => ?_
          split
          case isTrue same =>
            subst same
            refine (covers ts dead).elim (fun read => .inr ((written ts).mpr ?_)) .inl
            simp only [timesOf_append, List.mem_append] at read
            tauto
          case isFalse => exact .inr dead
    · exact safe.newer other ts ((List.mem_cons.mp member).resolve_left nofun)
    · apply (noted other ts).mpr
      simp only [Hub.note, deadPoints_setLetter] at member
      split at member
      case isTrue same =>
        subst same
        exact ((written ts).mp member).elim (fun old => .inr (known ts old)) fun new => .inl ⟨rfl, new⟩
      case isFalse => exact .inr (safe.dead other ts member)

theorem safe_eraseLetter (safe : Safe env hub)
    (read : ∀ ts ∈ timesOf env key (hub.buffer.deadPoints key),
      ts ∈ timesOf env key entry ∨ ts ∈ timesOf env key (hub.buffer.objectPoints key))
    (inside : InObject env hub key entry) :
    Safe env (hub.eraseLetter key) ∧ Later env hub (hub.eraseLetter key) := by
  refine ⟨⟨⟨fun other ts known => ?_, safe.newer⟩, fun other ts member => ?_⟩,
    fun _ _ => id, fun _ _ _ => id⟩
  · unfold KeptAt
    rw [deadPoints_eraseLetter]
    refine (safe.held other ts known).elim .inl fun dead => ?_
    split
    case isTrue same =>
      subst same
      exact .inl ((read ts dead).elim (inside ts) id)
    case isFalse => exact .inr dead
  · rw [deadPoints_eraseLetter] at member
    split at member
    · cases member
    · exact safe.dead other ts member

/-- Facts of the day flush alone. -/
def Fact.aside : Fact → Bool
  | .lettered .. | .replaced .. => false
  | _ => true

theorem frame_note (facts : List Fact) (same : next.buffer = hub.buffer)
    (journal : next.journal = facts ++ hub.journal) (aside : ∀ fact ∈ facts, fact.aside) :
    Frame hub next := by
  refine ⟨by rw [same], by rw [same], fun key ts => ?_, fun key ts member => ?_⟩
  · have none : lettered key ts facts = false := by
      apply List.any_eq_false.mpr
      intro fact member
      have apart := aside fact member
      cases fact <;> first | exact Bool.false_ne_true | cases apart
    rw [journal, lettered_append, none, Bool.false_or]
  · rw [journal] at member
    refine (List.mem_append.mp member).resolve_left fun inside => ?_
    cases aside _ inside

theorem frame_caught {fact : Fact} {pass : Pass} {now : Int} {row : DayRow} (aside : fact.aside) :
    Frame hub (caught fact pass now key row hub).1 := by
  unfold caught
  simp only
  split
  · exact frame_note [_, _] rfl rfl
      (List.forall_mem_cons.mpr ⟨rfl, List.forall_mem_singleton.mpr aside⟩)
  · exact frame_note [_] rfl rfl (List.forall_mem_singleton.mpr aside)

theorem frame_failedConfirmation {pass : Pass} {row : DayRow} :
    Frame hub (failedConfirmation pass key row hub).1 := by
  unfold failedConfirmation
  simp only
  split
  · exact frame_note [_, _] rfl rfl
      (List.forall_mem_cons.mpr ⟨rfl, List.forall_mem_singleton.mpr rfl⟩)
  · exact frame_note [_] rfl rfl (List.forall_mem_singleton.mpr rfl)

theorem frame_confirmed {pass : Pass} {now : Int} {row : DayRow} :
    Frame hub (confirmed env pass now key row hub).1 := by
  unfold confirmed
  split
  · exact frame_note [_] rfl rfl (List.forall_mem_singleton.mpr rfl)
  · exact .refl hub

theorem frame_unsaved {cause : Cause} {pass : Pass} {now : Int} :
    Frame hub (unsaved cause pass now key hub).1 := by
  cases cause with
  | unconfirmed => exact frame_note [_] rfl rfl (List.forall_mem_singleton.mpr rfl)
  | attempts count => exact ⟨rfl, rfl, fun _ _ => rfl, fun _ _ => id⟩

theorem waitingSafe_nextRow {process : Nat} (now currentDay : Int) (budget : Nat)
    (left : List (DayKey × DayRow)) :
    WaitingSafe env process hub (nextRow now currentDay budget left) := by
  induction left with
  | nil => trivial
  | cons entry rest ih =>
      obtain ⟨key, row⟩ := entry
      simp only [nextRow]
      split
      · exact ih
      · split
        · exact ih
        · split
          · exact ih
          · split <;> trivial

theorem waitingSafe_caught {process : Nat} {fact : Fact} {pass : Pass} {now : Int} {row : DayRow} :
    WaitingSafe env process next (caught fact pass now key row hub).2 := by
  unfold caught
  simp only
  split
  · trivial
  · exact waitingSafe_nextRow ..

theorem waitingSafe_failedConfirmation {process : Nat} {pass : Pass} {row : DayRow} :
    WaitingSafe env process next (failedConfirmation pass key row hub).2 := by
  unfold failedConfirmation
  simp only
  split <;> trivial

theorem waitingSafe_unsaved {process : Nat} {cause : Cause} {pass : Pass} {now : Int} :
    WaitingSafe env process next (unsaved cause pass now key hub).2 := by
  cases cause <;> exact waitingSafe_nextRow ..

/-- What a step of the flush does to the objects and the dead letters. -/
theorem flushAct_cases {input : Input} {pass : Pass} {row : DayRow} (await : RowAwait) :
    ∃ mid, Frame mid (flushAct env input pass key row hub await).1 ∧
      (mid = hub ∨
        (∃ count inner, await = .archive count inner ∧
          mid = hub.archive env key row.points input.outcome inner) ∨
        ∃ cause existing, await = .letterPut cause existing ∧
          mid = hub.letter env key existing row.points input.outcome) := by
  have erased (applied : Bool) : Frame hub (if applied then hub.eraseRow key else hub) := by
    split <;> exact ⟨rfl, rfl, fun _ _ => rfl, fun _ _ => id⟩
  have stored (applied : Bool) (kept : DayRow) : Frame hub (if applied then hub.setRow key kept else hub) := by
    split <;> exact ⟨rfl, rfl, fun _ _ => rfl, fun _ _ => id⟩
  cases await with
  | confirmMeta =>
      refine ⟨hub, ?_, .inl rfl⟩
      simp only [flushAct]
      split
      · exact .refl hub
      · exact frame_caught rfl
  | confirmHead =>
      refine ⟨hub, ?_, .inl rfl⟩
      simp only [flushAct]
      split
      · split
        · exact .refl hub
        · exact frame_failedConfirmation
      · exact frame_failedConfirmation
  | confirmVerify =>
      refine ⟨hub, ?_, .inl rfl⟩
      simp only [flushAct]
      split
      · split
        · exact frame_confirmed
        · exact frame_failedConfirmation
      · exact frame_failedConfirmation
  | deleteConfirmed =>
      refine ⟨hub, ?_, .inl rfl⟩
      simp only [flushAct]
      split
      · exact erased _
      · exact (erased _).trans (frame_caught rfl)
  | archive count inner =>
      refine ⟨_, ?_, .inr (.inl ⟨count, inner, rfl, rfl⟩)⟩
      simp only [flushAct]
      split
      · exact .refl _
      · exact .refl _
      · exact frame_caught rfl
  | put kept =>
      refine ⟨hub, ?_, .inl rfl⟩
      simp only [flushAct]
      split
      · exact (stored _ kept).trans (frame_note [_] rfl rfl (List.forall_mem_singleton.mpr rfl))
      · exact (stored _ kept).trans (frame_caught rfl)
  | letterGet cause =>
      refine ⟨hub, ?_, .inl rfl⟩
      simp only [flushAct]
      split
      · exact .refl hub
      · exact frame_unsaved
  | letterPut cause existing =>
      refine ⟨_, ?_, .inr (.inr ⟨cause, existing, rfl, rfl⟩)⟩
      simp only [flushAct]
      split
      · exact frame_note [_] rfl rfl (List.forall_mem_singleton.mpr rfl)
      · exact frame_unsaved
  | deleteMoved cause =>
      refine ⟨hub, ?_, .inl rfl⟩
      simp only [flushAct]
      split
      · exact erased _
      · split
        · exact (erased _).trans (frame_caught rfl)
        · exact erased _

theorem waitingSafe_flushAct {process : Nat} {input : Input} {pass : Pass} {row : DayRow}
    (safe : Safe env hub) (await : RowAwait) :
    WaitingSafe env process (flushAct env input pass key row hub await).1
      (flushAct env input pass key row hub await).2 := by
  cases await with
  | confirmMeta =>
      simp only [flushAct]
      split
      · trivial
      · exact waitingSafe_caught
  | confirmHead =>
      simp only [flushAct]
      split
      · split
        · trivial
        · exact waitingSafe_failedConfirmation
      · exact waitingSafe_failedConfirmation
  | confirmVerify =>
      simp only [flushAct]
      split
      · split
        · unfold confirmed
          split
          · trivial
          · exact waitingSafe_nextRow ..
        · exact waitingSafe_failedConfirmation
      · exact waitingSafe_failedConfirmation
  | deleteConfirmed =>
      simp only [flushAct]
      split
      · exact waitingSafe_nextRow ..
      · exact waitingSafe_caught
  | archive count inner =>
      simp only [flushAct]
      split
      · trivial
      · trivial
      · exact waitingSafe_caught
  | put kept =>
      simp only [flushAct]
      split
      · exact waitingSafe_nextRow ..
      · exact waitingSafe_caught
  | letterGet cause =>
      simp only [flushAct]
      split
      · exact safe.dead key
      · exact waitingSafe_unsaved
  | letterPut cause existing =>
      simp only [flushAct]
      split
      · trivial
      · exact waitingSafe_unsaved
  | deleteMoved cause =>
      simp only [flushAct]
      split
      · exact waitingSafe_nextRow ..
      · split
        · exact waitingSafe_caught
        · trivial

theorem past_of_done {buffer : HistoryBuffer}
    (done : archiveNext env buffer key outcome await = .done) : await.past := by
  cases outcome with
  | failed applied => cases await <;> cases done
  | succeeded =>
      cases await with
      | storageMeta =>
          unfold archiveNext at done
          simp only at done
          split at done <;> cases done
      | verify => rfl
      | _ => cases done

/-- What is waited for after the object has been put, or the put itself was before. -/
theorem past_of_waiting {buffer : HistoryBuffer} {following : ArchiveAwait}
    (waiting : archiveNext env buffer key outcome await = .waiting following)
    (past : following.past) : await.past ∨ (∃ existing, await = .put existing) ∧ outcome.applied := by
  cases outcome with
  | failed applied => cases await <;> cases waiting
  | succeeded =>
      cases await with
      | storageMeta =>
          unfold archiveNext at waiting
          simp only at waiting
          split at waiting
          · cases waiting
            cases past
          · cases waiting
      | put existing => exact .inr ⟨⟨existing, rfl⟩, rfl⟩
      | head => exact .inl rfl
      | verify => exact .inl rfl
      | readMeta => cases waiting; cases past
      | get => cases waiting; cases past

theorem safe_replayAct {process : Nat} {left : List DayKey} {await : ReplayAwait}
    (safe : Safe env hub) (own : WaitingSafe env process hub (.replaying left key await))
    (read : ReplayRead env hub key outcome await) :
    Safe env (replayAct env outcome left key hub await).1 ∧
      Later env hub (replayAct env outcome left key hub await).1 ∧
      WaitingSafe env process (replayAct env outcome left key hub await).1
        (replayAct env outcome left key hub await).2 := by
  have goesOn (next : Hub) : WaitingSafe env process next (nextReplay left) := by
    cases left <;> trivial
  cases await with
  | get =>
      simp only [replayAct]
      split
      case h_1 entry found =>
        refine ⟨safe, .refl env hub, fun ts member => safe.dead key ts ?_, nofun⟩
        rw [HistoryBuffer.deadPoints, found]
        exact member
      case h_2 => exact ⟨safe, .refl env hub, goesOn hub⟩
  | archive entry seen await =>
      obtain ⟨known, past⟩ := own
      obtain ⟨kept, later, inside⟩ := safe_replay safe read.1 read.2
      have stillKnown : Lettered env (hub.replay env key entry seen outcome await) key entry :=
        fun ts member => later.lettered key ts (known ts member)
      have stillInside (was : await.past) :
          InObject env (hub.replay env key entry seen outcome await) key entry :=
        fun ts member => later.objects key ts (known ts member) (past was ts member)
      simp only [replayAct]
      cases following : archiveNext env hub.buffer key outcome await with
      | thrown => exact ⟨kept, later, goesOn _⟩
      | done =>
          refine ⟨kept, later, stillKnown, stillInside ?_⟩
          exact past_of_done following
      | waiting next =>
          refine ⟨kept, later, stillKnown, fun now => ?_⟩
          rcases past_of_waiting following now with was | ⟨⟨existing, put⟩, applied⟩
          · exact stillInside was
          · exact inside existing put applied
  | delete entry =>
      simp only [replayAct]
      split
      case isTrue applied =>
        obtain ⟨kept, later⟩ := safe_eraseLetter safe (read applied) own.2
        exact ⟨kept, later, goesOn _⟩
      case isFalse => exact ⟨safe, .refl env hub, goesOn hub⟩

theorem safe_act {calls : Nat → Call} {process : Nat} {waiting : Waiting} {input : Input}
    (safe : Safe env hub) (own : WaitingSafe env process hub waiting)
    (read : AllRead env process hub waiting input) :
    Safe env (act env calls process hub waiting input).1 ∧
      Later env hub (act env calls process hub waiting input).1 ∧
      WaitingSafe env process (act env calls process hub waiting input).1
        (act env calls process hub waiting input).2 := by
  have flush : WaitingSafe env process hub (beginFlush env input hub) := by
    unfold beginFlush
    split
    · exact waitingSafe_nextRow ..
    · trivial
  cases waiting with
  | flushing pass key row await =>
      obtain ⟨mid, frame, same | ⟨count, inner, rfl, same⟩ | ⟨cause, existing, rfl, same⟩⟩ :=
        @flushAct_cases env hub key input pass row await
      · subst same
        exact ⟨safe.frame frame, frame.later, waitingSafe_flushAct safe await⟩
      · obtain ⟨kept, later⟩ := safe_archive safe read
        rw [← same] at kept later
        exact ⟨kept.frame frame, later.trans frame.later, waitingSafe_flushAct safe _⟩
      · obtain ⟨kept, later⟩ := safe_letter safe own read
        rw [← same] at kept later
        exact ⟨kept.frame frame, later.trans frame.later, waitingSafe_flushAct safe _⟩
  | idle =>
      simp only [act]
      split
      · exact ⟨safe, .refl env hub, flush⟩
      · cases call : calls process with
        | append entry =>
            have frame : Frame hub { hub with buffer := append env [entry] hub.buffer } :=
              ⟨rfl, rfl, fun _ _ => rfl, fun _ _ => id⟩
            exact ⟨safe.frame frame, frame.later, trivial⟩
        | memDay key points =>
            simp only [begin]
            split <;> exact ⟨safe, .refl env hub, trivial⟩
        | writeDeadLetterDay key points =>
            simp only [begin]
            split
            · exact ⟨safe, .refl env hub, safe.dead key⟩
            · exact ⟨safe, .refl env hub, trivial⟩
        | replayDeadLetter key => exact ⟨safe, .refl env hub, trivial⟩
        | drainDeadLetters target limit => exact ⟨safe, .refl env hub, trivial⟩
  | returned =>
      simp only [act]
      split
      · exact ⟨safe, .refl env hub, flush⟩
      · exact ⟨safe, .refl env hub, trivial⟩
  | listing target limit =>
      simp only [act]
      split
      · refine ⟨safe, .refl env hub, ?_⟩
        cases drained target limit hub <;> trivial
      · exact ⟨safe, .refl env hub, trivial⟩
  | replaying left key await => exact safe_replayAct safe own read
  | lettering key points existing =>
      obtain ⟨kept, later⟩ := safe_letter safe own read
      exact ⟨kept, later, trivial⟩
  | archivingDay key points await =>
      obtain ⟨kept, later⟩ := safe_archive safe read
      refine ⟨kept, later, ?_⟩
      simp only [act]
      split <;> trivial
  | readingDay key points archived =>
      simp only [act]
      split <;> exact ⟨safe, .refl env hub, trivial⟩
  | storingDay key row =>
      have frame : Frame hub (if input.outcome.applied then hub.setRow key row else hub) := by
        split <;> exact ⟨rfl, rfl, fun _ _ => rfl, fun _ _ => id⟩
      exact ⟨safe.frame frame, frame.later, trivial⟩

variable (env) in
theorem keeps_safe (calls : Nat → Call) :
    Keeps (act env calls) (AllRead env) (Safe env) (WaitingSafe env) where
  shared _ _ _ _ safe own read := (safe_act safe own read).1
  self _ _ _ _ safe own read := (safe_act safe own read).2.2
  others _ _ _ _ safe own read _ _ _ ownOther := ownOther.later (safe_act safe own read).2.1

end Steps

/-- What is noted of the dead letters that are there at the start. -/
def letterFacts (env : Env) (buffer : HistoryBuffer) : List Fact :=
  buffer.deadLetters.entries.map fun entry => .lettered entry.1 (timesOf env entry.1 entry.2)

theorem lettered_letterFacts {env : Env} {buffer : HistoryBuffer} {key : DayKey} {ts : Int} :
    lettered key ts (letterFacts env buffer) ↔ ts ∈ timesOf env key (buffer.deadPoints key) := by
  unfold lettered letterFacts HistoryBuffer.deadPoints
  rw [List.any_map, List.any_eq_true]
  cases found : buffer.deadLetters.get? key with
  | none =>
      constructor
      · rintro ⟨entry, member, same⟩
        simp only [Function.comp_apply, Bool.and_eq_true, decide_eq_true_eq] at same
        have some_ := OrderedMap.get?_eq_some.mpr member
        rw [same.1, found] at some_
        cases some_
      · intro member
        exact absurd member List.not_mem_nil
  | some points =>
      constructor
      · rintro ⟨entry, member, same⟩
        simp only [Function.comp_apply, Bool.and_eq_true, decide_eq_true_eq] at same
        have held := OrderedMap.get?_eq_some.mpr member
        rw [same.1, found] at held
        cases held
        rw [← same.1]
        exact List.contains_iff_mem.mp same.2
      · intro member
        refine ⟨(key, points), OrderedMap.get?_eq_some.mp found, ?_⟩
        simp only [Function.comp_apply, decide_true, Bool.true_and]
        exact List.contains_iff_mem.mpr member

/-- When every write and delete has read what it goes past, every dead-lettered time is in the dead
letter or the object of its day in every state, and no replay replaces a newer point. -/
theorem dead_letters_kept (env : Env) (calls : Nat → Call) (buffer : HistoryBuffer)
    (events : List (Nat × Input))
    (read : Runs.Along (step (act env calls)) (Allowed (AllRead env))
      (opened buffer (letterFacts env buffer)) events) :
    Kept env (Runs.run (step (act env calls)) (opened buffer (letterFacts env buffer)) events).shared := by
  have initial : Invariant (Safe env) (WaitingSafe env) (opened buffer (letterFacts env buffer)) := by
    refine ⟨⟨⟨fun key ts known => ?_, fun key ts member => ?_⟩, fun key ts member => ?_⟩,
      fun process => trivial⟩
    · exact .inr (lettered_letterFacts.mp known)
    · obtain ⟨entry, _, same⟩ := List.mem_map.mp member
      cases same
    · exact lettered_letterFacts.mpr member
  exact (run_invariant (keeps_safe env calls) initial read).shared.toKept

section Runs

private def shopDay : DayKey := (⟨"shop", by decide⟩, dayFromSec 60000 {})

private def latencyAt (checkedAt latency : ℚ) : List ProbePoint :=
  (normalizeProbePoint { checkedAt, ok := some 1, latencyMs := some latency }).toList

private def shopCalls : Nat → Call
  | 1 => .writeDeadLetterDay shopDay (latencyAt 60000 20)
  | 2 => .replayDeadLetter shopDay
  | 3 => .writeDeadLetterDay shopDay (latencyAt 61200 20)
  | _ => .memDay shopDay (latencyAt 60000 30)

/-- The call takes so many steps. -/
private def stepsOf (process count : Nat) : List (Nat × Input) :=
  List.replicate count (process, ⟨200000, .succeeded⟩)

/-- Two dead letters are written to the row, which is then replayed. -/
theorem dead_letters_kept_replayed :
    Kept {} (Runs.run (step (act {} shopCalls)) (opened .empty (letterFacts {} .empty))
      (stepsOf 1 2 ++ stepsOf 3 2 ++ stepsOf 2 9)).shared :=
  dead_letters_kept {} shopCalls .empty _ (by decide +kernel)

/-- A dead letter that is extended while it is replayed loses what it was extended by, and a replay
puts a dead letter in the place of a point that was archived after it. -/
theorem dead_letter_lost :
    ¬ Kept {} (Runs.run (step (act {} shopCalls)) (opened .empty (letterFacts {} .empty))
        (stepsOf 1 2 ++ stepsOf 2 6 ++ stepsOf 3 2 ++ stepsOf 2 3)).shared ∧
      ¬ Kept {} (Runs.run (step (act {} shopCalls)) (opened .empty (letterFacts {} .empty))
        (stepsOf 1 2 ++ stepsOf 4 9 ++ stepsOf 2 9)).shared := by
  constructor
  · intro kept
    have held := kept.held shopDay 61200 (by decide +kernel)
    revert held
    unfold KeptAt
    decide +kernel
  · intro kept
    exact kept.newer shopDay 60000 (by decide +kernel)

end Runs

end NieSla.ProbeHistory
