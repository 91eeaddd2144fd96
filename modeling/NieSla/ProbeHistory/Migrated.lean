import NieSla.ProbeHistory.Migration

/-! A former buffer that has been deleted is held by the hub, with the dead letters that the hub had,
as long as no dead letter is put over another and no day in memory goes past its limit. -/
namespace NieSla.ProbeHistory.Migration
open Processes

section Export

variable {legacy : Legacy} {day : Int} {point : ProbePoint}

theorem mem_exportDays {entries : List (Int × List ProbePoint)}
    {days : OrderedMap Int (List ProbePoint)} :
    point ∈ ((entries.foldl Legacy.exportDay days).get? day).getD [] ↔
      point ∈ (days.get? day).getD [] ∨ ∃ entry ∈ entries, entry.1 = day ∧ point ∈ entry.2 := by
  induction entries generalizing days with
  | nil => simp
  | cons entry rest ih =>
      have first : point ∈ ((Legacy.exportDay days entry).get? day).getD [] ↔
          point ∈ (days.get? day).getD [] ∨ entry.1 = day ∧ point ∈ entry.2 := by
        unfold Legacy.exportDay
        rw [OrderedMap.get?_set]
        split
        case isTrue same => simp [same]
        case isFalse other => simp [Ne.symm other]
      rw [List.foldl_cons, ih, first, or_assoc, List.exists_mem_cons_iff]

theorem mem_getD {β : Type} {map : OrderedMap Int β} {items : β → List ProbePoint} :
    point ∈ ((map.get? day).map items).getD [] ↔
      ∃ entry ∈ Legacy.listed map, entry.1 = day ∧ point ∈ items entry.2 := by
  unfold Legacy.listed
  simp only [List.mem_insertionSort]
  constructor
  · intro member
    cases found : map.get? day with
    | none => simp [found] at member
    | some value =>
        rw [found] at member
        exact ⟨(day, value), OrderedMap.get?_eq_some.mp found, rfl, member⟩
  · rintro ⟨⟨other, value⟩, entry, rfl, member⟩
    rw [OrderedMap.get?_eq_some.mpr entry]
    exact member

/-- All that a former buffer holds for a day is exported. -/
theorem mem_points : point ∈ legacy.points day ↔
    (∃ entry ∈ legacy.exportLegacyBuffers.days.entries, entry.1 = day ∧ point ∈ entry.2) ∨
      ∃ entry ∈ legacy.exportLegacyBuffers.deadLetters, entry.1 = day ∧ point ∈ entry.2 := by
  have days : (∃ entry ∈ legacy.exportLegacyBuffers.days.entries, entry.1 = day ∧ point ∈ entry.2) ↔
      point ∈ (legacy.exportLegacyBuffers.days.get? day).getD [] := by
    constructor
    · rintro ⟨⟨other, value⟩, entry, rfl, member⟩
      rw [OrderedMap.get?_eq_some.mpr entry]
      exact member
    · intro member
      cases found : legacy.exportLegacyBuffers.days.get? day with
      | none => simp [found] at member
      | some value =>
          rw [found] at member
          exact ⟨(day, value), OrderedMap.get?_eq_some.mp found, rfl, member⟩
  have mem : point ∈ (legacy.memDays.get? day).getD [] ↔
      ∃ entry ∈ legacy.memDays.entries, entry.1 = day ∧ point ∈ entry.2 := by
    have listed := @mem_getD day point _ legacy.memDays id
    unfold Legacy.listed at listed
    simp only [List.mem_insertionSort, Option.map_id, id_eq] at listed
    exact listed
  have dead : point ∈ (legacy.deadLetters.get? day).getD [] ↔
      ∃ entry ∈ legacy.exportLegacyBuffers.deadLetters, entry.1 = day ∧ point ∈ entry.2 := by
    have listed := @mem_getD day point _ legacy.deadLetters id
    rw [Option.map_id] at listed
    exact listed
  rw [days, ← dead]
  unfold Legacy.points Legacy.exportLegacyBuffers
  rw [mem_exportDays, List.mem_append, List.mem_append, mem, mem_getD]
  simp [List.mem_append, List.mem_map, or_and_right, exists_or]

end Export

section Held

variable {env : Env} {owed : DayKey → List ProbePoint} {buffer : HistoryBuffer} {key : DayKey}
  {target : TargetId} {writes : List ProbeWrite} {points more : List ProbePoint} {point : ProbePoint}

theorem among_append : Among (points ++ more) point ↔ Among points point ∨ Among more point := by
  unfold Among
  simp only [List.mem_append, or_and_right, exists_or]

theorem not_among_nil : ¬ Among [] point := fun ⟨_, member, _⟩ => absurd member List.not_mem_nil

theorem among_of_mem (member : point ∈ points) : Among points point := ⟨point, member, rfl⟩

theorem memPoints_append_single : (append env [(target, writes)] buffer).memPoints key =
    filedWith env (buffer.memPoints key) (accepted env [(target, writes)] key) :=
  memDays_appendLocal buffer.memDays (target, writes) key

/-- What comes to memory or is there is held afterwards. -/
theorem held_append (fits : DropsNothing env owed buffer target writes) (due : point ∈ owed key)
    (before : Among (accepted env [(target, writes)] key) point ∨ Held buffer key point) :
    Held (append env [(target, writes)] buffer) key point := by
  unfold Held
  rw [memPoints_append_single]
  by_cases none_ : accepted env [(target, writes)] key = []
  · rw [none_] at before
    rw [filedWith, if_pos none_]
    exact before.resolve_left not_among_nil
  · obtain ⟨first, accepted_⟩ := List.exists_mem_of_ne_nil _ none_
    obtain ⟨entry, inside, item, member, same, _⟩ := mem_accepted.mp accepted_
    rw [List.mem_singleton.mp inside] at same member
    subst same
    rcases before with new | old | stored
    · exact fits item member point due (among_append.mpr (.inr new))
    · exact fits item member point due (among_append.mpr (.inl old))
    · exact .inr stored

theorem accepted_migratedWrites (entry : Int × List ProbePoint) :
    accepted env [(target, migratedWrites entry)] (target, entry.1) =
      entry.2.map ProbePoint.settled := by
  obtain ⟨day, points⟩ := entry
  have all : incoming env (migratedWrites (day, points)) =
      points.map fun point => (day, point.settled) := by
    unfold incoming migratedWrites
    rw [List.filterMap_map]
    induction points with
    | nil => rfl
    | cons point rest ih =>
        rw [List.filterMap_cons, ih]
        simp [normalizeProbePoint_raw]
  simp [accepted, all, List.filter_map, Function.comp_def]

theorem among_migrated {entry : Int × List ProbePoint} (member : point ∈ entry.2) :
    Among (accepted env [(target, migratedWrites entry)] (target, entry.1)) point := by
  rw [accepted_migratedWrites]
  exact ⟨point.settled, List.mem_map_of_mem member, settled_settled point⟩

end Held

/-! What holds of the hub and of a waiting call; `buffer` and `legacy` are what there was at first. -/

structure Safe (buffer : HistoryBuffer) (legacy : TargetId → Legacy) (hub : Hub) : Prop where
  letters : ∀ key, ∀ point ∈ buffer.deadPoints key, Held hub.buffer key point
  kept : ∀ target ∉ hub.deleted, hub.legacy target = legacy target
  gone : ∀ key, key.1 ∈ hub.deleted → ∀ point ∈ (legacy key.1).points key.2, Held hub.buffer key point

/-- The points of a day are held. -/
def DayHeld (buffer : HistoryBuffer) (target : TargetId) (entry : Int × List ProbePoint) : Prop :=
  ∀ point ∈ entry.2, Held buffer (target, entry.1) point

/-- The days that the loop is through with are held. -/
def Through (buffer : HistoryBuffer) (target : TargetId) (all left : List (Int × List ProbePoint)) :
    Prop :=
  left ⊆ all ∧ ∀ entry ∈ all, entry ∈ left ∨ DayHeld buffer target entry

def AwaitSafe (legacy : Legacy) (buffer : HistoryBuffer) (target : TargetId) : Await → Prop
  | .json exported => exported = legacy.exportLegacyBuffers
  | .days left deadLetters =>
      deadLetters = legacy.exportLegacyBuffers.deadLetters ∧
        Through buffer target legacy.exportLegacyBuffers.days.entries left
  | .deadLetters left =>
      Through buffer target legacy.exportLegacyBuffers.days.entries [] ∧
        Through buffer target legacy.exportLegacyBuffers.deadLetters left
  | .delete => ∀ day, ∀ point ∈ legacy.points day, Held buffer (target, day) point
  | .flag | .fetchExport | .putFlag => True

def WaitingSafe (legacy : TargetId → Legacy) (_ : Nat) (hub : Hub) : Waiting → Prop
  | .ensuring target await _ =>
      target ∈ hub.deleted ∨ AwaitSafe (legacy target) hub.buffer target await
  | _ => True

/-- What a step keeps for every call. -/
structure Later (owed : DayKey → List ProbePoint) (hub next : Hub) : Prop where
  held : ∀ key, ∀ point ∈ owed key, Held hub.buffer key point → Held next.buffer key point
  deleted : hub.deleted ⊆ next.deleted

section Steps

variable {env : Env} {first : HistoryBuffer} {legacy : TargetId → Legacy} {hub next : Hub}
  {target : TargetId} {outcome : Outcome} {await : Await} {all left : List (Int × List ProbePoint)}

theorem owed_of_legacy {key : DayKey} {point : ProbePoint}
    (member : point ∈ (legacy key.1).points key.2) : point ∈ owed first legacy key :=
  List.mem_append_left _ member

theorem owed_of_days : ∀ entry ∈ (legacy target).exportLegacyBuffers.days.entries,
    ∀ point ∈ entry.2, point ∈ owed first legacy (target, entry.1) :=
  fun entry listed _ member =>
    owed_of_legacy (mem_points.mpr (.inl ⟨entry, listed, rfl, member⟩))

theorem owed_of_deadLetters : ∀ entry ∈ (legacy target).exportLegacyBuffers.deadLetters,
    ∀ point ∈ entry.2, point ∈ owed first legacy (target, entry.1) :=
  fun entry listed _ member =>
    owed_of_legacy (mem_points.mpr (.inr ⟨entry, listed, rfl, member⟩))

theorem Later.refl (owed : DayKey → List ProbePoint) (hub : Hub) : Later owed hub hub :=
  ⟨fun _ _ _ => id, List.Subset.refl _⟩

theorem Through.later (through : Through hub.buffer target all left)
    (due : ∀ entry ∈ all, ∀ point ∈ entry.2, point ∈ owed first legacy (target, entry.1))
    (later : Later (owed first legacy) hub next) : Through next.buffer target all left := by
  refine ⟨through.1, fun entry listed => (through.2 entry listed).imp_right fun held => ?_⟩
  intro point member
  exact later.held _ point (due entry listed point member) (held point member)

theorem AwaitSafe.later (safe : AwaitSafe (legacy target) hub.buffer target await)
    (later : Later (owed first legacy) hub next) :
    AwaitSafe (legacy target) next.buffer target await := by
  cases await with
  | json exported => exact safe
  | days left deadLetters => exact ⟨safe.1, safe.2.later owed_of_days later⟩
  | deadLetters left =>
      exact ⟨safe.1.later owed_of_days later,
        safe.2.later owed_of_deadLetters later⟩
  | delete =>
      intro day point member
      exact later.held (target, day) point (owed_of_legacy member) (safe day point member)
  | _ => trivial

theorem WaitingSafe.later {process : Nat} {waiting : Waiting}
    (safe : WaitingSafe legacy process hub waiting) (later : Later (owed first legacy) hub next) :
    WaitingSafe legacy process next waiting := by
  cases waiting with
  | ensuring target await entries =>
      exact safe.imp (fun gone => later.deleted gone) fun own => own.later later
  | _ => trivial

/-- The next day of a loop is held. -/
theorem Through.tail {buffer : HistoryBuffer} {entry : Int × List ProbePoint}
    (through : Through buffer target all (entry :: left)) (held : DayHeld buffer target entry) :
    Through buffer target all left := by
  obtain ⟨listed, cover⟩ := through
  refine ⟨fun _ rest => listed (List.mem_cons_of_mem _ rest), fun other member => ?_⟩
  rcases cover other member with inside | held
  · rcases List.mem_cons.mp inside with same | rest
    · subst same
      exact .inr held
    · exact .inl rest
  · exact .inr held

/-- Nothing of the buffer, the former buffers and the deleted ones changes. -/
theorem Safe.keep (safe : Safe first legacy hub)
    (later : Later (owed first legacy) hub next) (same : next.legacy = hub.legacy)
    (deleted : next.deleted = hub.deleted) : Safe first legacy next := by
  constructor
  · intro key point member
    exact later.held key point (List.mem_append_right _ member) (safe.letters key point member)
  · rw [same, deleted]
    exact safe.kept
  · rw [deleted]
    intro key gone point member
    exact later.held key point (owed_of_legacy member) (safe.gone key gone point member)

theorem later_append {writes : List ProbeWrite}
    (fits : DropsNothing env (owed first legacy) hub.buffer target writes) :
    Later (owed first legacy) hub (hub.appendLocal env target writes) :=
  ⟨fun _ _ due held => held_append fits due (.inr held), List.Subset.refl _⟩

theorem held_setLetter {key other : DayKey} {points : List ProbePoint} {point : ProbePoint}
    (covers : PutsOverNothing (owed first legacy) hub.buffer key points)
    (due : point ∈ owed first legacy other) (held : Held hub.buffer other point) :
    Held (hub.setLetter key points).buffer other point := by
  have letters : (hub.setLetter key points).buffer.deadPoints other =
      if other = key then points else hub.buffer.deadPoints other := by
    unfold HistoryBuffer.deadPoints Hub.setLetter
    rw [OrderedMap.get?_set]
    split <;> rfl
  unfold Held
  rw [letters]
  split
  case isTrue same =>
    subst same
    rcases held with mem | stored
    · exact .inl mem
    · rcases among_append.mp stored with elsewhere | dead
      · exact .inr (among_append.mpr (.inl elsewhere))
      · exact covers point due dead
  case isFalse => exact held

theorem later_setLetter {key : DayKey} {points : List ProbePoint}
    (covers : PutsOverNothing (owed first legacy) hub.buffer key points) :
    Later (owed first legacy) hub (hub.setLetter key points) :=
  ⟨fun _ _ due held => held_setLetter covers due held, List.Subset.refl _⟩

theorem safe_delete (safe : Safe first legacy hub)
    (all : ∀ day, ∀ point ∈ (legacy target).points day, Held hub.buffer (target, day) point) :
    Safe first legacy (hub.delete target) := by
  constructor
  · exact safe.letters
  · intro other left
    have different : other ≠ target := fun same => left (same ▸ List.mem_cons_self)
    have before : other ∉ hub.deleted := fun gone => left (List.mem_cons_of_mem _ gone)
    exact (Function.update_of_ne different _ _).trans (safe.kept other before)
  · intro key gone point member
    rcases List.mem_cons.mp gone with same | before
    · obtain ⟨owner, day⟩ := key
      change owner = target at same
      subst same
      exact all day point member
    · exact safe.gone key before point member

/-- A step of the migration. -/
theorem safe_migrate {process : Nat} {entries : List (TargetId × List ProbeWrite)}
    (safe : Safe first legacy hub)
    (own : target ∈ hub.deleted ∨ AwaitSafe (legacy target) hub.buffer target await)
    (guard : KeepsOwed env (owed first legacy) process hub (.ensuring target await entries) outcome) :
    let next := migrate env target outcome hub await
    Safe first legacy next.1 ∧ Later (owed first legacy) hub next.1 ∧
      ∀ following ∈ next.2,
        target ∈ next.1.deleted ∨ AwaitSafe (legacy target) next.1.buffer target following := by
  have stay : Safe first legacy hub ∧ Later (owed first legacy) hub hub := ⟨safe, .refl _ hub⟩
  cases await with
  | flag =>
      cases outcome with
      | failed applied => exact ⟨safe, .refl _ hub, fun _ next => by cases next; exact .inr trivial⟩
      | succeeded =>
          simp only [migrate]
          split
          · exact ⟨⟨safe.letters, safe.kept, safe.gone⟩, ⟨fun _ _ _ => id, List.Subset.refl _⟩, nofun⟩
          · exact ⟨safe, .refl _ hub, fun _ next => by cases next; exact .inr trivial⟩
  | fetchExport =>
      cases outcome with
      | failed applied => exact ⟨safe, .refl _ hub, nofun⟩
      | succeeded =>
          refine ⟨safe, .refl _ hub, ?_⟩
          rintro _ ⟨⟩
          by_cases gone : target ∈ hub.deleted
          · exact .inl gone
          · exact .inr (congrArg Legacy.exportLegacyBuffers (safe.kept target gone))
  | json exported =>
      cases outcome with
      | failed applied => exact ⟨safe, .refl _ hub, nofun⟩
      | succeeded =>
          refine ⟨safe, .refl _ hub, ?_⟩
          rintro _ ⟨⟩
          apply own.imp_right
          rintro rfl
          exact ⟨rfl, List.Subset.refl _, fun _ => .inl⟩
  | days left deadLetters =>
      cases left with
      | nil =>
          refine ⟨safe, .refl _ hub, ?_⟩
          rintro _ ⟨⟩
          apply own.imp_right
          rintro ⟨rfl, through⟩
          exact ⟨through, List.Subset.refl _, fun _ => .inl⟩
      | cons entry left =>
          simp only [migrate]
          split
          case isTrue nothing =>
            refine ⟨safe, .refl _ hub, ?_⟩
            rintro _ ⟨⟩
            apply own.imp_right
            rintro ⟨same, through⟩
            refine ⟨same, through.tail fun point member => ?_⟩
            rw [nothing] at member
            exact absurd member List.not_mem_nil
          case isFalse =>
            have later := later_append guard
            refine ⟨safe.keep later rfl rfl, later, ?_⟩
            rintro _ ⟨⟩
            apply own.imp_right
            rintro ⟨same, through⟩
            refine ⟨same, (through.later owed_of_days later).tail fun point member => ?_⟩
            exact held_append guard (owed_of_days entry (through.1 List.mem_cons_self) point member)
              (.inl (among_migrated member))
  | deadLetters left =>
      cases left with
      | nil =>
          refine ⟨safe, .refl _ hub, ?_⟩
          rintro _ ⟨⟩
          apply own.imp_right
          rintro ⟨days, letters⟩ day point member
          rcases mem_points.mp member with ⟨entry, listed, rfl, inside⟩ | ⟨entry, listed, rfl, inside⟩
          · exact (days.2 entry listed).resolve_left List.not_mem_nil point inside
          · exact (letters.2 entry listed).resolve_left List.not_mem_nil point inside
      | cons entry left =>
          have later : Later (owed first legacy) hub
              (if outcome.applied then hub.setLetter (target, entry.1) entry.2 else hub) := by
            split
            case isTrue applied => exact later_setLetter (guard applied)
            case isFalse => exact .refl _ hub
          refine ⟨?_, later, ?_⟩
          · apply safe.keep later
            · split <;> rfl
            · split <;> rfl
          · cases outcome with
            | failed applied => exact nofun
            | succeeded =>
                rintro _ ⟨⟩
                apply own.imp_right
                rintro ⟨days, letters⟩
                refine ⟨days.later owed_of_days later,
                  (letters.later owed_of_deadLetters later).tail fun point member => .inr ?_⟩
                apply among_append.mpr
                right
                have put : (hub.setLetter (target, entry.1) entry.2).buffer.deadPoints
                    (target, entry.1) = entry.2 := by
                  unfold HistoryBuffer.deadPoints Hub.setLetter
                  rw [OrderedMap.get?_set_self]
                  rfl
                apply among_of_mem
                exact put.symm ▸ member
  | delete =>
      have all : ∀ day, ∀ point ∈ (legacy target).points day, Held hub.buffer (target, day) point := by
        intro day point member
        rcases own with gone | held
        · exact safe.gone (target, day) gone point member
        · exact held day point member
      simp only [migrate]
      split
      · refine ⟨safe_delete safe all, ⟨fun _ _ _ => id, List.subset_cons_self _ _⟩, ?_⟩
        rintro _ ⟨⟩
        exact .inr trivial
      · refine ⟨safe, .refl _ hub, ?_⟩
        rintro _ ⟨⟩
        exact .inr trivial
  | putFlag =>
      exact ⟨⟨safe.letters, safe.kept, safe.gone⟩, ⟨fun _ _ _ => id, List.Subset.refl _⟩, nofun⟩

theorem waitingSafe_ensure {process : Nat} (target : TargetId)
    (entries : List (TargetId × List ProbeWrite)) :
    WaitingSafe legacy process hub (ensureLegacyBufferMigrated target entries hub) := by
  unfold ensureLegacyBufferMigrated
  split
  · trivial
  · exact .inr trivial

theorem safe_act {calls : Nat → Call} {process : Nat} {waiting : Waiting}
    (safe : Safe first legacy hub) (own : WaitingSafe legacy process hub waiting)
    (guard : KeepsOwed env (owed first legacy) process hub waiting outcome) :
    let next := act env calls process hub waiting outcome
    Safe first legacy next.1 ∧ Later (owed first legacy) hub next.1 ∧
      WaitingSafe legacy process next.1 next.2 := by
  cases waiting with
  | idle =>
      refine ⟨safe, .refl _ hub, ?_⟩
      simp only [act]
      cases calls process with
      | append entries => trivial
      | read target => exact waitingSafe_ensure target []
  | returned => exact ⟨safe, .refl _ hub, trivial⟩
  | appending entries =>
      cases entries with
      | nil => exact ⟨safe, .refl _ hub, trivial⟩
      | cons entry rest =>
          refine ⟨safe, .refl _ hub, ?_⟩
          simp only [act]
          split
          · trivial
          · exact waitingSafe_ensure entry.1 (entry :: rest)
  | ensuring target await entries =>
      obtain ⟨kept, later, following⟩ := safe_migrate safe own guard
      refine ⟨kept, later, ?_⟩
      simp only [act]
      split
      case h_1 next waits => exact following next waits
      case h_2 => trivial
  | ensured entries =>
      cases entries with
      | nil => exact ⟨safe, .refl _ hub, trivial⟩
      | cons entry rest =>
          have later := later_append guard
          exact ⟨safe.keep later rfl rfl, later, trivial⟩

variable (env first legacy) in
theorem keeps_safe (calls : Nat → Call) :
    Keeps (act env calls) (KeepsOwed env (owed first legacy)) (Safe first legacy)
      (WaitingSafe legacy) where
  shared _ _ _ _ safe own guard := (safe_act safe own guard).1
  self _ _ _ _ safe own guard := (safe_act safe own guard).2.2
  others _ _ _ _ safe own guard _ _ _ ownOther := ownOther.later (safe_act safe own guard).2.1

end Steps

/-- When no step goes past an owed point, all that a deleted buffer held and all dead letters that the
hub had are held by the hub. -/
theorem migration_loses_nothing (env : Env) (calls : Nat → Call) (buffer : HistoryBuffer)
    (legacy : TargetId → Legacy) (flags migratedTargets : List TargetId)
    (events : List (Nat × Outcome))
    (keeps : Runs.Along (step (act env calls)) (Allowed (KeepsOwed env (owed buffer legacy)))
      (opened buffer legacy flags migratedTargets) events) (key : DayKey) :
    let hub := (Runs.run (step (act env calls)) (opened buffer legacy flags migratedTargets)
      events).shared
    key.1 ∈ hub.deleted → ∀ point ∈ owed buffer legacy key, Held hub.buffer key point := by
  intro hub gone point member
  have initial : Invariant (Safe buffer legacy) (WaitingSafe legacy)
      (opened buffer legacy flags migratedTargets) := by
    refine ⟨⟨fun key point member => ?_, fun _ _ => rfl, nofun⟩, fun process => trivial⟩
    exact .inr (among_append.mpr (.inr (among_of_mem member)))
  have safe := (run_invariant (keeps_safe env buffer legacy calls) initial keeps).shared
  rcases List.mem_append.mp member with held | letter
  · exact safe.gone key gone point held
  · exact safe.letters key point letter

section Runs

private def mail : TargetId := ⟨"mail", by decide⟩

private def checkedPoints (checkedAt : ℚ) : List ProbePoint :=
  (normalizeProbePoint { checkedAt, ok := some 1 }).toList

/-- The hub has a dead letter of day 0. -/
private def letteredHub : HistoryBuffer :=
  { HistoryBuffer.empty with deadLetters := OrderedMap.empty.set (mail, 0) (checkedPoints 60000) }

/-- The former buffer has a row and memory of day 0 and a dead letter of the given day. -/
private def former (day : Int) : TargetId → Legacy := fun _ =>
  ⟨OrderedMap.empty.set 0 ⟨checkedPoints 60300, none, 0⟩, OrderedMap.empty.set 0 (checkedPoints 60600),
    OrderedMap.empty.set day (checkedPoints 61200)⟩

private def appendOrRead : Nat → Call
  | 0 => .append [(mail, [⟨none, { checkedAt := 61500, ok := some 1 }⟩])]
  | _ => .read mail

/-- The dead letter cannot be put the first time; the read tries again. -/
private def putFails : List (Nat × Outcome) :=
  List.replicate 7 (0, .succeeded) ++ [(0, .failed false), (0, .succeeded)] ++
    List.replicate 11 (1, .succeeded)

theorem migration_loses_nothing_retried :
    let hub := (Runs.run (step (act {} appendOrRead)) (opened letteredHub (former 1) [] [])
      putFails).shared
    mail ∈ hub.deleted ∧ ∀ point ∈ owed letteredHub (former 1) (mail, 0), Held hub.buffer (mail, 0) point :=
  have gone : mail ∈ (Runs.run (step (act {} appendOrRead)) (opened letteredHub (former 1) [] [])
      putFails).shared.deleted := by decide +kernel
  ⟨gone, migration_loses_nothing {} appendOrRead letteredHub (former 1) [] [] putFails
    (by decide +kernel) (mail, 0) gone⟩

/-- The dead letter of the former buffer is put over the one that the hub has for the day. -/
theorem dead_letter_put_over :
    let hub := (Runs.run (step (act {} appendOrRead)) (opened letteredHub (former 0) [] [])
      (List.replicate 11 (1, .succeeded))).shared
    mail ∈ hub.deleted ∧
      ¬ ∀ point ∈ owed letteredHub (former 0) (mail, 0), Held hub.buffer (mail, 0) point := by
  decide +kernel

end Runs

end NieSla.ProbeHistory.Migration
