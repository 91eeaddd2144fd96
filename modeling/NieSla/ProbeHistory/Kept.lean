import NieSla.ProbeHistory.Buffer

/-! Memory, the row of a day and the R2 object hold together what has been filed for the day,
and the operations keep it so, as long as no alarm replaces a row that is not archived by points
that lack some of the row's times. -/
namespace NieSla.ProbeHistory

/-! Appends. -/

/-- The points of an append that are accepted for a day of a target. -/
def accepted (env : Env) (body : List (TargetId × List ProbeWrite)) (key : DayKey) :
    List ProbePoint :=
  body.flatMap fun entry =>
    if entry.1 = key.1 then
      ((incoming env entry.2).filter fun item => item.1 = key.2).map Prod.snd
    else []

section Append

variable {env : Env}

private theorem accepted_cons (entry : TargetId × List ProbeWrite)
    (rest : List (TargetId × List ProbeWrite)) (key : DayKey) :
    accepted env (entry :: rest) key = accepted env [entry] key ++ accepted env rest key := by
  simp [accepted]

theorem mem_accepted {body : List (TargetId × List ProbeWrite)} {key : DayKey}
    {point : ProbePoint} :
    point ∈ accepted env body key ↔
      ∃ entry ∈ body, ∃ item ∈ incoming env entry.2, (entry.1, item.1) = key ∧ item.2 = point := by
  unfold accepted
  rw [List.mem_flatMap]
  apply exists_congr
  intro entry
  apply and_congr_right
  intro _
  by_cases own : entry.1 = key.1
  · rw [if_pos own, List.mem_map]
    simp only [List.mem_filter, decide_eq_true_eq, Prod.ext_iff, own, true_and, and_assoc]
  · simp [own, Prod.ext_iff]

/-- The points of a day in memory after more have come, the oldest above the limit dropped. -/
def filedWith (env : Env) (old added : List ProbePoint) : List ProbePoint :=
  if added = [] then old else (old ++ added).drop ((old ++ added).length - maxMemPoints env)

/-- Memory gets the points that are accepted for the day. -/
theorem memDays_appendLocal (memDays : OrderedMap DayKey (List ProbePoint))
    (entry : TargetId × List ProbeWrite) (key : DayKey) :
    ((appendLocal env memDays entry).get? key).getD [] =
      filedWith env ((memDays.get? key).getD []) (accepted env [entry] key) := by
  obtain ⟨target, writes⟩ := entry
  obtain ⟨owner, day⟩ := key
  unfold appendLocal
  by_cases own : target = owner
  · subst own
    have added : accepted env [(target, writes)] (target, day) =
        ((incoming env writes).filter fun item => item.1 = day).map Prod.snd := by
      simp [accepted]
    have filed := (OrderedMap.group Prod.fst (incoming env writes)).foldl_entries_at
      (appendDay env target) (fun (memDays : OrderedMap DayKey (List ProbePoint)) day =>
        (memDays.get? (target, day)).getD [])
      (fun _ items old =>
        let merged := old ++ items.map Prod.snd
        merged.drop (merged.length - maxMemPoints env))
      (fun state item => by simp [appendDay])
      (fun state item other different => by
        have apart : (target, other) ≠ (target, item.1) := by simp [different]
        simp only [appendDay, OrderedMap.get?_set_of_ne _ _ apart])
      memDays day
    rw [filed, OrderedMap.get?_group, added]
    unfold filedWith
    split
    · rename_i nothing
      rw [nothing, List.map_nil, if_pos rfl]
      rfl
    · rename_i some_
      rw [if_neg (some_ ∘ List.map_eq_nil_iff.mp)]
      rfl
  · have added : accepted env [(target, writes)] (owner, day) = [] := by
      simp [accepted, own]
    have filed := (OrderedMap.group Prod.fst (incoming env writes)).foldl_entries_at
      (appendDay env target) (fun (memDays : OrderedMap DayKey (List ProbePoint)) (_ : Int) =>
        memDays.get? (owner, day))
      (fun _ _ old => old)
      (fun state item => by
        have apart : (owner, day) ≠ (target, item.1) := by simp [Ne.symm own]
        simp only [appendDay, OrderedMap.get?_set_of_ne _ _ apart])
      (fun state item _ _ => by
        have apart : (owner, day) ≠ (target, item.1) := by simp [Ne.symm own]
        simp only [appendDay, OrderedMap.get?_set_of_ne _ _ apart])
      memDays day
    rw [filed, added, filedWith, if_pos rfl]
    cases (OrderedMap.group Prod.fst (incoming env writes)).get? day <;> rfl

/-- Below the limit nothing is dropped. -/
theorem filedWith_of_fits {old added : List ProbePoint}
    (fits : added ≠ [] → (old ++ added).length ≤ maxMemPoints env) :
    filedWith env old added = old ++ added := by
  unfold filedWith
  split
  case isTrue nothing => rw [nothing, List.append_nil]
  case isFalse some_ => rw [Nat.sub_eq_zero_of_le (fits some_), List.drop_zero]

theorem memPoints_append {body : List (TargetId × List ProbeWrite)} {buffer : HistoryBuffer}
    {key : DayKey}
    (fits : accepted env body key ≠ [] →
      (buffer.memPoints key ++ accepted env body key).length ≤ maxMemPoints env) :
    (append env body buffer).memPoints key = buffer.memPoints key ++ accepted env body key := by
  unfold append HistoryBuffer.memPoints at *
  dsimp only at *
  generalize buffer.memDays = memDays at *
  induction body generalizing memDays with
  | nil => simp [accepted]
  | cons entry rest ih =>
      rw [accepted_cons, ← List.append_assoc] at fits
      have first : accepted env [entry] key ≠ [] →
          ((memDays.get? key).getD [] ++ accepted env [entry] key).length ≤
            maxMemPoints env := by
        intro some_
        have whole := fits (by simp [some_])
        rw [List.length_append] at whole
        omega
      have grown := (memDays_appendLocal memDays entry key).trans (filedWith_of_fits first)
      rw [List.foldl_cons, ih, grown, List.append_assoc, accepted_cons entry rest]
      intro some_
      rw [grown]
      exact fits (by simp [some_])

end Append

/-! One day of one target. -/

def pointsOf (row : Option DayRow) : List ProbePoint := (row.map DayRow.points).getD []

/-- The row, the object and the memory of a day hold the points that were filed for it. -/
structure DayKept (env : Env) (buckets : Finset Int) (clock day : Int) (row : Option DayRow)
    (object : Option (List ProbePoint)) (mem filed : List ProbePoint) : Prop where
  view : ∀ ts, bucketAt env day (object.getD [] ++ pointsOf row ++ mem) ts =
    bucketAt env day filed ts
  archived : ∀ stored ∈ row, stored.archivedAt.isSome → object.isSome ∧ ∀ ts point,
    bucketAt env day stored.points ts = some point →
      bucketAt env day (object.getD []) ts = some point
  finished : object.isSome → env.archiveBound = true ∧ day < dayFromSec clock env ∧
    ∀ stored ∈ row, stored.archivedAt.isSome
  objectWithin : Within env day buckets (object.getD [])
  rowWithin : Within env day buckets (pointsOf row)
  memWithin : Within env day buckets mem

section Day

variable {env : Env} {buckets : Finset Int} {clock now day : Int} {row : Option DayRow}
  {stored : DayRow} {object : Option (List ProbePoint)} {mem filed added : List ProbePoint}

theorem DayKept.later (kept : DayKept env buckets clock day row object mem filed)
    (forward : clock ≤ now) : DayKept env buckets now day row object mem filed := by
  refine ⟨kept.view, kept.archived, fun some_ => ?_, kept.objectWithin, kept.rowWithin,
    kept.memWithin⟩
  obtain ⟨bound, before, archived⟩ := kept.finished some_
  exact ⟨bound, before.trans_le (dayFromSec_mono env forward), archived⟩

theorem DayKept.append (kept : DayKept env buckets clock day row object mem filed)
    (within : Within env day buckets added) :
    DayKept env buckets clock day row object (mem ++ added) (filed ++ added) := by
  refine ⟨fun ts => ?_, kept.archived, kept.finished, kept.objectWithin, kept.rowWithin,
    within_append.mpr ⟨kept.memWithin, within⟩⟩
  rw [← List.append_assoc, bucketAt_append, kept.view, ← bucketAt_append]

/-- Memory is merged into the row of a day that is not archived. -/
theorem DayKept.merge (few : buckets.card ≤ maxDayPoints env)
    (kept : DayKept env buckets clock day row object mem filed)
    (open_ : ¬ (day < dayFromSec clock env ∧ env.archiveBound = true)) :
    DayKept env buckets clock day (some ⟨mergeDay env day (pointsOf row) mem, none, 0⟩) object []
      filed := by
  have nothing : object = none := by
    cases object with
    | none => rfl
    | some points =>
        obtain ⟨bound, before, _⟩ := kept.finished rfl
        exact absurd ⟨before, bound⟩ open_
  subst nothing
  constructor
  · intro ts
    rw [← kept.view ts, List.append_nil]
    simp only [Option.getD_none, List.nil_append]
    exact bucketAt_mergeDay kept.rowWithin kept.memWithin few ts
  · rintro _ ⟨⟩ ⟨⟩
  · rintro ⟨⟩
  · exact kept.objectWithin
  · exact within_mergeDay kept.rowWithin kept.memWithin
  · exact within_nil _ _ _

/-- Memory is archived and replaces the row. -/
theorem DayKept.archiveMem (few : buckets.card ≤ maxDayPoints env)
    (kept : DayKept env buckets clock day row object mem filed)
    (past : day < dayFromSec clock env ∧ env.archiveBound = true)
    (replaces : ∀ stored ∈ row, stored.archivedAt = none → ∀ old ∈ stored.points,
      ∃ point ∈ mem, point.checkedAt = old.checkedAt) :
    DayKept env buckets clock day (some ⟨mem, some now, 0⟩)
      (some (mergeDay env day (object.getD []) mem)) [] filed := by
  have merged := bucketAt_mergeDay kept.objectWithin kept.memWithin few
  constructor
  · intro ts
    rw [← kept.view ts]
    simp only [pointsOf, Option.map_some, Option.getD_some, List.append_nil, bucketAt_append,
      merged]
    cases new : bucketAt env day mem ts with
    | some point => rfl
    | none =>
        -- only the row could still know this time
        cases old : bucketAt env day (pointsOf row) ts with
        | none => simp only [pointsOf] at old; simp [old]
        | some point =>
            cases row with
            | none => cases old
            | some stored =>
                cases mark : stored.archivedAt with
                | some archivedAt =>
                    have known := (kept.archived stored rfl (by simp [mark])).2 ts point old
                    change bucketAt env day stored.points ts = some point at old
                    simp [known, old]
                | none =>
                    change bucketAt env day stored.points ts = some point at old
                    obtain ⟨first, inside, same⟩ := mem_of_bucketAt old
                    have time : first.checkedAt = ts :=
                      (congrArg ProbePoint.checkedAt same).trans (checkedAt_of_bucketAt old)
                    obtain ⟨newer, member, again⟩ := replaces stored rfl mark first inside
                    have replaced := @bucketAt_ne_none env _ _ _ member
                      (again ▸ time ▸ day_of_bucketAt old)
                    rw [again, time] at replaced
                    exact absurd new replaced
  · rintro _ ⟨⟩ _
    refine ⟨rfl, fun ts point known => ?_⟩
    rw [Option.getD_some, merged, bucketAt_append, known, Option.some_or]
  · rintro _
    refine ⟨past.2, past.1, ?_⟩
    rintro _ ⟨⟩
    rfl
  · exact within_mergeDay kept.objectWithin kept.memWithin
  · exact kept.memWithin
  · exact within_nil _ _ _

/-- A row of a finished day is archived. -/
theorem DayKept.archiveRow (few : buckets.card ≤ maxDayPoints env)
    (kept : DayKept env buckets clock day (some stored) object mem filed)
    (past : day < dayFromSec clock env ∧ env.archiveBound = true)
    (unarchived : stored.archivedAt = none) (fails : Nat) :
    DayKept env buckets clock day (some ⟨stored.points, some now, fails⟩)
      (some (mergeDay env day (object.getD []) stored.points)) mem filed := by
  have nothing : object = none := by
    cases object with
    | none => rfl
    | some points =>
        have marked := (kept.finished rfl).2.2 stored rfl
        rw [unarchived] at marked
        cases marked
  subst nothing
  have merged := bucketAt_mergeDay kept.objectWithin kept.rowWithin few
  simp only [pointsOf, Option.map_some, Option.getD_some, Option.getD_none] at merged
  constructor
  · intro ts
    rw [← kept.view ts]
    simp only [pointsOf, Option.map_some, Option.getD_some, Option.getD_none, bucketAt_append,
      merged, bucketAt_nil, Option.or_none, Option.or_self]
  · rintro _ ⟨⟩ _
    refine ⟨rfl, fun ts point known => ?_⟩
    rw [Option.getD_some, Option.getD_none, merged, List.nil_append]
    exact known
  · rintro _
    refine ⟨past.2, past.1, ?_⟩
    rintro _ ⟨⟩
    rfl
  · exact within_mergeDay kept.objectWithin kept.rowWithin
  · exact kept.rowWithin
  · exact kept.memWithin

/-- An archived row may go. -/
theorem DayKept.eraseRow (kept : DayKept env buckets clock day (some stored) object mem filed)
    (archived : stored.archivedAt.isSome = true) :
    DayKept env buckets clock day none object mem filed := by
  constructor
  · intro ts
    rw [← kept.view ts]
    simp only [pointsOf, Option.map_none, Option.getD_none, Option.map_some, Option.getD_some,
      List.append_nil, bucketAt_append]
    cases old : bucketAt env day stored.points ts with
    | none => simp
    | some point =>
        have known := (kept.archived stored rfl archived).2 ts point old
        simp [known]
  · rintro _ ⟨⟩
  · intro some_
    obtain ⟨bound, before, _⟩ := kept.finished some_
    exact ⟨bound, before, nofun⟩
  · exact kept.objectWithin
  · exact within_nil _ _ _
  · exact kept.memWithin

end Day

/-! The whole buffer. -/

/-- Every day of every target is kept. -/
structure BufferKept (env : Env) (buckets : DayKey → Finset Int) (clock : Int)
    (filed : DayKey → List ProbePoint) (buffer : HistoryBuffer) : Prop where
  days : ∀ key, DayKept env (buckets key) clock key.2 (buffer.rows.get? key)
    (buffer.objects.get? key) (buffer.memPoints key) (filed key)
  dead : buffer.deadLetters = .empty

section Buffer

variable {env : Env} {buckets : DayKey → Finset Int} {clock now : Int}
  {filed : DayKey → List ProbePoint} {buffer : HistoryBuffer}

private theorem pointsOf_get? (buffer : HistoryBuffer) (key : DayKey) :
    buffer.rowPoints key = pointsOf (buffer.rows.get? key) := rfl

/-- What `flushMemDays` makes of a day. -/
theorem flushMemDays_at (env : Env) (now : Int) (buffer : HistoryBuffer) (key : DayKey) :
    let flushed := flushMemDays env now buffer
    (flushed.rows.get? key, flushed.objects.get? key) =
      ((buffer.memDays.get? key).map fun points =>
        if key.2 < dayFromSec now env ∧ env.archiveBound = true then
          (some ⟨points, some now, 0⟩,
            some (mergeDay env key.2 (buffer.objectPoints key) points))
        else (some ⟨mergeDay env key.2 (buffer.rowPoints key) points, none, 0⟩,
          buffer.objects.get? key)).getD (buffer.rows.get? key, buffer.objects.get? key) := by
  apply buffer.memDays.foldl_entries_at (flushMemDay env now)
    (fun (buffer : HistoryBuffer) key => (buffer.rows.get? key, buffer.objects.get? key))
    (fun key points day =>
      if key.2 < dayFromSec now env ∧ env.archiveBound = true then
        (some ⟨points, some now, 0⟩, some (mergeDay env key.2 (day.2.getD []) points))
      else (some ⟨mergeDay env key.2 (pointsOf day.1) points, none, 0⟩, day.2))
  · intro state entry
    simp only [flushMemDay, mergeArchiveDay]
    split
    · simp only [OrderedMap.get?_set_self]
      rfl
    · simp only [OrderedMap.get?_set_self]
      rfl
  · intro state entry other different
    simp only [flushMemDay, mergeArchiveDay]
    split
    · simp only [OrderedMap.get?_set_of_ne _ _ different]
    · simp only [OrderedMap.get?_set_of_ne _ _ different]

theorem deadLetters_flushMemDays (env : Env) (now : Int) (buffer : HistoryBuffer) :
    (flushMemDays env now buffer).deadLetters = buffer.deadLetters := by
  unfold flushMemDays
  dsimp only
  generalize buffer.memDays.entries = entries
  induction entries generalizing buffer with
  | nil => rfl
  | cons entry rest ih =>
      rw [List.foldl_cons, ih]
      simp only [flushMemDay, mergeArchiveDay]
      split <;> rfl

theorem kept_flushMemDays (few : ∀ key, (buckets key).card ≤ maxDayPoints env)
    (kept : BufferKept env buckets now filed buffer)
    (replaces : ∀ entry ∈ buffer.memDays.entries,
      entry.1.2 < dayFromSec now env → env.archiveBound = true →
        ∀ row ∈ buffer.rows.get? entry.1, row.archivedAt = none →
          ∀ stored ∈ row.points, ∃ point ∈ entry.2, point.checkedAt = stored.checkedAt) :
    BufferKept env buckets now filed (flushMemDays env now buffer) := by
  refine ⟨fun key => ?_, (deadLetters_flushMemDays env now buffer).trans kept.dead⟩
  have flushed := flushMemDays_at env now buffer key
  have day := kept.days key
  change DayKept env (buckets key) now key.2 _ _ [] _
  unfold HistoryBuffer.memPoints at day
  cases found : buffer.memDays.get? key with
  | none =>
      rw [found] at flushed day
      obtain ⟨row, object⟩ := Prod.mk.inj flushed
      rw [row, object]
      exact day
  | some points =>
      rw [found] at flushed day
      rw [Option.getD_some] at day
      simp only [Option.map_some, Option.getD_some] at flushed
      split at flushed
      · rename_i past
        obtain ⟨row, object⟩ := Prod.mk.inj flushed
        rw [row, object]
        exact day.archiveMem (few key) past fun stored inside unarchived =>
          replaces (key, points) (OrderedMap.get?_eq_some.mp found) past.1 past.2 stored inside
            unarchived
      · rename_i open_
        obtain ⟨row, object⟩ := Prod.mk.inj flushed
        rw [row, object]
        exact day.merge (few key) open_

/-- A change of one day. -/
theorem BufferKept.change {after : HistoryBuffer} (kept : BufferKept env buckets now filed buffer)
    (key : DayKey) (mem : after.memDays = buffer.memDays)
    (dead : after.deadLetters = buffer.deadLetters)
    (others : ∀ other, other ≠ key → after.rows.get? other = buffer.rows.get? other ∧
      after.objects.get? other = buffer.objects.get? other)
    (day : DayKept env (buckets key) now key.2 (after.rows.get? key) (after.objects.get? key)
      (buffer.memPoints key) (filed key)) : BufferKept env buckets now filed after := by
  refine ⟨fun other => ?_, dead.trans kept.dead⟩
  unfold HistoryBuffer.memPoints at *
  rw [mem]
  by_cases same : other = key
  · subst same
    exact day
  · rw [(others other same).1, (others other same).2]
    exact kept.days other

/-- One row of `flushCompletedDays`. -/
theorem kept_flushRow (few : ∀ key, (buckets key).card ≤ maxDayPoints env)
    (kept : BufferKept env buckets now filed buffer) (bound : env.archiveBound = true)
    (budget : Nat) {key : DayKey} {row : DayRow} (current : buffer.rows.get? key = some row) :
    BufferKept env buckets now filed (flushRow env now (buffer, budget) (key, row)).1 ∧
      ∀ other, other ≠ key → (flushRow env now (buffer, budget) (key, row)).1.rows.get? other =
        buffer.rows.get? other := by
  have day := kept.days key
  rw [current] at day
  unfold flushRow
  dsimp only
  split
  · exact ⟨kept, fun _ _ => rfl⟩
  · rename_i unfinished
    have past : key.2 < dayFromSec now env ∧ env.archiveBound = true :=
      ⟨not_le.mp unfinished, bound⟩
    split
    · exact ⟨kept, fun _ _ => rfl⟩
    · split
      · exact ⟨kept, fun _ _ => rfl⟩
      · split
        · rename_i archived
          have object := (day.archived row rfl archived).1
          rw [if_pos object]
          split
          · refine ⟨kept.change key rfl rfl (fun other different => ?_) ?_, fun other different => ?_⟩
            · exact ⟨OrderedMap.get?_erase_of_ne _ different, rfl⟩
            · rw [OrderedMap.get?_erase_self]
              exact day.eraseRow archived
            · exact OrderedMap.get?_erase_of_ne _ different
          · exact ⟨kept, fun _ _ => rfl⟩
        · rename_i open_
          have unarchived : row.archivedAt = none := by simpa using open_
          refine ⟨kept.change key rfl rfl (fun other different => ?_) ?_, fun other different => ?_⟩
          · exact ⟨OrderedMap.get?_set_of_ne _ _ different, OrderedMap.get?_set_of_ne _ _ different⟩
          · simp only [mergeArchiveDay, OrderedMap.get?_set_self]
            exact day.archiveRow (few key) past unarchived 0
          · exact OrderedMap.get?_set_of_ne _ _ different

private theorem kept_flushRows (few : ∀ key, (buckets key).card ≤ maxDayPoints env)
    (bound : env.archiveBound = true) (rows : List (DayKey × DayRow))
    (distinct : (rows.map Prod.fst).Nodup) (budget : Nat)
    (kept : BufferKept env buckets now filed buffer)
    (current : ∀ entry ∈ rows, buffer.rows.get? entry.1 = some entry.2) :
    BufferKept env buckets now filed (rows.foldl (flushRow env now) (buffer, budget)).1 := by
  induction rows generalizing buffer budget with
  | nil => exact kept
  | cons entry rest ih =>
      rw [List.map_cons, List.nodup_cons] at distinct
      obtain ⟨after, same⟩ := kept_flushRow few kept bound budget
        (current entry List.mem_cons_self)
      apply ih distinct.2 _ after
      intro other member
      have different : other.1 ≠ entry.1 := fun equal =>
        distinct.1 (equal ▸ List.mem_map_of_mem member)
      rw [same other.1 different]
      exact current other (List.mem_cons_of_mem entry member)

theorem kept_flushCompletedDays (few : ∀ key, (buckets key).card ≤ maxDayPoints env)
    (kept : BufferKept env buckets now filed buffer) :
    BufferKept env buckets now filed (flushCompletedDays env now buffer) := by
  unfold flushCompletedDays
  split
  · rename_i bound
    have sorted : (listed buffer.rows).Perm buffer.rows.entries := List.perm_insertionSort _ _
    have flushed : BufferKept env buckets now filed
        ((listed buffer.rows).foldl (flushRow env now) (buffer, maxArchiveWritesPerAlarm)).1 := by
      apply kept_flushRows few bound _ _ _ kept
      · intro entry member
        exact OrderedMap.get?_eq_some.mpr (sorted.mem_iff.mp member)
      · exact (sorted.map Prod.fst).nodup_iff.mpr buffer.rows.nodup_keys
    dsimp only
    rw [flushed.dead]
    exact flushed
  · exact kept

theorem kept_append {body : List (TargetId × List ProbeWrite)}
    (kept : BufferKept env buckets clock filed buffer)
    (fits : ∀ entry ∈ body, ∀ item ∈ incoming env entry.2,
      (buffer.memPoints (entry.1, item.1) ++ accepted env body (entry.1, item.1)).length ≤
          maxMemPoints env ∧
        (dayFromSec item.2.checkedAt env = item.1 →
          item.2.checkedAt ∈ buckets (entry.1, item.1))) :
    BufferKept env buckets clock (fun key => filed key ++ accepted env body key)
      (append env body buffer) := by
  refine ⟨fun key => ?_, kept.dead⟩
  rw [memPoints_append]
  · apply (kept.days key).append
    intro point member
    obtain ⟨stored, inside, own, rfl⟩ := mem_dayPoints.mp member
    obtain ⟨entry, listed, item, written, rfl, rfl⟩ := mem_accepted.mp inside
    exact (fits entry listed item written).2 own
  · intro some_
    obtain ⟨point, inside⟩ := List.exists_mem_of_ne_nil _ some_
    obtain ⟨entry, listed, item, written, rfl, _⟩ := mem_accepted.mp inside
    exact (fits entry listed item written).1

theorem BufferKept.later (kept : BufferKept env buckets clock filed buffer)
    (forward : clock ≤ now) : BufferKept env buckets now filed buffer :=
  ⟨fun key => (kept.days key).later forward, kept.dead⟩

/-- A read merges for each time of the day the point that was filed last. -/
theorem bucketAt_readDay (few : ∀ key, (buckets key).card ≤ maxDayPoints env)
    (kept : BufferKept env buckets clock filed buffer) (key : DayKey) (ts : Int) :
    bucketAt env key.2 (readDay env buffer key) ts = bucketAt env key.2 (filed key) ts := by
  have day := kept.days key
  have object : (if env.archiveBound = true then buffer.objectPoints key else []) =
      (buffer.objects.get? key).getD [] := by
    split
    · rfl
    · rename_i unbound
      cases found : buffer.objects.get? key with
      | none => rfl
      | some points => exact absurd (day.finished (by simp [found])).1 unbound
  have dead : buffer.deadPoints key = [] := by
    unfold HistoryBuffer.deadPoints
    rw [kept.dead]
    rfl
  unfold readDay
  rw [object, dead, List.append_nil, pointsOf_get?, bucketAt_mergeDay day.objectWithin
    (within_append.mpr ⟨day.rowWithin, day.memWithin⟩) (few key), ← List.append_assoc]
  exact day.view ts

end Buffer

end NieSla.ProbeHistory
