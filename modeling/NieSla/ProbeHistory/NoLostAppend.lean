import NieSla.ProbeHistory.Flush

/-! What is accepted while `flushMemDays` runs stays in memory or is stored, as long as no append
goes to a key that the loop has already read: the map it is added to is replaced at the end. -/
namespace NieSla.ProbeHistory

/-- For every time of the day that the points have, the holder has the same point. -/
def Covers (env : Env) (day : Int) (holder points : List ProbePoint) : Prop :=
  ∀ ts point, bucketAt env day points ts = some point → bucketAt env day holder ts = some point

section Covers

variable {env : Env} {day : Int} {buckets : Finset Int} {existing points : List ProbePoint}

theorem covers_refl (env : Env) (day : Int) (points : List ProbePoint) :
    Covers env day points points :=
  fun _ _ found => found

theorem covers_append : Covers env day (existing ++ points) points := by
  intro ts point found
  rw [bucketAt_append, found]
  rfl

theorem covers_mergeDay (old : Within env day buckets existing) (new : Within env day buckets points)
    (few : buckets.card ≤ maxDayPoints env) : Covers env day (mergeDay env day existing points) points := by
  intro ts point found
  rw [bucketAt_mergeDay old new few]
  exact covers_append ts point found

theorem Covers.trans {holder middle : List ProbePoint} (first : Covers env day holder middle)
    (second : Covers env day middle points) : Covers env day holder points :=
  fun ts point found => first ts point (second ts point found)

end Covers

/-- Everything that is held for a day has one of its times. -/
def DaysWithin (env : Env) (buckets : DayKey → Finset Int) (buffer : HistoryBuffer) : Prop :=
  ∀ key, Within env key.2 (buckets key) (buffer.memPoints key ++ buffer.rowPoints key ++
    buffer.objectPoints key ++ buffer.deadPoints key)

namespace Flush

/-- The points that a write puts. -/
def payload : Await → Option (List ProbePoint)
  | .archivePut merged | .deadLetterPut merged => some merged
  | .archivedRowPut row | .rowPut row => some row.points
  | _ => none

def AwaitCovers (env : Env) (buckets : DayKey → Finset Int) (key : DayKey)
    (points : List ProbePoint) (await : Await) : Prop :=
  ∀ put ∈ payload await, Covers env key.2 put points ∧ Within env key.2 (buckets key) put

def Stored (env : Env) (buffer : HistoryBuffer) (entry : DayKey × List ProbePoint) : Prop :=
  Covers env entry.1.2 (buffer.rowPoints entry.1) entry.2 ∨
    Covers env entry.1.2 (buffer.deadPoints entry.1) entry.2

/-- What holds of an entry the loop is done with. -/
def Settled (env : Env) (flush : Flush) (entry : DayKey × List ProbePoint) : Prop :=
  flush.failed.get? entry.1 = some entry.2 ∨ Stored env flush.buffer entry

/-- Before the return, all that has been filed is still in memory. -/
structure Looping (env : Env) (buckets : DayKey → Finset Int) (flush : Flush) : Prop where
  filed : ∀ key, flush.filed key = flush.buffer.memPoints key
  within : DaysWithin env buckets flush.buffer
  settled : ∀ entry ∈ flush.buffer.memDays.entries.take flush.finished, Settled env flush entry

def Held (env : Env) (buffer : HistoryBuffer) (key : DayKey) (ts : Int) (point : ProbePoint) :
    Prop :=
  bucketAt env key.2 (buffer.memPoints key) ts = some point ∨
    bucketAt env key.2 (buffer.rowPoints key) ts = some point ∨
    bucketAt env key.2 (buffer.deadPoints key) ts = some point

/-- Every time that has been filed for a day is held with its last point. -/
def AllHeld (env : Env) (flush : Flush) : Prop :=
  ∀ key ts point, bucketAt env key.2 (flush.filed key) ts = some point →
    Held env flush.buffer key ts point

def Sound (env : Env) (buckets : DayKey → Finset Int) (flush : Flush) : Prop :=
  match flush.phase with
  | .visiting key points await =>
      Looping env buckets flush ∧
        flush.buffer.memDays.entries[flush.finished]? = some (key, points) ∧
        AwaitCovers env buckets key points await
  | .returned => AllHeld env flush

section Steps

variable {env : Env} {buckets : DayKey → Finset Int} {flush : Flush} {buffer : HistoryBuffer}
  {key other : DayKey} {points : List ProbePoint} {await following : Await} {now : Int}

theorem mem_of_entry (entry : flush.buffer.memDays.entries[flush.finished]? = some (key, points)) :
    flush.buffer.memPoints key = points := by
  unfold HistoryBuffer.memPoints
  rw [OrderedMap.get?_eq_some.mpr (List.mem_of_getElem? entry)]
  rfl

/-- The entries before the current one have other keys. -/
theorem ne_of_mem_take {entry : DayKey × List ProbePoint}
    (current : flush.buffer.memDays.entries[flush.finished]? = some (key, points))
    (member : entry ∈ flush.buffer.memDays.entries.take flush.finished) : entry.1 ≠ key := by
  have distinct := flush.buffer.memDays.nodup_keys
  rw [← List.take_append_drop flush.finished flush.buffer.memDays.entries, List.map_append,
    List.nodup_append] at distinct
  apply distinct.2.2 entry.1 (List.mem_map_of_mem member)
  have inside : (key, points) ∈ flush.buffer.memDays.entries.drop flush.finished := by
    apply List.mem_of_getElem? (i := 0)
    rw [List.getElem?_drop]
    exact current
  exact List.mem_map_of_mem inside

/-! Writes. -/

theorem memDays_written (key : DayKey) (await : Await) (buffer : HistoryBuffer) :
    (written key await buffer).memDays = buffer.memDays := by
  cases await <;> rfl

theorem written_of_ne (different : other ≠ key) (await : Await) (buffer : HistoryBuffer) :
    (written key await buffer).rowPoints other = buffer.rowPoints other ∧
      (written key await buffer).objectPoints other = buffer.objectPoints other ∧
      (written key await buffer).deadPoints other = buffer.deadPoints other := by
  cases await
  all_goals
    simp only [written, HistoryBuffer.rowPoints, HistoryBuffer.objectPoints,
      HistoryBuffer.deadPoints, OrderedMap.get?_set_of_ne _ _ different, and_self]

theorem stored_written_of_ne {entry : DayKey × List ProbePoint} (different : entry.1 ≠ key)
    (stored : Stored env buffer entry) : Stored env (written key await buffer) entry := by
  obtain ⟨row, _, dead⟩ := written_of_ne different await buffer
  unfold Stored
  rw [row, dead]
  exact stored

theorem within_written (within : DaysWithin env buckets buffer)
    (sound : AwaitCovers env buckets key points await) :
    DaysWithin env buckets (written key await buffer) := by
  intro other
  have mem : (written key await buffer).memPoints other = buffer.memPoints other := by
    unfold HistoryBuffer.memPoints
    rw [memDays_written]
  by_cases same : other = key
  · subst same
    have old := within other
    simp only [within_append] at old ⊢
    rw [mem]
    obtain ⟨⟨⟨inMem, inRow⟩, inObject⟩, inDead⟩ := old
    refine ⟨⟨⟨inMem, ?_⟩, ?_⟩, ?_⟩
    all_goals
      cases await
      all_goals
        first
        | assumption
        | simpa [written, HistoryBuffer.rowPoints, HistoryBuffer.objectPoints,
            HistoryBuffer.deadPoints] using (sound _ rfl).2
  · obtain ⟨row, object, dead⟩ := written_of_ne same await buffer
    rw [mem, row, object, dead]
    exact within other

/-- What is waited for next puts the points of the entry. -/
theorem covers_next (few : ∀ key, (buckets key).card ≤ maxDayPoints env)
    (within : DaysWithin env buckets buffer) (mem : buffer.memPoints key = points)
    (follows : next env now buffer key points await = some following) :
    AwaitCovers env buckets key points following := by
  have all := within key
  simp only [within_append, mem] at all
  obtain ⟨⟨⟨inMem, inRow⟩, inObject⟩, inDead⟩ := all
  have inBoth := within_append.mpr ⟨inDead, inMem⟩
  intro put member
  cases await <;> cases follows <;> cases member
  case archiveGet =>
    exact ⟨covers_mergeDay inObject inMem (few key), within_mergeDay inObject inMem⟩
  case archivedRowGet => exact ⟨covers_refl _ _ _, inMem⟩
  case rowGet => exact ⟨covers_mergeDay inRow inMem (few key), within_mergeDay inRow inMem⟩
  case deadLetterGet =>
    exact ⟨(covers_mergeDay inDead inBoth (few key)).trans covers_append,
      within_mergeDay inDead inBoth⟩

/-- After the last write the points of the entry are stored. -/
theorem stored_written {source : HistoryBuffer} (last : next env now source key points await = none)
    (sound : AwaitCovers env buckets key points await) :
    Stored env (written key await buffer) (key, points) := by
  cases await <;> cases last
  case archivedRowPut row =>
    apply Or.inl
    simpa [written, HistoryBuffer.rowPoints] using (sound _ rfl).1
  case rowPut row =>
    apply Or.inl
    simpa [written, HistoryBuffer.rowPoints] using (sound _ rfl).1
  case deadLetterPut merged =>
    apply Or.inr
    simpa [written, HistoryBuffer.deadPoints] using (sound _ rfl).1

/-! The loop. -/

theorem sound_visit (looping : Looping env buckets flush) : Sound env buckets (visit env flush) := by
  unfold visit
  cases taken : flush.buffer.memDays.entries[flush.finished]? with
  | some entry =>
      obtain ⟨key, points⟩ := entry
      refine ⟨⟨looping.filed, looping.within, looping.settled⟩, taken, ?_⟩
      split
      · rintro _ ⟨⟩
      · rintro _ ⟨⟩
  | none =>
      intro key ts point found
      have every := List.take_of_length_le (List.getElem?_eq_none_iff.mp taken)
      dsimp only at found
      rw [looping.filed key, HistoryBuffer.memPoints] at found
      cases value : flush.buffer.memDays.get? key with
      | none =>
          rw [value] at found
          cases found
      | some points =>
          rw [value, Option.getD_some] at found
          have settled := looping.settled (key, points)
            (every.symm ▸ OrderedMap.get?_eq_some.mp value)
          rcases settled with failed | row | dead
          · apply Or.inl
            simp only [HistoryBuffer.memPoints]
            rw [failed]
            exact found
          · exact Or.inr (Or.inl (row ts point found))
          · exact Or.inr (Or.inr (dead ts point found))

/-- An entry is done with: it is stored or it failed. -/
theorem looping_finished {after : Flush} (looping : Looping env buckets flush)
    (current : flush.buffer.memDays.entries[flush.finished]? = some (key, points))
    (filed : after.filed = flush.filed) (mem : after.buffer.memDays = flush.buffer.memDays)
    (within : DaysWithin env buckets after.buffer) (count : after.finished = flush.finished + 1)
    (others : ∀ entry, entry.1 ≠ key → Settled env flush entry → Settled env after entry)
    (own : Settled env after (key, points)) : Looping env buckets after := by
  constructor
  · intro other
    rw [filed, looping.filed other, HistoryBuffer.memPoints, HistoryBuffer.memPoints, mem]
  · exact within
  · intro entry member
    rw [mem, count, List.take_add_one, current, List.mem_append] at member
    cases member with
    | inl before =>
        exact others entry (ne_of_mem_take current before) (looping.settled entry before)
    | inr last =>
        obtain rfl := List.mem_singleton.mp last
        exact own

/-- Whether or not the write that is waited for has been applied. -/
theorem looping_written (looping : Looping env buckets flush)
    (current : flush.buffer.memDays.entries[flush.finished]? = some (key, points))
    (covers : AwaitCovers env buckets key points await) (applied : Bool) (phase : Phase) :
    Looping env buckets
      { flush with
        buffer := if applied then written key await flush.buffer else flush.buffer, phase } := by
  cases applied with
  | false => exact ⟨looping.filed, looping.within, looping.settled⟩
  | true =>
      constructor
      · intro other
        simp only [HistoryBuffer.memPoints, if_true, memDays_written]
        exact looping.filed other
      · exact within_written looping.within covers
      · intro entry member
        simp only [if_true, memDays_written] at member
        rcases looping.settled entry member with failed | stored
        · exact Or.inl failed
        · exact Or.inr (stored_written_of_ne (ne_of_mem_take current member) stored)

theorem sound_succeeded (few : ∀ key, (buckets key).card ≤ maxDayPoints env)
    (looping : Looping env buckets flush)
    (current : flush.buffer.memDays.entries[flush.finished]? = some (key, points))
    (covers : AwaitCovers env buckets key points await)
    (phase : flush.phase = .visiting key points await) :
    Sound env buckets (resume env .succeeded now flush) := by
  have same := memDays_written key await flush.buffer
  have wrote (phase : Phase) : Looping env buckets
      { flush with buffer := written key await flush.buffer, phase } :=
    looping_written looping current covers true phase
  unfold resume
  rw [phase]
  dsimp only
  cases follows : next env now (written key await flush.buffer) key points await with
  | some following =>
      have mem : (written key await flush.buffer).memPoints key = points := by
        rw [← mem_of_entry current, HistoryBuffer.memPoints, HistoryBuffer.memPoints, same]
      refine ⟨wrote _, ?_, covers_next few (wrote flush.phase).within mem follows⟩
      dsimp only
      rw [same]
      exact current
  | none =>
      apply sound_visit
      refine looping_finished looping current rfl same (wrote flush.phase).within rfl ?_ ?_
      · intro entry different settled
        rcases settled with failed | stored
        · exact Or.inl failed
        · exact Or.inr (stored_written_of_ne different stored)
      · exact Or.inr (stored_written follows covers)

theorem sound_failed (applied : Bool) (looping : Looping env buckets flush)
    (current : flush.buffer.memDays.entries[flush.finished]? = some (key, points))
    (covers : AwaitCovers env buckets key points await)
    (phase : flush.phase = .visiting key points await) :
    Sound env buckets (resume env (.failed applied) now flush) := by
  have wrote := looping_written looping current covers applied
  unfold resume
  rw [phase]
  dsimp only
  have same : (if applied = true then written key await flush.buffer else flush.buffer).memDays =
      flush.buffer.memDays := by
    split
    · exact memDays_written key await flush.buffer
    · rfl
  split
  · refine ⟨wrote _, ?_, ?_⟩
    · dsimp only
      rw [same]
      exact current
    · rintro _ ⟨⟩
  · apply sound_visit
    have entry : ({ flush with buffer :=
        if applied = true then written key await flush.buffer else flush.buffer } :
          Flush).buffer.memDays.entries[flush.finished]? = some (key, points) := by
      dsimp only
      rw [same]
      exact current
    refine looping_finished (wrote flush.phase) entry rfl rfl (wrote flush.phase).within rfl ?_ ?_
    · intro entry different settled
      rcases settled with failed | stored
      · apply Or.inl
        rw [OrderedMap.get?_set_of_ne _ _ different]
        exact failed
      · exact Or.inr stored
    · exact Or.inl (OrderedMap.get?_set_self _ _ _)

theorem sound_resume (few : ∀ key, (buckets key).card ≤ maxDayPoints env) (outcome : Outcome)
    (now : Int) (sound : Sound env buckets flush) :
    Sound env buckets (resume env outcome now flush) := by
  cases phase : flush.phase with
  | returned =>
      unfold resume
      rw [phase]
      exact sound
  | visiting key points await =>
      unfold Sound at sound
      rw [phase] at sound
      obtain ⟨looping, current, covers⟩ := sound
      cases outcome with
      | succeeded => exact sound_succeeded few looping current covers phase
      | failed applied => exact sound_failed applied looping current covers phase

/-! Appends. -/

private theorem prefix_appendDays {target : TargetId} {days : List (Int × List (Int × ProbePoint))}
    {memDays : OrderedMap DayKey (List ProbePoint)} {first : List (DayKey × List ProbePoint)}
    (leads : first <+: memDays.entries)
    (absent : ∀ entry ∈ days, (target, entry.1) ∉ first.map Prod.fst) :
    first <+: (days.foldl (appendDay env target) memDays).entries := by
  induction days generalizing memDays with
  | nil => exact leads
  | cons entry rest ih =>
      obtain ⟨own, others⟩ := List.forall_mem_cons.mp absent
      exact ih (memDays.prefix_set _ leads own) others

/-- An append to other keys leaves the first entries of the map as they are. -/
theorem prefix_append {entry : TargetId × List ProbeWrite}
    {first : List (DayKey × List ProbePoint)} (leads : first <+: buffer.memDays.entries)
    (absent : ∀ item ∈ incoming env entry.2, (entry.1, item.1) ∉ first.map Prod.fst) :
    first <+: (append env [entry] buffer).memDays.entries := by
  apply prefix_appendDays leads
  intro day member
  obtain ⟨items, some_⟩ := OrderedMap.mem_group_entries member
  obtain ⟨item, inside⟩ := List.exists_mem_of_ne_nil _ some_
  rw [items, List.mem_filter, decide_eq_true_eq] at inside
  rw [← inside.2]
  exact absent item inside.1

/-- An append to other keys leaves the entries that the loop has read as they are. -/
theorem take_append {entry : TargetId × List ProbeWrite}
    (phase : flush.phase = .visiting key points await)
    (current : flush.buffer.memDays.entries[flush.finished]? = some (key, points))
    (untaken : Untaken env flush (.append entry)) :
    (append env [entry] flush.buffer).memDays.entries.take (flush.finished + 1) =
      flush.buffer.memDays.entries.take (flush.finished + 1) := by
  have size : flush.finished + 1 ≤ flush.buffer.memDays.entries.length :=
    (List.getElem?_eq_some_iff.mp current).1
  have leads : flush.buffer.memDays.entries.take (flush.finished + 1) <+:
      (append env [entry] flush.buffer).memDays.entries := by
    apply prefix_append (List.take_prefix _ _)
    simpa only [Untaken, taken, phase] using untaken
  rw [List.prefix_iff_eq_take, List.length_take, min_eq_left size] at leads
  exact leads.symm

theorem memPoints_append_of_fits {entry : TargetId × List ProbeWrite}
    (fits : Fits env buckets flush (.append entry)) (key : DayKey) :
    (append env [entry] flush.buffer).memPoints key =
      flush.buffer.memPoints key ++ accepted env [entry] key := by
  apply memPoints_append
  intro some_
  obtain ⟨point, inside⟩ := List.exists_mem_of_ne_nil _ some_
  obtain ⟨_, listed, item, written, rfl, _⟩ := mem_accepted.mp inside
  obtain rfl := List.mem_singleton.mp listed
  exact (fits item written).1

theorem within_accepted {entry : TargetId × List ProbeWrite}
    (fits : Fits env buckets flush (.append entry)) (key : DayKey) :
    Within env key.2 (buckets key) (accepted env [entry] key) := by
  intro point member
  obtain ⟨stored, inside, own, rfl⟩ := mem_dayPoints.mp member
  obtain ⟨_, listed, item, written, rfl, rfl⟩ := mem_accepted.mp inside
  obtain rfl := List.mem_singleton.mp listed
  exact (fits item written).2 own

theorem sound_append {entry : TargetId × List ProbeWrite} (sound : Sound env buckets flush)
    (fits : Fits env buckets flush (.append entry)) (untaken : Untaken env flush (.append entry)) :
    Sound env buckets (step env flush (.append entry)) := by
  have grown := memPoints_append_of_fits fits
  unfold Sound at sound ⊢
  simp only [step]
  cases phase : flush.phase with
  | visiting key points await =>
      rw [phase] at sound
      obtain ⟨looping, current, covers⟩ := sound
      have same := take_append phase current untaken
      have before : (append env [entry] flush.buffer).memDays.entries.take flush.finished =
          flush.buffer.memDays.entries.take flush.finished := by
        have shorter := congrArg (List.take flush.finished) same
        rwa [List.take_take, List.take_take, min_eq_left (Nat.le_succ _)] at shorter
      refine ⟨⟨fun other => ?_, fun other => ?_, fun other member => ?_⟩, ?_, covers⟩
      · dsimp only
        rw [grown other, looping.filed other]
      · have old := looping.within other
        dsimp only
        rw [grown other]
        simp only [within_append] at old ⊢
        exact ⟨⟨⟨⟨old.1.1.1, within_accepted fits other⟩, old.1.1.2⟩, old.1.2⟩, old.2⟩
      · exact looping.settled other (before ▸ member)
      · have entry := congrArg (fun list => list[flush.finished]?) same
        simpa only [List.getElem?_take_of_succ, current] using entry
  | returned =>
      rw [phase] at sound
      intro other ts point found
      dsimp only at found ⊢
      rw [bucketAt_append] at found
      unfold Held
      rw [grown other, bucketAt_append]
      cases new : bucketAt env other.2 (accepted env [entry] other) ts with
      | some newer =>
          rw [new, Option.some_or] at found
          exact Or.inl found
      | none =>
          rw [new, Option.none_or] at found
          rw [Option.none_or]
          exact sound other ts point found

end Steps

/-- The point is in memory, in the storage row or the R2 object of its day, or dead-lettered. -/
def Present (buffer : HistoryBuffer) (key : DayKey) (point : ProbePoint) : Prop :=
  ∃ held ∈ buffer.memPoints key ++ buffer.rowPoints key ++ buffer.objectPoints key ++
    buffer.deadPoints key, held.settled = point.settled

theorem present_of_held {env : Env} {buffer : HistoryBuffer} {key : DayKey} {ts : Int}
    {point : ProbePoint} (held : Held env buffer key ts point.settled) :
    Present buffer key point := by
  rcases held with mem | row | dead
  · obtain ⟨stored, inside, same⟩ := mem_of_bucketAt mem
    exact ⟨stored, by simp [inside], same⟩
  · obtain ⟨stored, inside, same⟩ := mem_of_bucketAt row
    exact ⟨stored, by simp [inside], same⟩
  · obtain ⟨stored, inside, same⟩ := mem_of_bucketAt dead
    exact ⟨stored, by simp [inside], same⟩

theorem allHeld_of_sound {env : Env} {buckets : DayKey → Finset Int} {flush : Flush}
    (sound : Sound env buckets flush) : AllHeld env flush := by
  unfold Sound at sound
  split at sound
  · intro key ts point found
    rw [sound.1.filed] at found
    exact Or.inl found
  · exact sound

private def firstTarget : TargetId := ⟨"first", by decide⟩

private def secondTarget : TargetId := ⟨"second", by decide⟩

private def checked (checkedAt : ℚ) : ProbeWrite := ⟨none, { checkedAt, ok := some 1 }⟩

private def filledBuffer : HistoryBuffer := append {} [(firstTarget, [checked 60000])] .empty

private theorem within_filled : DaysWithin {} (fun _ => {60000, 61200}) filledBuffer := by
  have fits : Fits {} (fun _ => {60000, 61200}) (start {} 0 .empty .empty)
      (.append (firstTarget, [checked 60000])) := by decide +kernel
  intro key
  have mem : filledBuffer.memPoints key = [] ++ accepted {} [(firstTarget, [checked 60000])] key :=
    memPoints_append_of_fits fits key
  rw [mem]
  simp only [within_append]
  exact ⟨⟨⟨⟨within_nil _ _ _, within_accepted fits key⟩, within_nil _ _ _⟩, within_nil _ _ _⟩,
    within_nil _ _ _⟩

end Flush

end NieSla.ProbeHistory
