import NieSla.Latency.Submit

/-! An accepted point stays in its segment, its bucket or the pending list, as long as no call
writes back a list or an object in which it has not seen the point. -/
namespace NieSla.Latency

open Processes

/-- The points that a call answers for where it has called the fallback. -/
def Resume.owes (sub : Submission) : Resume → List LatencyPoint
  | .flush read _ | .retain read _ => read ++ sub.accepted
  | .finish => sub.accepted

def Resume.keeps : Resume → List LatencyPoint
  | .flush _ keep | .retain _ keep => keep
  | .finish => []

section Keys

variable (env : Env) (key : PointKey)

/-- The step does away with the point of this key only where its call has read it: a segment that
is written was read with the point, a pending list that is written was read with it or the point is
archived, and a cleanup leaves its bucket. -/
def Spares (_call : Nat) (store : LatencyStore) (phase : SubmitPhase) (input : SubmitInput) : Prop :=
  match phase with
  | .writingSegment _ flush existing _ =>
      input.fails = false → ∀ group ∈ flush.groups.head?,
        latencySegmentStart key.checkedAt = group.1 → store.InSegment key → HasKey key existing
  | .updatingPending _ read _ _ =>
      input.fails = false → HasKey key store.pendingResults → HasKey key read ∨ store.Archived key
  | .deletingOld sub =>
      input.fails = false →
        store.InSegment key ∨ sub.now - retentionSec env ≤ key.bucket.checkedAt
  | _ => True

instance (call : Nat) (store : LatencyStore) : ∀ phase input,
    Decidable (Spares env key call store phase input)
  | .writingSegment _ flush existing _, input => inferInstanceAs (Decidable
      (input.fails = false → ∀ group ∈ flush.groups.head?,
        latencySegmentStart key.checkedAt = group.1 → store.InSegment key → HasKey key existing))
  | .updatingPending _ read _ _, input => inferInstanceAs (Decidable
      (input.fails = false → HasKey key store.pendingResults → HasKey key read ∨ store.Archived key))
  | .deletingOld sub, input => inferInstanceAs (Decidable
      (input.fails = false →
        store.InSegment key ∨ sub.now - retentionSec env ≤ key.bucket.checkedAt))
  | .waiting, _ | .readingPending _, _ | .readingSegment _ _, _ | .verifyingSegment _ _, _
  | .readingRetained _, _ | .selectingRows _ _ _ _ _, _ | .insertingRows _ _ _, _ | .touching _, _
  | .readingCleanup _, _ | .recordingCleanup _, _ | .returned _, _ | .rejected, _ =>
      .isTrue True.intro

/-- What a flush answers for is archived, waits for its window, or is in a group that is left. -/
structure FlushSound (store : LatencyStore) (sub : Submission) (flush : ArchiveFlush) : Prop where
  grouped : ∀ group ∈ flush.groups, ∀ point ∈ group.2,
    latencySegmentStart point.checkedAt = group.1
  held : HasKey key (flush.pending ++ sub.accepted) →
    store.Archived key ∨ HasKey key flush.remaining ∨ ∃ group ∈ flush.groups, HasKey key group.2

/-- Where the point of a call may be between two of its steps. -/
def Carries (_call : Nat) (store : LatencyStore) : SubmitPhase → Prop
  | .readingSegment sub flush | .verifyingSegment sub flush => FlushSound key store sub flush
  | .writingSegment sub flush existing payload =>
      FlushSound key store sub flush ∧
        (∀ group ∈ flush.groups.head?, HasKey key group.2 → HasKey key payload.points) ∧
          (HasKey key existing → HasKey key payload.points)
  | .selectingRows sub candidates _ existing resume =>
      (HasKey key (resume.owes sub) → store.Archived key ∨ HasKey key resume.keeps ∨
        HasKey key.bucket candidates) ∧ (key.bucket ∈ existing → store.Archived key)
  | .insertingRows sub rows resume =>
      HasKey key (resume.owes sub) → store.Archived key ∨ HasKey key resume.keeps ∨
        HasKey key.bucket rows
  | .updatingPending sub read keep _ =>
      HasKey key (read ++ sub.accepted) → store.Archived key ∨ HasKey key keep
  | .touching sub | .readingCleanup sub | .deletingOld sub | .recordingCleanup sub
  | .returned sub => HasKey key sub.accepted → store.Present key
  | .waiting | .readingPending _ | .readingRetained _ | .rejected => True

end Keys

section Phases

variable {env : Env} {key : PointKey} {call : Nat} {store after : LatencyStore}
  {oversize : List LatencyPoint → Bool} {sub : Submission} {flush : ArchiveFlush} {resume : Resume}

theorem hasKey_nil : ¬ HasKey key [] := by
  rintro ⟨point, member, _⟩
  cases member

theorem carries_resumed
    (held : HasKey key (resume.owes sub) → store.Archived key ∨ HasKey key resume.keeps) :
    Carries key call store (resumed sub resume) := by
  cases resume with
  | flush read keep => exact held
  | retain read keep => exact held
  | finish =>
      intro accepted
      cases held accepted with
      | inl archived => exact Or.inl archived
      | inr kept => exact absurd kept hasKey_nil

theorem carries_fallback {points : List LatencyPoint}
    (held : HasKey key (resume.owes sub) →
      store.Archived key ∨ HasKey key resume.keeps ∨ HasKey key points) :
    Carries key call store (writeLatencyD1Fallback sub points resume) := by
  unfold writeLatencyD1Fallback
  split
  · rename_i nothing
    apply carries_resumed
    intro owed
    rcases held owed with archived | kept | written
    · exact Or.inl archived
    · exact Or.inr kept
    · rw [nothing] at written
      exact absurd written hasKey_nil
  · constructor
    · exact fun owed => (held owed).imp_right (Or.imp_right hasKey_candidateRows)
    · intro known
      cases known

theorem carries_thrown : Carries key call store (thrown sub resume) := by
  cases resume with
  | flush read keep => exact True.intro
  | retain read keep => exact carries_fallback fun accepted => Or.inr (Or.inr accepted)
  | finish => exact True.intro

theorem carries_nextSegment (sound : FlushSound key store sub flush) :
    Carries key call store (nextSegment oversize sub flush) := by
  unfold nextSegment
  split
  case isFalse => exact sound
  rename_i done
  have held : HasKey key (flush.pending ++ sub.accepted) →
      store.Archived key ∨ HasKey key flush.remaining := by
    intro owed
    rcases sound.held owed with archived | remains | ⟨group, listed, _⟩
    · exact Or.inl archived
    · exact Or.inr remains
    · rw [done] at listed
      cases listed
  have capped (owed : HasKey key (flush.pending ++ sub.accepted)) :=
    (held owed).imp_right (hasKey_capPendingResults oversize)
  unfold settleFlush
  generalize capPendingResults oversize flush.remaining = parts at capped
  obtain ⟨keep, overflow⟩ := parts
  dsimp only at capped ⊢
  by_cases bounded : overflow = []
  · rw [if_neg (not_not.mpr bounded)]
    have kept : HasKey key (flush.pending ++ sub.accepted) →
        store.Archived key ∨ HasKey key keep := by
      intro owed
      rcases capped owed with archived | stays | falls
      · exact Or.inl archived
      · exact Or.inr stays
      · rw [bounded] at falls
        exact absurd falls hasKey_nil
    split
    · exact kept
    · rename_i still
      intro accepted
      cases kept (HasKey.append.mpr (Or.inr accepted)) with
      | inl archived => exact Or.inl archived
      | inr stays =>
          rw [not_not.mp (not_or.mp still).2] at stays
          exact absurd stays hasKey_nil
  · rw [if_pos bounded]
    exact carries_fallback capped

theorem Carries.later {phase : SubmitPhase} (archived : store.Archived key → after.Archived key)
    (present : store.Present key → after.Present key) (carries : Carries key call store phase) :
    Carries key call after phase := by
  have flushed {sub : Submission} {flush : ArchiveFlush} (sound : FlushSound key store sub flush) :
      FlushSound key after sub flush :=
    ⟨sound.grouped, fun owed => (sound.held owed).imp_left archived⟩
  cases phase with
  | readingSegment _ _ | verifyingSegment _ _ => exact flushed carries
  | writingSegment _ _ _ _ => exact ⟨flushed carries.1, carries.2⟩
  | selectingRows _ _ _ _ _ =>
      exact ⟨fun owed => (carries.1 owed).imp_left archived, fun known => archived (carries.2 known)⟩
  | insertingRows _ _ _ | updatingPending _ _ _ _ =>
      exact fun owed => (carries owed).imp_left archived
  | touching _ | readingCleanup _ | deletingOld _ | recordingCleanup _ | returned _ =>
      exact fun accepted => present (carries accepted)
  | waiting | readingPending _ | readingRetained _ | rejected => exact True.intro

end Phases

/-! Steps. -/

section Steps

variable {env : Env} {collate : String → String → Bool} {oversize : List LatencyPoint → Bool}
  {calls : Nat → List LatencyResult} {key : PointKey} {call : Nat} {store : LatencyStore}
  {phase : SubmitPhase} {input : SubmitInput} {sub : Submission} {flush : ArchiveFlush}
  {resume : Resume}

theorem isSome_insertResults {bucket : PointKey} {points : List LatencyPoint}
    (found : HasKey bucket points ∨ (store.results.get? bucket).isSome) :
    ((points.foldl LatencyStore.insertResult store).results.get? bucket).isSome := by
  induction points generalizing store with
  | nil => exact found.resolve_left hasKey_nil
  | cons point rest ih =>
      apply ih
      rcases found with ⟨other, member, rfl⟩ | stored
      · cases List.mem_cons.mp member with
        | inl first =>
            subst first
            simp [LatencyStore.insertResult]
        | inr later => exact Or.inl ⟨other, later, rfl⟩
      · apply Or.inr
        simp only [LatencyStore.insertResult, OrderedMap.get?_set]
        split
        · rfl
        · exact stored

theorem segments_insertResults (points : List LatencyPoint) :
    (points.foldl LatencyStore.insertResult store).segments = store.segments := by
  induction points generalizing store with
  | nil => rfl
  | cons point rest ih => exact ih

theorem inSegment_congr {after : LatencyStore} (same : after.segments = store.segments) :
    after.InSegment key ↔ store.InSegment key := by
  unfold LatencyStore.InSegment LatencyStore.segmentPoints
  rw [same]

theorem archived_congr {after : LatencyStore} (segments : after.segments = store.segments)
    (results : after.results = store.results) : store.Archived key → after.Archived key := by
  unfold LatencyStore.Archived LatencyStore.InResults
  rw [inSegment_congr segments, results]
  exact id

theorem inSegment_put {start : Int} {payload : Segment} :
    ({ store with segments := store.segments.set start payload } : LatencyStore).InSegment key ↔
      if latencySegmentStart key.checkedAt = start then HasKey key payload.points
      else store.InSegment key := by
  unfold LatencyStore.InSegment LatencyStore.segmentPoints
  rw [OrderedMap.get?_set]
  by_cases own : latencySegmentStart key.checkedAt = start
  · simp only [if_pos own, Option.map_some, Option.getD_some]
  · simp only [if_neg own]

variable (collate oversize calls) in
/-- A guarded step keeps what is archived. -/
theorem archived_act (carries : Carries key call store phase)
    (spares : Spares env key call store phase input) (archived : store.Archived key) :
    (submitAct env collate oversize calls call store phase input).1.Archived key := by
  cases phase with
  | writingSegment sub flush existing payload =>
      simp only [submitAct]
      split
      · exact archived
      · rename_i start additions rest groups
        split
        · exact archived
        · rename_i works
          cases archived with
          | inr row => exact Or.inr row
          | inl stored =>
              apply Or.inl
              rw [inSegment_put]
              split
              · rename_i own
                apply carries.2.2
                have first : (start, additions) ∈ flush.groups.head? := by rw [groups]; rfl
                exact spares (Bool.eq_false_iff.mpr works) _ first own stored
              · exact stored
  | insertingRows sub rows resume =>
      simp only [submitAct]
      split
      · exact archived
      · cases archived with
        | inl stored => exact Or.inl ((inSegment_congr (segments_insertResults _)).mpr stored)
        | inr row => exact Or.inr (isSome_insertResults (Or.inr row))
  | deletingOld sub =>
      simp only [submitAct]
      split
      · exact archived
      · rename_i works
        cases archived with
        | inl stored => exact Or.inl stored
        | inr row =>
            cases spares (Bool.eq_false_iff.mpr works) with
            | inl stored => exact Or.inl stored
            | inr young =>
                obtain ⟨value, found⟩ := Option.isSome_iff_exists.mp row
                apply Or.inr
                apply Option.isSome_iff_exists.mpr
                exact ⟨value, OrderedMap.get?_filter _ _ |>.mpr ⟨found, decide_eq_true young⟩⟩
  | updatingPending sub read keep retained =>
      simp only [submitAct]
      split <;> exact archived
  | touching sub =>
      simp only [submitAct]
      split
      · exact archived
      · split <;> exact archived
  | recordingCleanup sub =>
      simp only [submitAct]
      split <;> exact archived
  | readingSegment sub flush =>
      simp only [submitAct]
      split
      · exact archived
      · split
        · exact archived
        · split <;> exact archived
  | verifyingSegment sub flush =>
      simp only [submitAct]
      split <;> exact archived
  | waiting | readingPending _ | readingRetained _ | selectingRows _ _ _ _ _ | readingCleanup _
  | returned _ | rejected => exact archived

/-- Only the write of a pending list changes the pending list. -/
theorem pending_act (unwritten : ∀ sub read keep retained,
    phase ≠ .updatingPending sub read keep retained) :
    (submitAct env collate oversize calls call store phase input).1.pendingResults =
      store.pendingResults := by
  cases phase with
  | updatingPending sub read keep retained => exact absurd rfl (unwritten sub read keep retained)
  | insertingRows sub rows resume =>
      simp only [submitAct]
      split
      · rfl
      · generalize rows.take statementChunk = points
        induction points generalizing store with
        | nil => rfl
        | cons point rest ih => exact ih
  | touching sub =>
      simp only [submitAct]
      split
      · rfl
      · split <;> rfl
  | readingSegment sub flush =>
      simp only [submitAct]
      split
      · rfl
      · split
        · rfl
        · split <;> rfl
  | writingSegment sub flush existing payload =>
      simp only [submitAct]
      split
      · rfl
      · split <;> rfl
  | verifyingSegment _ _ | deletingOld _ | recordingCleanup _ =>
      simp only [submitAct]
      split <;> rfl
  | waiting | readingPending _ | readingRetained _ | selectingRows _ _ _ _ _ | readingCleanup _
  | returned _ | rejected => rfl

variable (collate oversize calls) in
/-- A guarded step keeps what is present. -/
theorem present_act (carries : Carries key call store phase)
    (spares : Spares env key call store phase input) (present : store.Present key) :
    (submitAct env collate oversize calls call store phase input).1.Present key := by
  by_cases writes : ∃ sub read keep retained, phase = .updatingPending sub read keep retained
  · obtain ⟨sub, read, keep, retained, rfl⟩ := writes
    have archive := archived_act collate oversize calls carries spares
    cases present with
    | inl archived => exact Or.inl (archive archived)
    | inr waits =>
        cases works : input.fails with
        | true =>
            apply Or.inr
            simpa only [submitAct, works, if_true] using waits
        | false =>
            have kept : store.Archived key ∨ HasKey key keep := by
              cases spares works waits with
              | inl known => exact carries (HasKey.append.mpr (Or.inl known))
              | inr archived => exact Or.inl archived
            cases kept with
            | inl archived => exact Or.inl (archive archived)
            | inr stays =>
                apply Or.inr
                simpa only [submitAct, works, Bool.false_eq_true, if_false] using stays
  · apply present.imp (archived_act collate oversize calls carries spares)
    intro waits
    rw [pending_act fun sub read keep retained same => writes ⟨sub, read, keep, retained, same⟩]
    exact waits

theorem flushSound_groups {pending : List LatencyPoint} :
    FlushSound key store sub ⟨pending, [], (OrderedMap.group
      (fun point : LatencyPoint => latencySegmentStart point.checkedAt)
      (pending ++ sub.accepted)).entries⟩ where
  grouped group listed point member := by
    have items := (OrderedMap.mem_group_entries listed).1
    rw [items] at member
    exact of_decide_eq_true (List.mem_filter.mp member).2
  held := by
    rintro ⟨point, member, rfl⟩
    have own : point ∈ (pending ++ sub.accepted).filter fun other =>
        latencySegmentStart other.checkedAt = latencySegmentStart point.checkedAt :=
      List.mem_filter.mpr ⟨member, decide_eq_true rfl⟩
    have found := OrderedMap.get?_group
      (fun other : LatencyPoint => latencySegmentStart other.checkedAt)
      (latencySegmentStart point.checkedAt) (pending ++ sub.accepted)
    rw [if_neg (List.ne_nil_of_mem own)] at found
    exact Or.inr (Or.inr ⟨_, OrderedMap.get?_eq_some.mp found, point, own, rfl⟩)

theorem carries_start {results : List LatencyResult} :
    Carries key call store (submitStart env results input) := by
  unfold submitStart
  split
  · exact True.intro
  · dsimp only
    generalize (results.take 500).filterMap (acceptResult input.targets input.now) = accepted
    split
    · rename_i none
      intro member
      rw [none] at member
      exact absurd member hasKey_nil
    · split
      · exact True.intro
      · exact carries_fallback fun member => Or.inr (Or.inr member)

/-- A group that waits for its window is kept in the list. -/
theorem FlushSound.deferred {start : Int} {additions : List LatencyPoint}
    {rest : List (Int × List LatencyPoint)} (sound : FlushSound key store sub flush)
    (groups : flush.groups = (start, additions) :: rest) :
    FlushSound key store sub
      { flush with remaining := flush.remaining ++ additions, groups := rest } where
  grouped group listed := sound.grouped group (groups ▸ List.mem_cons_of_mem _ listed)
  held owed := by
    rcases sound.held owed with archived | remains | ⟨group, listed, inside⟩
    · exact Or.inl archived
    · exact Or.inr (Or.inl (HasKey.append.mpr (Or.inl remains)))
    · rw [groups] at listed
      cases List.mem_cons.mp listed with
      | inl first =>
          subst first
          exact Or.inr (Or.inl (HasKey.append.mpr (Or.inr inside)))
      | inr later => exact Or.inr (Or.inr ⟨group, later, inside⟩)

/-- A group whose segment is written leaves the flush. -/
theorem FlushSound.written {start : Int} {additions : List LatencyPoint}
    {rest : List (Int × List LatencyPoint)} {payload : Segment}
    (sound : FlushSound key store sub flush) (groups : flush.groups = (start, additions) :: rest)
    (merged : HasKey key additions → HasKey key payload.points)
    (kept : store.Archived key →
      ({ store with segments := store.segments.set start payload } : LatencyStore).Archived key) :
    FlushSound key { store with segments := store.segments.set start payload } sub
      { flush with groups := rest } where
  grouped group listed := sound.grouped group (groups ▸ List.mem_cons_of_mem _ listed)
  held owed := by
    rcases sound.held owed with archived | remains | ⟨group, listed, inside⟩
    · exact Or.inl (kept archived)
    · exact Or.inr (Or.inl remains)
    · rw [groups] at listed
      cases List.mem_cons.mp listed with
      | inr later => exact Or.inr (Or.inr ⟨group, later, inside⟩)
      | inl first =>
          subst first
          apply Or.inl
          apply Or.inl
          obtain ⟨point, member, rfl⟩ := inside
          have own : latencySegmentStart point.key.checkedAt = start :=
            sound.grouped (start, additions) (groups ▸ List.mem_cons_self) point member
          rw [inSegment_put, if_pos own]
          exact merged ⟨point, member, rfl⟩

/-- What a `SELECT` finds has a row. -/
theorem inResults_existingRows {bucket : PointKey} {candidates : List LatencyPoint}
    {chunk : List String} (found : bucket ∈ existingRows store candidates chunk) :
    (store.results.get? bucket).isSome := by
  have listed := (List.mem_filter.mp found).1
  cases stored : store.results.get? bucket with
  | none => exact absurd listed (OrderedMap.get?_eq_none.mp stored)
  | some _ => rfl

theorem carries_nextSelect {candidates : List LatencyPoint} {targetIds : List String}
    {existing : List PointKey}
    (carries : Carries key call store (.selectingRows sub candidates targetIds existing resume)) :
    Carries key call store (nextSelect sub candidates targetIds existing resume) := by
  unfold nextSelect
  split
  case isFalse => exact carries
  dsimp only
  -- A bucket that no `SELECT` has found is among the rows that are inserted.
  have rows : HasKey key (resume.owes sub) → store.Archived key ∨ HasKey key resume.keeps ∨
      HasKey key.bucket (candidates.filter fun point => point.key ∉ existing) := by
    intro owed
    rcases carries.1 owed with archived | kept | ⟨point, member, same⟩
    · exact Or.inl archived
    · exact Or.inr (Or.inl kept)
    · by_cases known : key.bucket ∈ existing
      · exact Or.inl (carries.2 known)
      · refine Or.inr (Or.inr ⟨point, List.mem_filter.mpr ⟨member, ?_⟩, same⟩)
        rw [same]
        exact decide_eq_true known
  generalize (candidates.filter fun point => point.key ∉ existing) = left at rows
  split
  · rename_i none
    apply carries_resumed
    intro owed
    rcases rows owed with archived | kept | inserted
    · exact Or.inl archived
    · exact Or.inr kept
    · rw [none] at inserted
      exact absurd inserted hasKey_nil
  · exact rows

variable (collate oversize calls) in
/-- What a call answers for after its own step. -/
theorem carries_act (carries : Carries key call store phase)
    (spares : Spares env key call store phase input) :
    Carries key call (submitAct env collate oversize calls call store phase input).1
      (submitAct env collate oversize calls call store phase input).2 := by
  have archive := archived_act collate oversize calls carries spares
  have present := present_act collate oversize calls carries spares
  cases phase with
  | waiting => exact carries_start
  | readingPending sub => exact carries_nextSegment flushSound_groups
  | readingSegment sub flush =>
      simp only [submitAct]
      split
      · exact carries_nextSegment carries
      · rename_i start additions rest groups
        split
        · exact True.intro
        · split
          · exact carries_nextSegment (carries.deferred groups)
          · refine ⟨carries, ?_, fun known => hasKey_mergeSegment (Or.inl known)⟩
            intro group first inside
            rw [groups] at first
            cases first
            exact hasKey_mergeSegment (Or.inr inside)
  | writingSegment sub flush existing payload =>
      simp only [submitAct] at archive ⊢
      split
      · exact True.intro
      · rename_i start additions rest groups
        split
        · exact True.intro
        · rename_i works
          simp only [groups, if_neg works] at archive
          apply FlushSound.written carries.1 groups _ archive
          exact carries.2.1 (start, additions) (groups ▸ rfl)
  | verifyingSegment sub flush =>
      simp only [submitAct]
      split
      · exact True.intro
      · exact carries_nextSegment carries
  | readingRetained sub =>
      simp only [submitAct]
      generalize (if input.fails then [] else parsePendingResults store.pendingResults) = pending
      apply carries_fallback
      intro owed
      exact Or.inr (hasKey_capPendingResults oversize owed)
  | selectingRows sub candidates targetIds existing resume =>
      apply carries_nextSelect
      refine ⟨carries.1, ?_⟩
      intro known
      cases List.mem_append.mp known with
      | inl before => exact carries.2 before
      | inr found =>
          cases failed : input.fails with
          | true => simp only [failed, if_true, List.not_mem_nil] at found
          | false =>
              simp only [failed, Bool.false_eq_true, if_false] at found
              exact Or.inr (inResults_existingRows found)
  | insertingRows sub rows resume =>
      simp only [submitAct] at archive ⊢
      split
      · exact carries_thrown
      · rename_i works
        simp only [if_neg works] at archive
        have inserted (owed : HasKey key (resume.owes sub)) :
            ((rows.take statementChunk).foldl LatencyStore.insertResult store).Archived key ∨
              HasKey key resume.keeps ∨ HasKey key.bucket (rows.drop statementChunk) := by
          rcases carries owed with archived | kept | waits
          · exact Or.inl (archive archived)
          · exact Or.inr (Or.inl kept)
          · rw [← List.take_append_drop statementChunk rows, HasKey.append] at waits
            cases waits with
            | inl now => exact Or.inl (Or.inr (isSome_insertResults (Or.inl now)))
            | inr later => exact Or.inr (Or.inr later)
        generalize rows.drop statementChunk = left at inserted
        dsimp only
        split
        · rename_i none
          apply carries_resumed
          intro owed
          rcases inserted owed with archived | kept | waits
          · exact Or.inl archived
          · exact Or.inr kept
          · rw [none] at waits
            exact absurd waits hasKey_nil
        · exact inserted
  | updatingPending sub read keep retained =>
      cases retained with
      | true => exact carries_fallback fun accepted => Or.inr (Or.inr accepted)
      | false =>
          cases failed : input.fails with
          | true =>
              simp only [submitAct, failed, Bool.false_eq_true, if_false, if_true]
              exact True.intro
          | false =>
              simp only [submitAct, failed, Bool.false_eq_true, if_false]
              exact fun accepted => carries (HasKey.append.mpr (Or.inr accepted))
  | touching sub =>
      simp only [submitAct] at present ⊢
      split
      · exact True.intro
      · rename_i works
        simp only [if_neg works] at present
        cases input.cleanupDue <;> exact fun accepted => present (carries accepted)
  | readingCleanup sub =>
      simp only [submitAct]
      generalize (if input.fails then 0 else store.lastCleanup) = previous
      split <;> exact carries
  | deletingOld sub =>
      simp only [submitAct] at present ⊢
      split
      · exact True.intro
      · rename_i works
        simp only [if_neg works] at present
        exact fun accepted => present (carries accepted)
  | recordingCleanup sub =>
      simp only [submitAct]
      split
      · exact True.intro
      · exact carries
  | returned sub => exact carries
  | rejected => exact True.intro

end Steps

theorem keeps_point (env : Env) (collate : String → String → Bool)
    (oversize : List LatencyPoint → Bool) (calls : Nat → List LatencyResult) (key : PointKey) :
    Keeps (submitAct env collate oversize calls) (Spares env key) (fun _ => True)
      (Carries key) where
  shared _ _ _ _ _ _ _ := True.intro
  self _ _ _ _ _ carries spares := carries_act collate oversize calls carries spares
  others _ _ _ _ _ carries spares _ _ _ waiting :=
    waiting.later (archived_act collate oversize calls carries spares)
      (present_act collate oversize calls carries spares)

/-- An accepted point of a call that has returned is in its segment, in the pending list, or in its
bucket, when every step of the run that could do away with it has read it. -/
theorem accepted_point_stored (env : Env) (collate : String → String → Bool)
    (oversize : List LatencyPoint → Bool) (calls : Nat → List LatencyResult) (key : PointKey)
    (store : LatencyStore) (events : List (Nat × SubmitInput))
    (along : Runs.Along (step (submitAct env collate oversize calls)) (Allowed (Spares env key))
      (idle store) events) (call : Nat)
    (accepted : HasKey key ((Runs.run (step (submitAct env collate oversize calls))
      (idle store) events).phase call).reported) :
    (Runs.run (step (submitAct env collate oversize calls)) (idle store) events).shared.Present
      key := by
  have opened : Invariant (fun _ => True) (Carries key) (idle store) :=
    ⟨True.intro, fun _ => True.intro⟩
  have carried := (run_invariant (keeps_point env collate oversize calls key) opened along).phase call
  generalize (Runs.run (step (submitAct env collate oversize calls)) (idle store) events).phase call
    = phase at accepted carried
  cases phase with
  | returned sub => exact carried accepted
  | _ => exact absurd accepted hasKey_nil

section Examples

private def archiving : Env := { archiveBound := true }

private def justWritten : LatencyStore where
  segments := OrderedMap.empty.set 993600 ⟨999900, []⟩

private def minutes : Nat → List LatencyResult
  | 0 => [{ targetId := "web", checkedAt := some (.finite 999990), ok := some true }]
  | _ => [{ targetId := "web", checkedAt := some (.finite 999991), ok := some true }]

private def running : SubmitInput := { now := 1000000, targets := [{ id := "web" }] }

private def failing : SubmitInput := { now := 1000000, fails := true }

private def afterCalls (events : List (Nat × SubmitInput)) : Pool LatencyStore SubmitPhase :=
  Runs.run (step (submitAct archiving (fun _ _ => true) (fun _ => false) minutes))
    (idle justWritten) events

theorem accepted_point_stored_later : (afterCalls (List.replicate 5 (0, running) ++
    List.replicate 5 (1, running))).shared.Present ⟨"web", 999990⟩ :=
  accepted_point_stored archiving _ _ minutes ⟨"web", 999990⟩ justWritten _ (by decide +kernel) 0
    (by decide +kernel)

/-- The second call fails to read the pending list, takes it to be empty, and writes back its own
point alone. -/
theorem failed_select_loses_point :
    HasKey ⟨"web", 999990⟩ ((afterCalls (List.replicate 5 (0, running) ++
        [(1, running), (1, failing), (1, running), (1, running), (1, running)])).phase 0).reported ∧
      HasKey ⟨"web", 999991⟩ ((afterCalls (List.replicate 5 (0, running) ++
        [(1, running), (1, failing), (1, running), (1, running), (1, running)])).phase 1).reported ∧
      ¬ (afterCalls (List.replicate 5 (0, running) ++
        [(1, running), (1, failing), (1, running), (1, running), (1, running)])).shared.Present
          ⟨"web", 999990⟩ := by
  decide +kernel

end Examples

end NieSla.Latency
