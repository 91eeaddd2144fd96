import NieSla.Lib.Latest
import NieSla.Telemetry.NoLostUpdate

/-! The buffer as a map from the marks to the values that were written last. A chunk is decoded, merged and encoded
again with each append; what its rows hold is a function of the latest writes alone. -/
namespace NieSla.Telemetry

open OrderedMap

def pingMark (ping : Ping) : String × Int := (ping.targetId, ping.ts)

def checkMark (check : ProxyCheck) : String × Int := (check.targetId, check.ts)

/-- The first check of the series of a chunk that a check is stored in. -/
def seriesHead (checks : List ProxyCheck) (check : ProxyCheck) : ProxyCheck :=
  ((checks.filter fun other => other.targetId = check.targetId ∧ chunkStart other.ts = chunkStart check.ts).insertionSort
    fun first second => first.ts ≤ second.ts).head?.getD check

/-- A check as a series of a chunk gives it back: the series has one name and one protocol. -/
def asStored (checks : List ProxyCheck) (check : ProxyCheck) : ProxyCheck :=
  seriesCheck (check.targetId, [seriesHead checks check]) check

@[simp] theorem asStored_targetId (checks : List ProxyCheck) (check : ProxyCheck) :
    (asStored checks check).targetId = check.targetId := rfl

@[simp] theorem asStored_ts (checks : List ProxyCheck) (check : ProxyCheck) :
    (asStored checks check).ts = check.ts := rfl

@[simp] theorem checkMark_asStored (checks : List ProxyCheck) (check : ProxyCheck) :
    checkMark (asStored checks check) = checkMark check := rfl

section Heads

variable {checks : List ProxyCheck} {check head : ProxyCheck}

/-- The check is of the series of the other. -/
def SameSeries (check other : ProxyCheck) : Prop :=
  other.targetId = check.targetId ∧ chunkStart other.ts = chunkStart check.ts

instance (check other : ProxyCheck) : Decidable (SameSeries check other) := inferInstanceAs (Decidable (_ ∧ _))

structure IsHead (checks : List ProxyCheck) (check head : ProxyCheck) : Prop where
  listed : head ∈ checks
  same : SameSeries check head
  first : ∀ other ∈ checks, SameSeries check other → head.ts ≤ other.ts

theorem isHead_seriesHead (some_ : ∃ other ∈ checks, SameSeries check other) :
    IsHead checks check (seriesHead checks check) := by
  obtain ⟨other, member, own⟩ := some_
  have inside : other ∈ checks.filter fun other =>
      other.targetId = check.targetId ∧ chunkStart other.ts = chunkStart check.ts :=
    List.mem_filter.mpr ⟨member, decide_eq_true own⟩
  unfold seriesHead
  have sorted := List.pairwise_insertionSort (fun first second : ProxyCheck => first.ts ≤ second.ts)
    (checks.filter fun other => other.targetId = check.targetId ∧ chunkStart other.ts = chunkStart check.ts)
  cases series : (checks.filter fun other =>
      other.targetId = check.targetId ∧ chunkStart other.ts = chunkStart check.ts).insertionSort
        (fun first second : ProxyCheck => first.ts ≤ second.ts) with
  | nil =>
      rw [← List.mem_insertionSort fun first second : ProxyCheck => first.ts ≤ second.ts, series] at inside
      cases inside
  | cons head rest =>
      have inside (other : ProxyCheck) : other ∈ head :: rest ↔ other ∈ checks ∧ SameSeries check other := by
        rw [← series, List.mem_insertionSort, List.mem_filter, decide_eq_true_eq]
        rfl
      rw [series] at sorted
      obtain ⟨listed, same⟩ := (inside head).mp List.mem_cons_self
      refine ⟨listed, same, fun other member own => ?_⟩
      rcases List.mem_cons.mp ((inside other).mpr ⟨member, own⟩) with rfl | later
      · exact le_rfl
      · exact (List.pairwise_cons.mp sorted).1 other later

theorem IsHead.unique {other : ProxyCheck} (distinct : (checks.map checkMark).Nodup) (first : IsHead checks check head)
    (second : IsHead checks check other) : head = other := by
  have times : head.ts = other.ts :=
    le_antisymm (first.first other second.listed second.same) (second.first head first.listed first.same)
  exact List.inj_on_of_nodup_map distinct first.listed second.listed
    (Prod.ext (first.same.1.trans second.same.1.symm) times)

theorem seriesHead_eq (distinct : (checks.map checkMark).Nodup) (isHead : IsHead checks check head) :
    seriesHead checks check = head :=
  (isHead_seriesHead ⟨head, isHead.listed, isHead.same⟩).unique distinct isHead

/-- Heads do not depend on what is not part of the marks. -/
theorem IsHead.map {stored : List ProxyCheck} {h : ProxyCheck → ProxyCheck}
    (keeps : ∀ check, checkMark (h check) = checkMark check) (perm : stored.Perm (checks.map h))
    (isHead : IsHead checks check head) : IsHead stored (h check) (h head) := by
  have targets (check : ProxyCheck) : (h check).targetId = check.targetId := congrArg Prod.fst (keeps check)
  have times (check : ProxyCheck) : (h check).ts = check.ts := congrArg Prod.snd (keeps check)
  refine ⟨perm.mem_iff.mpr (List.mem_map_of_mem isHead.listed), ?_, fun other member same => ?_⟩
  · have same := isHead.same
    unfold SameSeries at same ⊢
    rwa [targets, targets, times, times]
  · obtain ⟨source, listed, rfl⟩ := List.mem_map.mp (perm.mem_iff.mp member)
    unfold SameSeries at same
    rw [targets, targets, times, times] at same
    rw [times, times]
    exact isHead.first source listed same

theorem seriesHead_map {stored : List ProxyCheck} {h : ProxyCheck → ProxyCheck}
    (keeps : ∀ check, checkMark (h check) = checkMark check) (distinct : (checks.map checkMark).Nodup)
    (perm : stored.Perm (checks.map h)) (member : check ∈ checks) :
    seriesHead stored (h check) = h (seriesHead checks check) := by
  have apart : (stored.map checkMark).Nodup := by
    rw [(perm.map checkMark).nodup_iff, map_key_map keeps]
    exact distinct
  exact seriesHead_eq apart ((isHead_seriesHead ⟨check, member, rfl, rfl⟩).map keeps perm)

end Heads

/-! What a series keeps of a check that came from a series. -/

theorem seriesCheck_seriesCheck (targetId : String) (list other : List ProxyCheck) (check : ProxyCheck) :
    seriesCheck (targetId, list) (seriesCheck (targetId, other) check) = seriesCheck (targetId, list) check := by
  cases error : check.error <;> simp [seriesCheck, error]

/-- A series that is headed by a check of another series has the name and the protocol of that one. -/
theorem seriesCheck_head {targetId : String} (named : targetId ≠ "") (head check : ProxyCheck) :
    seriesCheck (targetId, [seriesCheck (targetId, [head]) head]) check = seriesCheck (targetId, [head]) check := by
  have whole : (proxyCheckSeries (targetId, [head])).name ≠ "" := by
    apply cut_ne_empty (by decide)
    split_ifs with unnamed
    · exact named
    · exact unnamed
  have stem : (seriesCheck (targetId, [head]) head).name = (proxyCheckSeries (targetId, [head])).name := if_neg whole
  have name : (proxyCheckSeries (targetId, [seriesCheck (targetId, [head]) head])).name =
      (proxyCheckSeries (targetId, [head])).name := by
    show cut 96 (if (seriesCheck (targetId, [head]) head).name = "" then targetId
      else (seriesCheck (targetId, [head]) head).name) = _
    rw [stem, if_neg whole]
    exact cut_cut 96 _
  have protocol : (proxyCheckSeries (targetId, [seriesCheck (targetId, [head]) head])).protocol =
      (proxyCheckSeries (targetId, [head])).protocol := cut_cut 24 head.protocol
  unfold seriesCheck at name protocol ⊢
  dsimp only at name protocol ⊢
  rw [name, protocol]

section Chunk

variable {collate : String → String → Bool}

/-- The groups of the targets hold the items that name one. -/
theorem perm_targetGroups {α : Type} (targetId : α → String) (ts : α → Int) (items : List α) :
    ((targetGroups collate targetId ts items).flatMap Prod.snd).Perm (items.filter fun item => targetId item ≠ "") := by
  unfold targetGroups
  rw [List.flatMap_map]
  refine (List.Perm.flatMap_left _ fun entry _ => List.perm_insertionSort _ entry.2).trans ?_
  exact ((List.perm_insertionSort _ _).flatMap_right Prod.snd).trans (perm_group _ _)

theorem pingsFromPayload_perm {pings : List Ping} (named : ∀ ping ∈ pings, ping.targetId ≠ "") :
    (pingsFromPayload (pingPointsToSeries collate pings)).Perm pings := by
  have decoded : pingsFromPayload (pingPointsToSeries collate pings) =
      (targetGroups collate Ping.targetId Ping.ts pings).flatMap Prod.snd := by
    rw [pingsFromPayload, pingPointsToSeries, List.flatMap_map]
    exact List.flatMap_congr fun entry listed =>
      pingsOfSeries_pingSeries fun ping member => targetId_of_mem_targetGroups listed member
  rw [decoded]
  refine (perm_targetGroups _ _ _).trans ?_
  rw [List.filter_eq_self.mpr fun ping member => by simp [named ping member]]

/-- The checks of a target, from the first on. -/
theorem sorted_of_mem_targetGroups {α : Type} {targetId : α → String} {ts : α → Int} {items : List α}
    {entry : String × List α} (listed : entry ∈ targetGroups collate targetId ts items) :
    entry.2 = (items.filter fun item => targetId item = entry.1).insertionSort fun first second => ts first ≤ ts second := by
  obtain ⟨group, inside, rfl⟩ := List.mem_map.mp listed
  obtain ⟨own, filled⟩ := mem_group_entries ((List.mem_insertionSort _).mp inside)
  obtain ⟨item, member⟩ := List.exists_mem_of_ne_nil _ filled
  rw [own] at member
  obtain ⟨kept, same⟩ := List.mem_filter.mp member
  have named : group.1 ≠ "" := by
    rw [← of_decide_eq_true same]
    simpa using (List.mem_filter.mp kept).2
  dsimp only
  rw [own, List.filter_filter]
  congr 1
  apply List.filter_congr
  intro other _
  by_cases here : targetId other = group.1
  · simp [here, named]
  · simp [here]

theorem seriesCheck_congr {first second : String × List ProxyCheck} {check : ProxyCheck} (same : first.1 = second.1)
    (head : first.2.head? = second.2.head?) : seriesCheck first check = seriesCheck second check := by
  unfold seriesCheck proxyCheckSeries
  rw [same, head]

/-- The series of the checks of a chunk, decoded. -/
theorem proxyChecksFromPayload_perm {checks : List ProxyCheck} {chunk : Int}
    (within : ∀ check ∈ checks, check.targetId ≠ "" ∧ 0 < check.ts ∧ chunkStart check.ts = chunk) :
    (proxyChecksFromPayload (proxyChecksToSeries collate checks)).Perm (checks.map (asStored checks)) := by
  have decoded : proxyChecksFromPayload (proxyChecksToSeries collate checks) =
      ((targetGroups collate ProxyCheck.targetId ProxyCheck.ts checks).flatMap Prod.snd).map (asStored checks) := by
    rw [proxyChecksFromPayload, proxyChecksToSeries, List.flatMap_map, List.map_flatMap]
    refine List.flatMap_congr fun entry listed => ?_
    have inside (check : ProxyCheck) (member : check ∈ entry.2) : check ∈ checks ∧ check.targetId ≠ "" :=
      mem_targetGroups.mp ⟨entry, listed, member⟩
    have own (check : ProxyCheck) (member : check ∈ entry.2) : check.targetId = entry.1 :=
      targetId_of_mem_targetGroups listed member
    by_cases empty : entry.2 = []
    · simp [checksOfSeries, proxyCheckSeries, empty]
    obtain ⟨some_, among⟩ := List.exists_mem_of_ne_nil _ empty
    have named : entry.1 ≠ "" := own some_ among ▸ (inside some_ among).2
    rw [checksOfSeries_proxyCheckSeries named fun check member => (within check (inside check member).1).2.1]
    refine List.map_congr_left fun check member => seriesCheck_congr (own check member).symm ?_
    -- the checks of the series of a check are those of its target
    have series : (checks.filter fun other => other.targetId = check.targetId ∧ chunkStart other.ts = chunkStart check.ts) =
        checks.filter fun other => other.targetId = entry.1 := by
      apply List.filter_congr
      intro other among
      rw [own check member, (within other among).2.2, (within check (inside check member).1).2.2]
      simp
    have head : seriesHead checks check = entry.2.head?.getD check := by
      rw [seriesHead, series, sorted_of_mem_targetGroups listed]
    rw [head]
    cases list : entry.2 with
    | nil => exact absurd list empty
    | cons first rest => rfl
  rw [decoded]
  refine ((perm_targetGroups _ _ _).map _).trans ?_
  rw [List.filter_eq_self.mpr fun check member => by simp [(within check member).1]]

/-- The entries are of this chunk, and they are such as an append takes. -/
def OfChunk (chunk : Int) (batch : Batch) : Prop :=
  ∀ mark ∈ batch.marks, 0 < mark.ts ∧ mark.Named ∧ chunkStart mark.ts = chunk

/-- Columns over points of a chunk lose nothing of them. -/
def Lossless (points : List MetricPoint) : Prop :=
  ∀ list ⊆ points, (list.map MetricPoint.ts).Nodup →
    (∀ first ∈ list, ∀ second ∈ list, chunkStart first.ts = chunkStart second.ts) →
    metricsFromPayload (metricPointsToColumns list) = byTs list

/-- The checks that the series of a chunk give back for those that were written. -/
def storedChecks (checks : List ProxyCheck) : List ProxyCheck :=
  (latest checkMark checks).map (asStored (latest checkMark checks))

/-- What is stored is the latest of what was written. -/
structure Held (data stored : Batch) : Prop where
  points : stored.points.Perm (latest MetricPoint.ts data.points)
  pings : stored.pings.Perm (latest pingMark data.pings)
  proxyChecks : stored.proxyChecks.Perm (storedChecks data.proxyChecks)

section Merge

variable {chunk : Int} {data stored incoming : Batch}

theorem within_of_chunkStart {ts : Int} (same : chunkStart ts = chunk) : chunk ≤ ts ∧ ts < chunk + chunkSec :=
  same ▸ within_chunk ts

theorem OfChunk.append (old : OfChunk chunk data) (new : OfChunk chunk incoming) :
    OfChunk chunk (data.append incoming) := fun mark member =>
  (mem_marks_append.mp member).elim (old mark) (new mark)

theorem OfChunk.point (old : OfChunk chunk data) {point : MetricPoint} (member : point ∈ data.points) :
    chunkStart point.ts = chunk :=
  (old (.point point.ts) (mem_marks_point.mpr ⟨point, member, rfl⟩)).2.2

theorem OfChunk.ping (old : OfChunk chunk data) {ping : Ping} (member : ping ∈ data.pings) :
    ping.targetId ≠ "" ∧ chunkStart ping.ts = chunk :=
  (old (.ping ping.targetId ping.ts) (mem_marks_ping.mpr ⟨ping, member, rfl, rfl⟩)).2

theorem OfChunk.proxyCheck (old : OfChunk chunk data) {check : ProxyCheck} (member : check ∈ data.proxyChecks) :
    check.targetId ≠ "" ∧ 0 < check.ts ∧ chunkStart check.ts = chunk := by
  obtain ⟨positive, named, same⟩ :=
    old (.proxyCheck check.targetId check.ts) (mem_marks_proxyCheck.mpr ⟨check, member, rfl, rfl⟩)
  exact ⟨named, positive, same⟩

theorem mem_storedChecks {checks : List ProxyCheck} {check : ProxyCheck} (member : check ∈ storedChecks checks) :
    ∃ source ∈ checks, source.targetId = check.targetId ∧ source.ts = check.ts := by
  obtain ⟨source, listed, rfl⟩ := List.mem_map.mp member
  exact ⟨source, mem_of_mem_latest listed, (asStored_targetId _ _).symm, (asStored_ts _ _).symm⟩

variable (collate) (held : Held data stored) (old : OfChunk chunk data) (new : OfChunk chunk incoming)

include held old new

/-- What a merge takes is within its span. -/
theorem Held.mergeBuffer_points :
    (mergeBuffer collate stored incoming chunk chunkSec).points.Perm
      (latest MetricPoint.ts (data.append incoming).points) := by
  have inside : ∀ point ∈ stored.points ++ incoming.points, chunk ≤ point.ts ∧ point.ts < chunk + chunkSec := by
    intro point member
    apply within_of_chunkStart
    rcases List.mem_append.mp member with kept | added
    · exact old.point (mem_of_mem_latest (held.points.mem_iff.mp kept))
    · exact new.point added
  refine (List.perm_insertionSort _ _).trans ?_
  show (latest MetricPoint.ts ((stored.points ++ incoming.points).filter _)).Perm _
  rw [List.filter_eq_self.mpr fun point member => decide_eq_true (inside point member)]
  exact latest_append_perm held.points

theorem Held.mergeBuffer_pings :
    (mergeBuffer collate stored incoming chunk chunkSec).pings.Perm (latest pingMark (data.append incoming).pings) := by
  have inside : ∀ ping ∈ stored.pings ++ incoming.pings,
      ping.targetId ≠ "" ∧ chunk ≤ ping.ts ∧ ping.ts < chunk + chunkSec := by
    intro ping member
    have known : ping.targetId ≠ "" ∧ chunkStart ping.ts = chunk := by
      rcases List.mem_append.mp member with kept | added
      · exact old.ping (mem_of_mem_latest (held.pings.mem_iff.mp kept))
      · exact new.ping added
    exact ⟨known.1, within_of_chunkStart known.2⟩
  refine (List.perm_insertionSort _ _).trans ?_
  show (latest pingMark ((stored.pings ++ incoming.pings).filter _)).Perm _
  rw [List.filter_eq_self.mpr fun ping member => by simpa using inside ping member]
  exact latest_append_perm held.pings

/-- The merged checks: those that are not written again are as the series gave them back. -/
theorem Held.mergeBuffer_proxyChecks :
    (mergeBuffer collate stored incoming chunk chunkSec).proxyChecks.Perm
      ((latest checkMark (data.append incoming).proxyChecks).map
        (carried checkMark (asStored (latest checkMark data.proxyChecks)) incoming.proxyChecks)) := by
  have inside : ∀ check ∈ stored.proxyChecks ++ incoming.proxyChecks,
      check.targetId ≠ "" ∧ chunk ≤ check.ts ∧ check.ts < chunk + chunkSec := by
    intro check member
    have known : check.targetId ≠ "" ∧ chunkStart check.ts = chunk := by
      rcases List.mem_append.mp member with kept | added
      · obtain ⟨source, written, target, time⟩ := mem_storedChecks (held.proxyChecks.mem_iff.mp kept)
        obtain ⟨named, -, same⟩ := old.proxyCheck written
        rw [← target, ← time]
        exact ⟨named, same⟩
      · exact ⟨(new.proxyCheck added).1, (new.proxyCheck added).2.2⟩
    exact ⟨known.1, within_of_chunkStart known.2⟩
  refine (List.perm_insertionSort _ _).trans ?_
  show (latest checkMark ((stored.proxyChecks ++ incoming.proxyChecks).filter _)).Perm _
  rw [List.filter_eq_self.mpr fun check member => by simpa using inside check member]
  have stands : stored.proxyChecks.Perm
      ((latest checkMark data.proxyChecks).map (asStored (latest checkMark data.proxyChecks))) := held.proxyChecks
  exact latest_append_map_perm (checkMark_asStored _) stands

omit held old new in
/-- The head of a series that is not written again headed its series before. -/
theorem seriesHead_of_not_rewritten {checks more : List ProxyCheck} {check : ProxyCheck}
    (member : check ∈ latest checkMark (checks ++ more))
    (kept : lastBy checkMark (checkMark (seriesHead (latest checkMark (checks ++ more)) check)) more = none) :
    seriesHead (latest checkMark checks) (seriesHead (latest checkMark (checks ++ more)) check) =
      seriesHead (latest checkMark (checks ++ more)) check := by
  have isHead := isHead_seriesHead ⟨check, member, rfl, rfl⟩
  generalize seriesHead (latest checkMark (checks ++ more)) check = head at kept isHead ⊢
  have listed : head ∈ latest checkMark checks := by
    have found := mem_latest.mp isHead.listed
    rw [lastBy_append, kept, Option.none_or] at found
    exact mem_latest.mpr found
  refine seriesHead_eq (nodup_latest checkMark checks) ⟨listed, ⟨rfl, rfl⟩, fun other among same => ?_⟩
  obtain ⟨last, inside, mark⟩ : ∃ last ∈ latest checkMark (checks ++ more), checkMark last = checkMark other :=
    exists_latest (List.mem_append_left more (mem_of_mem_latest among))
  obtain ⟨target, time⟩ := Prod.ext_iff.mp mark
  dsimp only [checkMark] at target time
  rw [← time]
  refine isHead.first last inside ⟨?_, ?_⟩
  · rw [target, same.1, isHead.same.1]
  · rw [time, same.2, isHead.same.2]

omit held old new in
/-- A check that was stored before is stored again as it would be from what was written. -/
theorem asStored_carried {checks more merged : List ProxyCheck} {check : ProxyCheck}
    (perm : merged.Perm ((latest checkMark (checks ++ more)).map
      (carried checkMark (asStored (latest checkMark checks)) more)))
    (member : check ∈ latest checkMark (checks ++ more)) (named : check.targetId ≠ "") :
    asStored merged (carried checkMark (asStored (latest checkMark checks)) more check) =
      asStored (latest checkMark (checks ++ more)) check := by
  have keeps := key_carried (checkMark_asStored (latest checkMark checks)) more
  have again (list : List ProxyCheck) :
      seriesCheck (check.targetId, list) (carried checkMark (asStored (latest checkMark checks)) more check) =
        seriesCheck (check.targetId, list) check := by
    unfold carried
    split_ifs
    · exact seriesCheck_seriesCheck _ _ _ _
    · rfl
  have target : (carried checkMark (asStored (latest checkMark checks)) more check).targetId = check.targetId :=
    congrArg Prod.fst (keeps check)
  have isHead : IsHead (latest checkMark (checks ++ more)) check _ := isHead_seriesHead ⟨check, member, rfl, rfl⟩
  rw [asStored, asStored, target, again, seriesHead_map keeps (nodup_latest checkMark _) perm member]
  unfold carried
  split_ifs with kept
  · rw [asStored, seriesHead_of_not_rewritten member kept, isHead.same.1]
    exact seriesCheck_head named _ check
  · rfl

theorem Held.storedChecks_mergeBuffer :
    ((mergeBuffer collate stored incoming chunk chunkSec).proxyChecks.map
      (asStored (mergeBuffer collate stored incoming chunk chunkSec).proxyChecks)).Perm
      (storedChecks (data.append incoming).proxyChecks) := by
  have perm := held.mergeBuffer_proxyChecks collate old new
  refine (perm.map _).trans ?_
  rw [List.map_map, storedChecks]
  refine List.Perm.of_eq (List.map_congr_left fun check member => asStored_carried perm member ?_)
  exact ((old.append new).proxyCheck (mem_of_mem_latest member)).1

/-- An append replaces the latest writes of a chunk by those with the appended ones. -/
theorem Held.append (lossless : Lossless (data.append incoming).points) :
    Held (data.append incoming) (unpack (pack collate (mergeBuffer collate stored incoming chunk chunkSec))) := by
  have whole := old.append new
  have points := held.mergeBuffer_points collate old new
  have pings := held.mergeBuffer_pings collate old new
  have checks := held.mergeBuffer_proxyChecks collate old new
  have each : ∀ check ∈ (mergeBuffer collate stored incoming chunk chunkSec).proxyChecks,
      check.targetId ≠ "" ∧ 0 < check.ts ∧ chunkStart check.ts = chunk := by
    intro check member
    obtain ⟨source, listed, rfl⟩ := List.mem_map.mp (checks.mem_iff.mp member)
    have mark := key_carried (checkMark_asStored (latest checkMark data.proxyChecks)) incoming.proxyChecks source
    obtain ⟨target, time⟩ := Prod.ext_iff.mp mark
    dsimp only [checkMark] at target time
    rw [target, time]
    exact whole.proxyCheck (mem_of_mem_latest listed)
  refine ⟨?_, ?_, ?_⟩
  · show (metricsFromPayload (metricPointsToColumns (mergeBuffer collate stored incoming chunk chunkSec).points)).Perm _
    rw [lossless]
    · exact (List.perm_insertionSort _ _).trans points
    · exact fun point member => mem_of_mem_latest (points.mem_iff.mp member)
    · exact (points.map _).nodup_iff.mpr (nodup_latest _ _)
    · intro first left second right
      rw [whole.point (mem_of_mem_latest (points.mem_iff.mp left)),
        whole.point (mem_of_mem_latest (points.mem_iff.mp right))]
  · exact (pingsFromPayload_perm fun ping member =>
      (whole.ping (mem_of_mem_latest (pings.mem_iff.mp member))).1).trans pings
  · exact (proxyChecksFromPayload_perm each).trans (held.storedChecks_mergeBuffer collate old new)

end Merge

end Chunk

end NieSla.Telemetry
