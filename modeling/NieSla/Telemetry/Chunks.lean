import NieSla.Telemetry.Columns
import NieSla.Telemetry.Series
import NieSla.Util.Ids

/-! The buffered chunks of the agents: how points, pings and proxy checks are grouped by time,
merged and packed into columns. -/
namespace NieSla.Telemetry

def hourSec : Int := 3600

def chunkSec : Int := 300

def hourStart (ts : Int) : Int := ts / hourSec * hourSec

def chunkStart (ts : Int) : Int := ts / chunkSec * chunkSec

/-- What tells the entries of a buffer apart. -/
inductive Mark where
  | point (ts : Int)
  | ping (targetId : String) (ts : Int)
  | proxyCheck (targetId : String) (ts : Int)
deriving DecidableEq

def Mark.ts : Mark → Int
  | .point ts | .ping _ ts | .proxyCheck _ ts => ts

/-- A ping or a check names its target. -/
def Mark.Named : Mark → Prop
  | .point _ => True
  | .ping targetId _ | .proxyCheck targetId _ => targetId ≠ ""

instance : DecidablePred Mark.Named
  | .point _ => .isTrue trivial
  | .ping _ _ | .proxyCheck _ _ => inferInstanceAs (Decidable (_ ≠ _))

structure Batch where
  points : List MetricPoint := []
  pings : List Ping := []
  proxyChecks : List ProxyCheck := []
deriving DecidableEq

inductive Datum where
  | point (point : MetricPoint)
  | ping (ping : Ping)
  | proxyCheck (check : ProxyCheck)

def Datum.mark : Datum → Mark
  | .point item => .point item.ts
  | .ping item => .ping item.targetId item.ts
  | .proxyCheck check => .proxyCheck check.targetId check.ts

namespace Batch

def data (batch : Batch) : List Datum :=
  batch.points.map .point ++ batch.pings.map .ping ++ batch.proxyChecks.map .proxyCheck

def ofData (data : List Datum) : Batch where
  points := data.filterMap fun | .point point => some point | _ => none
  pings := data.filterMap fun | .ping ping => some ping | _ => none
  proxyChecks := data.filterMap fun | .proxyCheck check => some check | _ => none

def marks (batch : Batch) : List Mark := batch.data.map Datum.mark

def append (first second : Batch) : Batch :=
  ⟨first.points ++ second.points, first.pings ++ second.pings,
    first.proxyChecks ++ second.proxyChecks⟩

end Batch

/-- Each entry goes to the chunk of its time; one without a positive time or a target is left
out. -/
def groupByChunk (batch : Batch) : OrderedMap Int (List Datum) :=
  OrderedMap.group (fun datum => chunkStart datum.mark.ts)
    (batch.data.filter fun datum => 0 < datum.mark.ts ∧ datum.mark.Named)

section Buffer

variable (collate : String → String → Bool)

/-- `Number(a.ts) - Number(b.ts) || a.target_id.localeCompare(b.target_id)` -/
def tsThenTarget {α : Type} (targetId : α → String) (ts : α → Int) (first second : α) : Prop :=
  ts first < ts second ∨ ts first = ts second ∧ collate (targetId first) (targetId second) = true

instance {α : Type} (targetId : α → String) (ts : α → Int) :
    DecidableRel (tsThenTarget collate targetId ts) :=
  fun _ _ => inferInstanceAs (Decidable (_ ∨ _ ∧ _))

/-- The entries of a span of time, a later one replacing an earlier one. -/
def mergeBuffer (existing incoming : Batch) (start duration : Int) : Batch :=
  let both := existing.append incoming
  let within (ts : Int) : Bool := start ≤ ts ∧ ts < start + duration
  { points := byTs (OrderedMap.collect MetricPoint.ts
      (both.points.filter fun point => within point.ts)).values
    pings := (OrderedMap.collect (fun ping : Ping => (ping.targetId, ping.ts))
      (both.pings.filter fun ping => ping.targetId ≠ "" ∧ within ping.ts)).values.insertionSort
        (tsThenTarget collate Ping.targetId Ping.ts)
    proxyChecks := (OrderedMap.collect (fun check : ProxyCheck => (check.targetId, check.ts))
      (both.proxyChecks.filter fun check =>
        check.targetId ≠ "" ∧ within check.ts)).values.insertionSort
          (tsThenTarget collate ProxyCheck.targetId ProxyCheck.ts) }

/-- The columns of a chunk row and of the R2 object of an hour. -/
structure Packed where
  metricSeries : MetricColumns
  pingSeries : List PingSeries
  proxyCheckSeries : List ProxyCheckSeries
deriving DecidableEq

/-- `compactBuffer` -/
def pack (batch : Batch) : Packed :=
  ⟨metricPointsToColumns batch.points, pingPointsToSeries collate batch.pings,
    proxyChecksToSeries collate batch.proxyChecks⟩

/-- `bufferPoints`, `bufferPings` and `bufferProxyChecks` -/
def unpack (packed : Packed) : Batch :=
  ⟨metricsFromPayload packed.metricSeries, pingsFromPayload packed.pingSeries,
    proxyChecksFromPayload packed.proxyCheckSeries⟩

end Buffer

/-! Marks. -/

theorem mem_marks_point {batch : Batch} {ts : Int} :
    Mark.point ts ∈ batch.marks ↔ ∃ point ∈ batch.points, point.ts = ts := by
  simp [Batch.marks, Batch.data, Datum.mark]

theorem mem_marks_ping {batch : Batch} {targetId : String} {ts : Int} :
    Mark.ping targetId ts ∈ batch.marks ↔
      ∃ ping ∈ batch.pings, ping.targetId = targetId ∧ ping.ts = ts := by
  simp [Batch.marks, Batch.data, Datum.mark]

theorem mem_marks_proxyCheck {batch : Batch} {targetId : String} {ts : Int} :
    Mark.proxyCheck targetId ts ∈ batch.marks ↔
      ∃ check ∈ batch.proxyChecks, check.targetId = targetId ∧ check.ts = ts := by
  simp [Batch.marks, Batch.data, Datum.mark]

theorem mem_marks_append {first second : Batch} {mark : Mark} :
    mark ∈ (first.append second).marks ↔ mark ∈ first.marks ∨ mark ∈ second.marks := by
  simp only [Batch.marks, Batch.data, Batch.append, List.map_append, List.mem_append]
  tauto

theorem marks_ofData (data : List Datum) (mark : Mark) :
    mark ∈ (Batch.ofData data).marks ↔ mark ∈ data.map Datum.mark := by
  cases mark with
  | point ts =>
      simp only [mem_marks_point, Batch.ofData, List.mem_filterMap, List.mem_map]
      constructor
      · rintro ⟨point, ⟨datum, member, found⟩, rfl⟩
        cases datum <;> cases found
        exact ⟨_, member, rfl⟩
      · rintro ⟨datum, member, same⟩
        cases datum <;> cases same
        exact ⟨_, ⟨_, member, rfl⟩, rfl⟩
  | ping targetId ts =>
      simp only [mem_marks_ping, Batch.ofData, List.mem_filterMap, List.mem_map]
      constructor
      · rintro ⟨ping, ⟨datum, member, found⟩, rfl, rfl⟩
        cases datum <;> cases found
        exact ⟨_, member, rfl⟩
      · rintro ⟨datum, member, same⟩
        cases datum <;> cases same
        exact ⟨_, ⟨_, member, rfl⟩, rfl, rfl⟩
  | proxyCheck targetId ts =>
      simp only [mem_marks_proxyCheck, Batch.ofData, List.mem_filterMap, List.mem_map]
      constructor
      · rintro ⟨check, ⟨datum, member, found⟩, rfl, rfl⟩
        cases datum <;> cases found
        exact ⟨_, member, rfl⟩
      · rintro ⟨datum, member, same⟩
        cases datum <;> cases same
        exact ⟨_, ⟨_, member, rfl⟩, rfl, rfl⟩

section Merge

variable {collate : String → String → Bool}

private theorem exists_values_collect {α κ : Type} [DecidableEq κ] (key : α → κ) (items : List α)
    (k : κ) : (∃ item ∈ (OrderedMap.collect key items).values, key item = k) ↔
      ∃ item ∈ items, key item = k := by
  constructor
  · rintro ⟨item, member, same⟩
    exact ⟨item, OrderedMap.mem_of_lastBy (OrderedMap.mem_values_collect.mp member), same⟩
  · intro some_
    obtain ⟨item, last⟩ := Option.isSome_iff_exists.mp (OrderedMap.lastBy_isSome.mpr some_)
    have same := OrderedMap.key_of_lastBy last
    exact ⟨item, OrderedMap.mem_values_collect.mpr (same.symm ▸ last), same⟩

private theorem exists_targeted {α : Type} (targetId : α → String) (ts : α → Int) (keep : α → Bool)
    (items : List α) (target : String) (at_ : Int) :
    (∃ item ∈ (OrderedMap.collect (fun item => (targetId item, ts item))
        (items.filter keep)).values.insertionSort (tsThenTarget collate targetId ts),
        targetId item = target ∧ ts item = at_) ↔
      ∃ item ∈ items, keep item = true ∧ targetId item = target ∧ ts item = at_ := by
  have collected := exists_values_collect (fun item => (targetId item, ts item))
    (items.filter keep) (target, at_)
  simp only [Prod.mk.injEq, List.mem_filter, and_assoc] at collected
  simp only [List.mem_insertionSort]
  exact collected

/-- A merged buffer has the marks of both buffers that fall into its span. -/
theorem mem_marks_mergeBuffer {existing incoming : Batch} {start duration : Int} {mark : Mark} :
    mark ∈ (mergeBuffer collate existing incoming start duration).marks ↔
      (mark ∈ existing.marks ∨ mark ∈ incoming.marks) ∧ mark.Named ∧ start ≤ mark.ts ∧
        mark.ts < start + duration := by
  rw [← mem_marks_append]
  unfold mergeBuffer
  generalize existing.append incoming = both
  dsimp only
  cases mark with
  | point ts =>
      have collected := exists_values_collect MetricPoint.ts
        (both.points.filter fun point => decide (start ≤ point.ts ∧ point.ts < start + duration)) ts
      simp only [mem_marks_point, mem_byTs, collected, List.mem_filter, decide_eq_true_eq,
        Mark.Named, Mark.ts, true_and]
      constructor
      · rintro ⟨point, ⟨member, within⟩, rfl⟩
        exact ⟨⟨point, member, rfl⟩, within⟩
      · rintro ⟨⟨point, member, rfl⟩, within⟩
        exact ⟨point, ⟨member, within⟩, rfl⟩
  | ping targetId ts =>
      rw [mem_marks_ping, mem_marks_ping, exists_targeted Ping.targetId Ping.ts]
      simp only [decide_eq_true_eq, Mark.Named, Mark.ts]
      constructor
      · rintro ⟨ping, member, ⟨named, within⟩, rfl, rfl⟩
        exact ⟨⟨ping, member, rfl, rfl⟩, named, within⟩
      · rintro ⟨⟨ping, member, rfl, rfl⟩, named, within⟩
        exact ⟨ping, member, ⟨named, within⟩, rfl, rfl⟩
  | proxyCheck targetId ts =>
      rw [mem_marks_proxyCheck, mem_marks_proxyCheck,
        exists_targeted ProxyCheck.targetId ProxyCheck.ts]
      simp only [decide_eq_true_eq, Mark.Named, Mark.ts]
      constructor
      · rintro ⟨check, member, ⟨named, within⟩, rfl, rfl⟩
        exact ⟨⟨check, member, rfl, rfl⟩, named, within⟩
      · rintro ⟨⟨check, member, rfl, rfl⟩, named, within⟩
        exact ⟨check, member, ⟨named, within⟩, rfl, rfl⟩

/-- Packing keeps the marks. -/
theorem mem_marks_unpack_pack {batch : Batch} {mark : Mark}
    (positive : ∀ mark ∈ batch.marks, 0 < mark.ts) :
    mark ∈ (unpack (pack collate batch)).marks ↔ mark ∈ batch.marks ∧ mark.Named := by
  cases mark with
  | point ts =>
      simp only [mem_marks_point, unpack, pack, metricsFromPayload_metricPointsToColumns,
        Mark.Named, and_true, List.mem_map]
      constructor
      · rintro ⟨_, ⟨point, member, rfl⟩, rfl⟩
        exact ⟨point, mem_byTs.mp member, rfl⟩
      · rintro ⟨point, member, rfl⟩
        exact ⟨_, ⟨point, mem_byTs.mpr member, rfl⟩, rfl⟩
  | ping targetId ts =>
      simp only [mem_marks_ping, unpack, pack, mem_pingsFromPayload, Mark.Named]
      constructor
      · rintro ⟨ping, ⟨member, named⟩, rfl, rfl⟩
        exact ⟨⟨ping, member, rfl, rfl⟩, named⟩
      · rintro ⟨⟨ping, member, rfl, rfl⟩, named⟩
        exact ⟨ping, ⟨member, named⟩, rfl, rfl⟩
  | proxyCheck targetId ts =>
      have every : ∀ check ∈ batch.proxyChecks, 0 < check.ts := fun check member =>
        positive (.proxyCheck check.targetId check.ts) (mem_marks_proxyCheck.mpr ⟨check, member, rfl, rfl⟩)
      simp only [mem_marks_proxyCheck, unpack, pack, exists_proxyChecksFromPayload every, Mark.Named]
      exact and_comm

end Merge

end NieSla.Telemetry
