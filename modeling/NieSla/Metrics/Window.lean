import NieSla.Util.Number

/-! The points of a report that are taken: those of the last seven days, and of these the newest hours. -/
namespace NieSla.Metrics

section Window

def maxTelemetryHoursPerReport : Nat := 25
def maxTelemetryAgeSec : Int := 7 * 86400
def maxTelemetryFutureSec : Int := 300
def maxAgentPingsPerReport : Nat := 5000

def hourStartSec (ts : Int) : Int := ts / 3600 * 3600

/-- The timestamp that a number is read as; one that is not finite or not positive is none. -/
def timestamp : JsNumber → Option Int
  | .finite value => if 0 < ⌊value⌋ then some ⌊value⌋ else none
  | _ => none

def inWindow (now ts : Int) : Bool := now - maxTelemetryAgeSec ≤ ts && ts ≤ now + maxTelemetryFutureSec

/-- What `keep` makes a candidate, with its timestamp. -/
def candidate (now : Int) (ts : JsNumber) : Option Int := (timestamp ts).filter (inWindow now)

/-- The hours of the candidates, if they are too many: the newest of them. -/
def allowedBuckets (candidates : List Int) : Option (List Int) :=
  let allBuckets := (candidates.map hourStartSec).dedup
  if maxTelemetryHoursPerReport < allBuckets.length then
    some ((allBuckets.insertionSort (· ≥ ·)).take maxTelemetryHoursPerReport)
  else none

def allowed (buckets : Option (List Int)) (ts : Int) : Bool :=
  match buckets with
  | none => true
  | some buckets => hourStartSec ts ∈ buckets

end Window

section Batch

/-- The points are the source's own; of each only `Number(point?.ts || 0)` is read. -/
class Stamped (α : Type) where
  ts : α → JsNumber

variable {σ π χ α : Type} [Stamped σ] [Stamped π] [Stamped χ] [Stamped α]

structure TelemetryBatch (σ π χ : Type) where
  samples : List σ
  pings : List π
  proxyChecks : List χ
  dropped : Nat

/-- The first pass: the candidates of a list, and how many points are none. -/
def keep (now : Int) (points : List α) : List (α × Int) × Nat :=
  (points.filterMap fun point => (candidate now (Stamped.ts point)).map (point, ·),
    points.countP fun point => (candidate now (Stamped.ts point)).isNone)

/-- The second pass: what goes to the sink of a list, and how many do not. -/
def select (buckets : Option (List Int)) (candidates : List (α × Int)) : List α × Nat :=
  ((candidates.filter fun entry => allowed buckets entry.2).map Prod.fst,
    candidates.countP fun entry => !allowed buckets entry.2)

def filterTelemetryBatch (samples : List σ) (pings : List π) (proxyChecks : List χ) (now : Int) :
    Except String (TelemetryBatch σ π χ) :=
  if maxAgentPingsPerReport < pings.length then .error s!"too many pings; max {maxAgentPingsPerReport}"
  else
    let (sampleCandidates, droppedSamples) := keep now samples
    let (pingCandidates, droppedPings) := keep now pings
    let (checkCandidates, droppedChecks) := keep now proxyChecks
    let buckets := allowedBuckets
      (sampleCandidates.map Prod.snd ++ pingCandidates.map Prod.snd ++ checkCandidates.map Prod.snd)
    let (keptSamples, lateSamples) := select buckets sampleCandidates
    let (keptPings, latePings) := select buckets pingCandidates
    let (keptChecks, lateChecks) := select buckets checkCandidates
    .ok ⟨keptSamples, keptPings, keptChecks,
      droppedSamples + droppedPings + droppedChecks + (lateSamples + latePings + lateChecks)⟩

end Batch

/-! Both passes take a point by its number alone. -/

section Passes

variable {α : Type} [Stamped α] {now : Int} {buckets : Option (List Int)}

def taken (now : Int) (buckets : Option (List Int)) (number : JsNumber) : Bool :=
  (candidate now number).any (allowed buckets)

theorem select_keep (points : List α) :
    (select buckets (keep now points).1).1 = points.filter fun point => taken now buckets (Stamped.ts point) := by
  induction points with
  | nil => rfl
  | cons point rest ih =>
      simp only [select, keep] at ih ⊢
      cases found : candidate now (Stamped.ts point) with
      | none => simp [found, taken, ih]
      | some ts => cases own : allowed buckets ts <;> simp [found, taken, own, ih]

theorem keep_select_dropped (now : Int) (buckets : Option (List Int)) (points : List α) :
    (select buckets (keep now points).1).1.length +
      ((keep now points).2 + (select buckets (keep now points).1).2) = points.length := by
  induction points with
  | nil => rfl
  | cons point rest ih =>
      simp only [select, keep] at ih ⊢
      cases found : candidate now (Stamped.ts point) with
      | none =>
          simp only [found, List.filterMap_cons_none, Option.map_none, Option.isNone_none, List.countP_cons_of_pos,
            List.length_cons]
          omega
      | some ts =>
          cases own : allowed buckets ts
          · simp [found, own] at ih ⊢
            omega
          · simp [found, own] at ih ⊢
            omega

theorem snd_keep (points : List α) :
    (keep now points).1.map Prod.snd = (points.map Stamped.ts).filterMap (candidate now) := by
  induction points with
  | nil => rfl
  | cons point rest ih =>
      simp only [keep] at ih ⊢
      cases found : candidate now (Stamped.ts point) <;> simp [found, ih]

end Passes

/-! The newest hours. -/

section Hours

variable {stamps : List Int} {ts later : Int}

theorem lt_of_mem_take {list : List Int} {count : Nat} {old new : Int} (falling : list.Pairwise (· > ·))
    (kept : new ∈ list.take count) (member : old ∈ list) (lost : old ∉ list.take count) : old < new := by
  rw [← List.take_append_drop count list] at falling member
  exact (List.pairwise_append.mp falling).2.2 new kept old ((List.mem_append.mp member).resolve_left lost)

theorem falling_buckets (hours : List Int) : (hours.dedup.insertionSort (· ≥ ·)).Pairwise (· > ·) := by
  have sorted := List.pairwise_insertionSort (· ≥ ·) hours.dedup
  have distinct := (List.perm_insertionSort (· ≥ ·) hours.dedup).nodup_iff.mpr (List.nodup_dedup hours)
  exact (sorted.and distinct).imp fun both => lt_of_le_of_ne both.1 both.2.symm

theorem mem_sorted_buckets (member : ts ∈ stamps) :
    hourStartSec ts ∈ (stamps.map hourStartSec).dedup.insertionSort (· ≥ ·) :=
  (List.perm_insertionSort _ _).mem_iff.mpr (List.mem_dedup.mpr (List.mem_map_of_mem member))

theorem allowed_of_few (few : (stamps.map hourStartSec).toFinset.card ≤ maxTelemetryHoursPerReport) :
    allowed (allowedBuckets stamps) ts = true := by
  rw [List.card_toFinset] at few
  rw [allowedBuckets, if_neg (by omega), allowed]

theorem allowed_of_many (many : maxTelemetryHoursPerReport < (stamps.map hourStartSec).toFinset.card) :
    allowed (allowedBuckets stamps) ts = true ↔
      hourStartSec ts ∈
        ((stamps.map hourStartSec).dedup.insertionSort (· ≥ ·)).take maxTelemetryHoursPerReport := by
  rw [List.card_toFinset] at many
  rw [allowedBuckets, if_pos many, allowed, decide_eq_true_eq]

/-- An hour that is not allowed is older than each that is. -/
theorem lt_of_allowed (member : ts ∈ stamps) (lost : ¬ allowed (allowedBuckets stamps) ts = true)
    (kept : allowed (allowedBuckets stamps) later = true) : hourStartSec ts < hourStartSec later := by
  rcases le_or_gt (stamps.map hourStartSec).toFinset.card maxTelemetryHoursPerReport with few | many
  · exact absurd (allowed_of_few few) lost
  · rw [allowed_of_many many] at lost kept
    exact lt_of_mem_take (falling_buckets _) kept (mem_sorted_buckets member) lost

theorem card_allowed_le :
    ((stamps.filter (allowed (allowedBuckets stamps))).map hourStartSec).toFinset.card ≤
      maxTelemetryHoursPerReport := by
  rcases le_or_gt (stamps.map hourStartSec).toFinset.card maxTelemetryHoursPerReport with few | many
  · refine le_trans (Finset.card_le_card fun hour member => ?_) few
    obtain ⟨ts, kept, rfl⟩ := List.mem_map.mp (List.mem_toFinset.mp member)
    exact List.mem_toFinset.mpr (List.mem_map_of_mem (List.mem_filter.mp kept).1)
  · set newest := ((stamps.map hourStartSec).dedup.insertionSort (· ≥ ·)).take maxTelemetryHoursPerReport
    have inside : ((stamps.filter (allowed (allowedBuckets stamps))).map hourStartSec).toFinset ⊆
        newest.toFinset := by
      intro hour member
      obtain ⟨ts, kept, rfl⟩ := List.mem_map.mp (List.mem_toFinset.mp member)
      exact List.mem_toFinset.mpr ((allowed_of_many many).mp (List.mem_filter.mp kept).2)
    exact (Finset.card_le_card inside).trans ((List.toFinset_card_le _).trans (List.length_take_le _ _))

end Hours

/-! What is kept of a report. -/

section Report

variable {σ π χ : Type} [Stamped σ] [Stamped π] [Stamped χ] {now : Int} {number : JsNumber} {ts : Int}

/-- The numbers of all points of a report. -/
def numbers (samples : List σ) (pings : List π) (proxyChecks : List χ) : List JsNumber :=
  samples.map Stamped.ts ++ pings.map Stamped.ts ++ proxyChecks.map Stamped.ts

/-- The number is a timestamp of the window. -/
def Inside (now : Int) (number : JsNumber) (ts : Int) : Prop :=
  timestamp number = some ts ∧ now - 7 * 86400 ≤ ts ∧ ts ≤ now + 300

/-- The hours of the timestamps that are in the window. -/
def windowHours (now : Int) (numbers : List JsNumber) : Finset Int :=
  ((numbers.filterMap (candidate now)).map hourStartSec).toFinset

theorem candidate_eq_some : candidate now number = some ts ↔ Inside now number ts := by
  rw [candidate, Option.filter_eq_some_iff, inWindow, Bool.and_eq_true, decide_eq_true_eq, decide_eq_true_eq]
  rfl

section Kept

variable (samples : List σ) (pings : List π) (proxyChecks : List χ)

/-- The timestamps of the candidates. -/
def stampsOf (now : Int) : List Int := (numbers samples pings proxyChecks).filterMap (candidate now)

def keptNumber (now : Int) : JsNumber → Bool := taken now (allowedBuckets (stampsOf samples pings proxyChecks now))

variable {samples pings proxyChecks}

theorem filterTelemetryBatch_eq (limit : pings.length ≤ maxAgentPingsPerReport) :
    let kept := keptNumber samples pings proxyChecks now
    ∃ dropped, filterTelemetryBatch samples pings proxyChecks now =
        .ok ⟨samples.filter (kept ∘ Stamped.ts), pings.filter (kept ∘ Stamped.ts),
          proxyChecks.filter (kept ∘ Stamped.ts), dropped⟩ ∧
      (samples.filter (kept ∘ Stamped.ts)).length + (pings.filter (kept ∘ Stamped.ts)).length +
        (proxyChecks.filter (kept ∘ Stamped.ts)).length + dropped =
      samples.length + pings.length + proxyChecks.length := by
  intro kept
  set buckets := allowedBuckets (stampsOf samples pings proxyChecks now)
  have stamps : (keep now samples).1.map Prod.snd ++ (keep now pings).1.map Prod.snd ++
      (keep now proxyChecks).1.map Prod.snd = stampsOf samples pings proxyChecks now := by
    rw [snd_keep, snd_keep, snd_keep, ← List.filterMap_append, ← List.filterMap_append]
    rfl
  refine ⟨(keep now samples).2 + (keep now pings).2 + (keep now proxyChecks).2 +
    ((select buckets (keep now samples).1).2 + (select buckets (keep now pings).1).2 +
      (select buckets (keep now proxyChecks).1).2), ?_, ?_⟩
  · rw [filterTelemetryBatch, if_neg (not_lt.mpr limit)]
    simp only [stamps, select_keep]
    rfl
  · have first := keep_select_dropped now buckets samples
    have second := keep_select_dropped now buckets pings
    have third := keep_select_dropped now buckets proxyChecks
    rw [select_keep] at first second third
    simp only [Function.comp_def]
    change (samples.filter fun point => taken now buckets (Stamped.ts point)).length +
      (pings.filter fun point => taken now buckets (Stamped.ts point)).length +
      (proxyChecks.filter fun point => taken now buckets (Stamped.ts point)).length + _ = _
    omega

theorem keptNumber_iff : keptNumber samples pings proxyChecks now number = true ↔
    ∃ ts, Inside now number ts ∧ allowed (allowedBuckets (stampsOf samples pings proxyChecks now)) ts = true := by
  simp only [keptNumber, taken, Option.any_eq_true, candidate_eq_some]

theorem mem_stampsOf (member : number ∈ numbers samples pings proxyChecks) (inside : Inside now number ts) :
    ts ∈ stampsOf samples pings proxyChecks now :=
  List.mem_filterMap.mpr ⟨number, member, candidate_eq_some.mpr inside⟩

theorem Inside.unique {first second : Int} (one : Inside now number first) (two : Inside now number second) :
    first = second :=
  Option.some.inj (one.1.symm.trans two.1)

theorem windowHours_kept :
    windowHours now ((numbers samples pings proxyChecks).filter (keptNumber samples pings proxyChecks now)) =
      (((stampsOf samples pings proxyChecks now).filter
        (allowed (allowedBuckets (stampsOf samples pings proxyChecks now)))).map hourStartSec).toFinset := by
  rw [windowHours, List.filterMap_filter]
  congr 2
  rw [stampsOf, List.filter_filterMap]
  congr 1
  funext number
  rw [keptNumber, taken]
  cases candidate now number with
  | none => rfl
  | some ts => rfl

end Kept

/-- Points of which nothing but the number is given. -/
instance : Stamped JsNumber := ⟨id⟩

end Report

end NieSla.Metrics
