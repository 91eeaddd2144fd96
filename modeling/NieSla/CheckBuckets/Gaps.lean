import NieSla.CheckBuckets.Cached
import NieSla.CheckBuckets.Summaries

/-! The history that is shown of a target: its stored points, and a missed point for each bucket between two of
them, or after the last one, that has none. -/
namespace NieSla.CheckBuckets

open ProbeHistory (PublicPoint missedPhrase)

section Missing

/-- The point that is shown for a bucket without any. -/
def missedPoint (probeRegion : String) (bucketAt : Int) : PublicPoint where
  missed := true
  checkedAt := bucketAt
  ok := false
  latencyMs := none
  statusCode := none
  error := some missedPhrase
  probeRegion := if probeRegion = "" then "auto" else probeRegion
  total := 1
  okCount := 0

/-- The bucket lies between two times of one local day, and not too many do. -/
structure Between (env : Env) (first stop bucketAt : Int) : Prop where
  bucket : bucketSec ∣ bucketAt
  after : first < bucketAt
  before : bucketAt < stop
  day : dayFromSec first env = dayFromSec stop env
  limit : (stop - first) / bucketSec - 1 ≤ missedBackfillMaxBuckets env

def missedBackfillGraceSec (env : Env) : Int := clamp (configured env.missedBackfillGraceSec 150) 0 (bucketSec - 1)

/-- The first bucket whose time of grace is not over. -/
def tailEnd (env : Env) (now : Int) : Int := bucketOf (now - missedBackfillGraceSec env) + bucketSec

/-- The bucket is missing between two consecutive points, or after the last one where its time of grace is over. -/
def Missing (env : Env) (stored : List PublicPoint) (now bucketAt : Int) : Prop :=
  (∃ pair ∈ stored.consecutivePairs, Between env pair.1.checkedAt pair.2.checkedAt bucketAt) ∨
    ∃ last ∈ stored.getLast?, bucketAt + missedBackfillGraceSec env ≤ now ∧
      Between env last.checkedAt (tailEnd env now) bucketAt

end Missing

section Points

variable {env : Env} {first stop now bucketAt : Int} {region : String} {point : PublicPoint}

theorem grace_bounds (env : Env) : 0 ≤ missedBackfillGraceSec env ∧ missedBackfillGraceSec env ≤ 299 :=
  ⟨clamp_ge (by decide) _, clamp_le (by decide) _⟩

theorem bucketSec_dvd_bucketOf (sec : Int) : bucketSec ∣ bucketOf sec := Dvd.intro_left _ rfl

theorem bucketOf_eq (bucket : bucketSec ∣ first) : bucketOf first = first := Int.ediv_mul_cancel bucket

theorem lt_tailEnd (bucket : bucketSec ∣ bucketAt) :
    bucketAt < tailEnd env now ↔ bucketAt + missedBackfillGraceSec env ≤ now := by
  have grace := grace_bounds env
  unfold tailEnd bucketOf bucketSec at *
  omega

/-- `virtualBucketAt` -/
theorem tailEnd_eq (env : Env) (now : Int) :
    (if missedBackfillGraceSec env ≤ now - bucketOf now then bucketOf now + bucketSec else bucketOf now) =
      tailEnd env now := by
  have grace := grace_bounds env
  unfold tailEnd bucketOf bucketSec at *
  split <;> omega

/-- The missed points of a gap, in order. -/
def gapPoints (env : Env) (first stop : Int) (region : String) : List PublicPoint :=
  (buildMissedPoints env (some first) stop region (missedBackfillMaxBuckets env)).map CheckPoint.public

theorem gapPoints_eq (bucket : bucketSec ∣ first) (known : first ≠ 0) :
    gapPoints env first stop region =
      if dayFromSec first env = dayFromSec stop env ∧
          (stop - first) / bucketSec - 1 ≤ missedBackfillMaxBuckets env then
        (List.range ((stop - first) / bucketSec - 1).toNat).map fun index : Nat =>
          missedPoint region (first + bucketSec * ((index : Int) + 1))
      else [] := by
  have given : (some first).filter (fun sec => decide (sec ≠ 0)) = some first := by simp [Option.filter, known]
  rw [gapPoints, buildMissedPoints, given]
  simp only [bucketOf_eq bucket]
  by_cases day : dayFromSec first env = dayFromSec stop env
  · rw [if_neg (not_not.mpr day)]
    by_cases many : missedBackfillMaxBuckets env < (stop - first) / bucketSec - 1
    · have refused : (stop - first) / bucketSec - 1 ≤ 0 ∨
          missedBackfillMaxBuckets env < (stop - first) / bucketSec - 1 := .inr many
      rw [if_pos refused, if_neg fun both => absurd many (not_lt.mpr both.2), List.map_nil]
    · have open_ : dayFromSec first env = dayFromSec stop env ∧
          (stop - first) / bucketSec - 1 ≤ missedBackfillMaxBuckets env := ⟨day, not_lt.mp many⟩
      rw [if_pos open_]
      by_cases none_ : (stop - first) / bucketSec - 1 ≤ 0
      · rw [if_pos (.inl none_), Int.toNat_of_nonpos none_]
        rfl
      · rw [if_neg (not_or.mpr ⟨none_, many⟩), List.map_map]
        rfl
  · rw [if_pos day, if_neg fun both => day both.1, List.map_nil]

theorem mem_gapPoints (bucket : bucketSec ∣ first) (known : first ≠ 0) (ends : bucketSec ∣ stop) :
    point ∈ gapPoints env first stop region ↔
      ∃ bucketAt, Between env first stop bucketAt ∧ point = missedPoint region bucketAt := by
  rw [gapPoints_eq bucket known]
  constructor
  · intro member
    split at member
    · rename_i both
      obtain ⟨index, inside, rfl⟩ := List.mem_map.mp member
      rw [List.mem_range] at inside
      refine ⟨_, ⟨dvd_add bucket (Dvd.intro _ rfl), ?_, ?_, both.1, both.2⟩, rfl⟩
      · unfold bucketSec
        omega
      · unfold bucketSec at *
        omega
    · cases member
  · rintro ⟨bucketAt, between, rfl⟩
    rw [if_pos ⟨between.day, between.limit⟩]
    have after := between.after
    have before := between.before
    obtain ⟨n, counted⟩ := Int.sub_nonneg.mpr after.le |> fun _ => dvd_sub between.bucket bucket
    refine List.mem_map.mpr ⟨(n - 1).toNat, List.mem_range.mpr ?_, congrArg _ ?_⟩
    · unfold bucketSec at *
      omega
    · unfold bucketSec at *
      omega

theorem pairwise_gapPoints (bucket : bucketSec ∣ first) (known : first ≠ 0) :
    (gapPoints env first stop region).Pairwise fun one two => one.checkedAt < two.checkedAt := by
  rw [gapPoints_eq bucket known]
  split
  · refine List.pairwise_map.mpr (List.pairwise_lt_range.imp fun {one two} before => ?_)
    change first + bucketSec * ((one : Int) + 1) < first + bucketSec * ((two : Int) + 1)
    unfold bucketSec
    omega
  · exact .nil

end Points

/-! The gaps between the stored points. -/

section Gaps

variable {env : Env} {stored : List PublicPoint} {point : PublicPoint} {now bucketAt : Int}

/-- Points of buckets, in order. -/
structure Buckets (stored : List PublicPoint) : Prop where
  positive : ∀ point ∈ stored, 0 < point.checkedAt
  bucket : ∀ point ∈ stored, bucketSec ∣ point.checkedAt
  increasing : stored.Pairwise fun one two => one.checkedAt < two.checkedAt

theorem Buckets.tail {first : PublicPoint} {rest : List PublicPoint} (buckets : Buckets (first :: rest)) :
    Buckets rest where
  positive point member := buckets.positive point (List.mem_cons_of_mem _ member)
  bucket point member := buckets.bucket point (List.mem_cons_of_mem _ member)
  increasing := (List.pairwise_cons.mp buckets.increasing).2

theorem withGaps_cons_cons (previous current : PublicPoint) (rest : List PublicPoint) :
    withGaps env (previous :: current :: rest) =
      previous :: (gapPoints env previous.checkedAt current.checkedAt current.probeRegion ++
        withGaps env (current :: rest)) := rfl

theorem sublist_withGaps : stored.Sublist (withGaps env stored) := by
  induction stored with
  | nil => exact .slnil
  | cons previous rest ih =>
      cases rest with
      | nil => exact List.Sublist.refl _
      | cons current rest =>
          rw [withGaps_cons_cons]
          exact (ih.trans (List.sublist_append_right _ _)).cons_cons previous

theorem getLast?_withGaps : (withGaps env stored).getLast? = stored.getLast? := by
  induction stored with
  | nil => rfl
  | cons previous rest ih =>
      cases rest with
      | nil => rfl
      | cons current rest =>
          rw [withGaps_cons_cons, ← List.cons_append, List.getLast?_append, ih, List.getLast?_cons_cons]
          cases last : (current :: rest).getLast? with
          | none => cases (List.getLast?_eq_none_iff.mp last)
          | some _ => rfl

theorem mem_withGaps (buckets : Buckets stored) :
    point ∈ withGaps env stored ↔ point ∈ stored ∨ ∃ pair ∈ stored.consecutivePairs, ∃ bucketAt,
      Between env pair.1.checkedAt pair.2.checkedAt bucketAt ∧ point = missedPoint pair.2.probeRegion bucketAt := by
  induction stored with
  | nil => simp [withGaps]
  | cons previous rest ih =>
      cases rest with
      | nil =>
          have none_ : [previous].consecutivePairs = [] := rfl
          simp [withGaps, none_]
      | cons current rest =>
          have pairs : (previous :: current :: rest).consecutivePairs =
              (previous, current) :: (current :: rest).consecutivePairs := rfl
          have known := (buckets.positive previous List.mem_cons_self).ne'
          have gap : point ∈ gapPoints env previous.checkedAt current.checkedAt current.probeRegion ↔ _ :=
            mem_gapPoints (buckets.bucket _ List.mem_cons_self) known
              (buckets.bucket _ (List.mem_cons_of_mem _ List.mem_cons_self))
          rw [withGaps_cons_cons, List.mem_cons, List.mem_append, ih buckets.tail, gap, pairs,
            List.exists_mem_cons_iff, List.mem_cons (b := previous), or_assoc, ← or_assoc (b := point ∈ _),
            or_comm (b := point ∈ _), or_assoc]

theorem withGaps_le {first : PublicPoint} {rest : List PublicPoint} (buckets : Buckets (first :: rest))
    (member : point ∈ withGaps env (first :: rest)) : first.checkedAt ≤ point.checkedAt := by
  have least : ∀ other ∈ first :: rest, first.checkedAt ≤ other.checkedAt := by
    intro other among
    rcases List.mem_cons.mp among with rfl | later
    · exact le_rfl
    · exact ((List.pairwise_cons.mp buckets.increasing).1 other later).le
  rcases (mem_withGaps buckets).mp member with old | ⟨pair, among, bucketAt, between, rfl⟩
  · exact least point old
  · exact (least _ (List.of_mem_zip among).1).trans between.after.le

theorem pairwise_withGaps (buckets : Buckets stored) :
    (withGaps env stored).Pairwise fun one two => one.checkedAt < two.checkedAt := by
  induction stored with
  | nil => exact .nil
  | cons previous rest ih =>
      cases rest with
      | nil => exact List.pairwise_singleton _ _
      | cons current rest =>
          have bucket := buckets.bucket previous List.mem_cons_self
          have known := (buckets.positive previous List.mem_cons_self).ne'
          have ends := buckets.bucket current (List.mem_cons_of_mem _ List.mem_cons_self)
          have ahead := (List.pairwise_cons.mp buckets.increasing).1 current List.mem_cons_self
          rw [withGaps_cons_cons, List.pairwise_cons, List.pairwise_append]
          refine ⟨fun point member => ?_, pairwise_gapPoints bucket known, ih buckets.tail, fun point inside later after => ?_⟩
          · rcases List.mem_append.mp member with inside | later
            · obtain ⟨bucketAt, between, rfl⟩ := (mem_gapPoints bucket known ends).mp inside
              exact between.after
            · exact ahead.trans_le (withGaps_le buckets.tail later)
          · obtain ⟨bucketAt, between, rfl⟩ := (mem_gapPoints bucket known ends).mp inside
            exact lt_of_lt_of_le between.before (withGaps_le buckets.tail after)

/-- No stored point lies between two consecutive ones. -/
theorem not_between (buckets : Buckets stored) {pair : PublicPoint × PublicPoint}
    (among : pair ∈ stored.consecutivePairs) (member : point ∈ stored) :
    point.checkedAt ≤ pair.1.checkedAt ∨ pair.2.checkedAt ≤ point.checkedAt := by
  induction stored with
  | nil => cases member
  | cons previous rest ih =>
      cases rest with
      | nil => cases among
      | cons current rest =>
          have pairs : (previous :: current :: rest).consecutivePairs =
              (previous, current) :: (current :: rest).consecutivePairs := rfl
          obtain ⟨least, later⟩ := List.pairwise_cons.mp buckets.increasing
          have following : ∀ other ∈ current :: rest, current.checkedAt ≤ other.checkedAt := by
            intro other inside
            rcases List.mem_cons.mp inside with rfl | more
            · exact le_rfl
            · exact ((List.pairwise_cons.mp later).1 other more).le
          rw [pairs] at among
          rcases List.mem_cons.mp among with rfl | inner
          · rcases List.mem_cons.mp member with rfl | inside
            · exact .inl le_rfl
            · exact .inr (following point inside)
          · rcases List.mem_cons.mp member with rfl | inside
            · exact .inl (least _ (List.of_mem_zip inner).1).le
            · exact ih buckets.tail inner inside

end Gaps

/-! The whole history. -/

section History

variable {env : Env} {stores : Stores} {now : Int} {target : String} {days : Nat}

theorem positive_storedPoints {point : PublicPoint} (member : point ∈ storedPoints env stores now target days) :
    0 < point.checkedAt := by
  have listed := OrderedMap.mem_of_lastBy
    (OrderedMap.mem_values_collect.mp ((List.perm_insertionSort _ _).mem_iff.mp member))
  rcases List.mem_append.mp listed with legacy | buffered
  · exact of_decide_eq_true (List.mem_filter.mp legacy).2
  · obtain ⟨entry, -, rfl⟩ := List.mem_map.mp ((List.perm_insertionSort _ _).mem_iff.mp buffered)
    exact entry.2.checkedAt_pos

/-- One point of each time, sorted. -/
theorem pairwise_sorted_collect (points : List PublicPoint) :
    ((OrderedMap.collect PublicPoint.checkedAt points).values.insertionSort
      fun one two => one.checkedAt ≤ two.checkedAt).Pairwise fun one two => one.checkedAt < two.checkedAt := by
  have total : Std.Total fun one two : PublicPoint => one.checkedAt ≤ two.checkedAt := ⟨fun _ _ => le_total _ _⟩
  have trans_ : IsTrans PublicPoint fun one two => one.checkedAt ≤ two.checkedAt := ⟨fun _ _ _ => le_trans⟩
  have sorted := List.pairwise_insertionSort (fun one two : PublicPoint => one.checkedAt ≤ two.checkedAt)
    (OrderedMap.collect PublicPoint.checkedAt points).values
  have distinct := List.pairwise_map.mp (OrderedMap.nodup_values_collect PublicPoint.checkedAt points)
  have apart := (List.perm_insertionSort (fun one two : PublicPoint => one.checkedAt ≤ two.checkedAt) _).symm.pairwise
    distinct fun {_ _} ne => Ne.symm ne
  exact (sorted.and apart).imp fun both => lt_of_le_of_ne both.1 both.2

theorem buckets_storedPoints
    (bucket : ∀ point ∈ storedPoints env stores now target days, bucketSec ∣ point.checkedAt) :
    Buckets (storedPoints env stores now target days) where
  bucket := bucket
  positive _ member := positive_storedPoints member
  increasing := pairwise_sorted_collect _

theorem buildOpenMissedPoints_eq (previousAt : Int) (region : String) :
    buildOpenMissedPoints env previousAt now region = gapPoints env previousAt (tailEnd env now) region := by
  rw [← tailEnd_eq]
  rfl

theorem readCheckBuckets_eq (bound : env.databaseBound = true) :
    readCheckBuckets env stores now target days =
      withGaps env (storedPoints env stores now target days) ++
        match (storedPoints env stores now target days).getLast? with
        | none => []
        | some last => gapPoints env last.checkedAt (tailEnd env now) last.probeRegion := by
  rw [readCheckBuckets, if_neg (not_not.mpr bound)]
  dsimp only
  rw [getLast?_withGaps]
  cases last : (storedPoints env stores now target days).getLast? with
  | none =>
      rw [List.getLast?_eq_none_iff.mp last]
      rfl
  | some point =>
      dsimp only
      rw [buildOpenMissedPoints_eq]

variable (env stores now target days)

/-- The points after the last stored one. -/
def tailPoints : List PublicPoint :=
  match (storedPoints env stores now target days).getLast? with
  | none => []
  | some last => gapPoints env last.checkedAt (tailEnd env now) last.probeRegion

variable {env stores now target days}

theorem mem_tailPoints {point : PublicPoint}
    (bucket : ∀ point ∈ storedPoints env stores now target days, bucketSec ∣ point.checkedAt) :
    point ∈ tailPoints env stores now target days ↔
      ∃ last ∈ (storedPoints env stores now target days).getLast?, ∃ bucketAt,
        Between env last.checkedAt (tailEnd env now) bucketAt ∧ point = missedPoint last.probeRegion bucketAt := by
  unfold tailPoints
  cases found : (storedPoints env stores now target days).getLast? with
  | none => simp
  | some last =>
      have member := List.mem_of_getLast? found
      have ends : bucketSec ∣ tailEnd env now := dvd_add (bucketSec_dvd_bucketOf _) (dvd_refl _)
      simpa using mem_gapPoints (bucket last member) (positive_storedPoints member).ne' ends

theorem readCheckBuckets_append (bound : env.databaseBound = true) :
    readCheckBuckets env stores now target days =
      withGaps env (storedPoints env stores now target days) ++ tailPoints env stores now target days :=
  readCheckBuckets_eq bound

/-- Nothing that comes before the tail is later than the last stored point. -/
theorem withGaps_le_last {stored : List PublicPoint} {last point : PublicPoint} (buckets : Buckets stored)
    (ends : last ∈ stored.getLast?) (member : point ∈ withGaps env stored) : point.checkedAt ≤ last.checkedAt := by
  have latest : ∀ other ∈ stored, other.checkedAt ≤ last.checkedAt := by
    intro other among
    obtain ⟨front, rfl⟩ := List.getLast?_eq_some_iff.mp ends
    rcases List.mem_append.mp among with earlier | here
    · exact ((List.pairwise_append.mp buckets.increasing).2.2 other earlier last List.mem_cons_self).le
    · rw [List.mem_singleton.mp here]
  rcases (mem_withGaps buckets).mp member with old | ⟨pair, among, bucketAt, between, rfl⟩
  · exact latest point old
  · exact between.before.le.trans (latest _ (List.mem_of_mem_tail (List.of_mem_zip among).2))

/-- One check at 23:00, read at 23:58 of the same day. -/
def lateStores : Stores where
  checkBuckets := OrderedMap.empty.set ("edge", 1700060400)
    (checkBucketRow 19676 { checkedAt := 1700060400, ok := true, okCount := 1 })
  history := .empty

end History

end NieSla.CheckBuckets
