import NieSla.Latency.Store
import NieSla.Lib.JsonText

/-! `capPendingResults` and the size of what it keeps, in UTF-16 code units, which it measures, and in the bytes that
are stored. -/
namespace NieSla.Latency

open JsonText (Text units quote)

def pendingMaxBytes : Nat := 512 * 1024

/-! Texts. -/

def utf16Units (text : String) : Text :=
  text.toList.flatMap fun c =>
    if c.toNat < 0x10000 then [c.toNat]
    else [0xd800 + (c.toNat - 0x10000) / 0x400, 0xdc00 + (c.toNat - 0x10000) % 0x400]

/-- The bytes of a code unit in UTF-8; of four for a pair, each half counts two. -/
def unitBytes (unit : Nat) : Nat :=
  if unit < 0x80 then 1 else if unit < 0x800 then 2 else if 0xd800 ≤ unit ∧ unit ≤ 0xdfff then 2 else 3

/-- A measure of texts that adds up over their units. -/
def measured (weight : Nat → Nat) (text : Text) : Nat := (text.map weight).sum

/-- `text.length` -/
def lengthOf (text : Text) : Nat := measured (fun _ => 1) text

/-- The bytes of the text in UTF-8. -/
def bytesOf (text : Text) : Nat := measured unitBytes text

/-! `JSON.stringify` of points. -/

def numberText (value : Int) : Text := units (toString value)

def orNull (write : α → Text) (value : Option α) : Text := (value.map write).getD (units "null")

def LatencyPoint.stringify (point : LatencyPoint) : Text :=
  units "\x7b\"target_id\":" ++ quote (utf16Units point.targetId) ++
  units ",\"checked_at\":" ++ numberText point.checkedAt ++
  units ",\"latency_ms\":" ++ orNull numberText point.latencyMs ++
  units ",\"ok\":" ++ numberText (if point.ok then 1 else 0) ++
  units ",\"error\":" ++ orNull (fun error => quote (utf16Units error)) point.error ++
  units ",\"target_revision\":" ++ numberText point.targetRevision ++ units "\x7d"

def stringifyPoints (points : List LatencyPoint) : Text :=
  91 :: ([44].intercalate (points.map LatencyPoint.stringify) ++ [93])

def oversize (points : List LatencyPoint) : Bool := pendingMaxBytes < lengthOf (stringifyPoints points)

/-! A shorter tail is no larger. -/

@[simp] theorem measured_append (weight : Nat → Nat) (first second : Text) :
    measured weight (first ++ second) = measured weight first + measured weight second := by simp [measured]

@[simp] theorem measured_cons (weight : Nat → Nat) (unit : Nat) (text : Text) :
    measured weight (unit :: text) = weight unit + measured weight text := by simp [measured]

@[simp] theorem measured_nil (weight : Nat → Nat) : measured weight [] = 0 := rfl

theorem intercalate_suffix (separator : Text) (front rest : List Text) :
    separator.intercalate rest <:+ separator.intercalate (front ++ rest) := by
  induction front with
  | nil => exact List.suffix_rfl
  | cons text front ih =>
      by_cases last : front ++ rest = []
      · simp [(List.append_eq_nil_iff.mp last).2]
      · rw [List.cons_append, List.intercalate_cons_of_ne_nil last]
        exact ih.trans (List.suffix_append _ _)

theorem measured_stringify_le (weight : Nat → Nat) (front rest : List LatencyPoint) :
    measured weight (stringifyPoints rest) ≤ measured weight (stringifyPoints (front ++ rest)) := by
  obtain ⟨more, same⟩ := intercalate_suffix [44] (front.map LatencyPoint.stringify) (rest.map LatencyPoint.stringify)
  simp only [stringifyPoints, List.map_append, ← same, measured_cons, measured_append]
  omega

def lastPoints (points : List LatencyPoint) (count : Nat) : List LatencyPoint := points.drop (points.length - count)

theorem measured_lastPoints_le (weight : Nat → Nat) (points : List LatencyPoint) {fewer count : Nat}
    (le : fewer ≤ count) :
    measured weight (stringifyPoints (lastPoints points fewer)) ≤
      measured weight (stringifyPoints (lastPoints points count)) := by
  have tail : lastPoints points fewer =
      (lastPoints points count).drop (points.length - fewer - (points.length - count)) := by
    rw [lastPoints, lastPoints, List.drop_drop]
    congr 1
    omega
  rw [tail]
  nth_rewrite 2 [← List.take_append_drop (points.length - fewer - (points.length - count)) (lastPoints points count)]
  exact measured_stringify_le weight _ _

/-! The loop. -/

/-- The counts that the loop may come to from a count, as long as each is too many. -/
def countsFrom : Nat → Nat → List Nat
  | 0, count => [count]
  | fuel + 1, count => if 1 < count then count :: countsFrom fuel (count - max 1 (count / 10)) else [count]

/-- The counts that are tried for a list of this length. -/
def countsTried (length : Nat) : List Nat := countsFrom length (min length pendingMaxPoints)

theorem le_of_mem_countsFrom {fuel count tried : Nat} (member : tried ∈ countsFrom fuel count) : tried ≤ count := by
  induction fuel generalizing count with
  | zero => exact (List.mem_singleton.mp member).le
  | succ fuel ih =>
      simp only [countsFrom] at member
      split at member
      · obtain rfl | later := List.mem_cons.mp member
        · exact le_rfl
        · exact (ih later).trans (Nat.sub_le _ _)
      · exact (List.mem_singleton.mp member).le

section Loop

variable (large : List LatencyPoint → Bool) (points : List LatencyPoint)

/-- The first count that is tried and is not too many, or 1. -/
structure ShrinksTo (fuel count result : Nat) : Prop where
  tried : result ∈ countsFrom fuel count
  fits : result ≤ 1 ∨ large (lastPoints points result) = false
  first : ∀ other ∈ countsFrom fuel count, result < other → large (lastPoints points other) = true

theorem shrinkKeep_spec {fuel count : Nat} (enough : count ≤ fuel) :
    ShrinksTo large points fuel count (shrinkKeep large points fuel count) := by
  induction fuel generalizing count with
  | zero =>
      obtain rfl := Nat.le_zero.mp enough
      exact ⟨List.mem_singleton_self 0, .inl (Nat.zero_le 1), fun other member lt =>
        absurd (List.mem_singleton.mp member) (Nat.ne_of_gt lt)⟩
  | succ fuel ih =>
      by_cases many : 1 < count
      · have fewer : count - max 1 (count / 10) ≤ fuel := by omega
        by_cases over_ : large (lastPoints points count) = true
        · have next := ih fewer
          rw [shrinkKeep, if_pos ⟨many, over_⟩]
          refine ⟨?_, next.fits, fun other member lt => ?_⟩
          · rw [countsFrom, if_pos many]
            exact List.mem_cons_of_mem _ next.tried
          · rw [countsFrom, if_pos many] at member
            obtain rfl | later := List.mem_cons.mp member
            · exact over_
            · exact next.first other later lt
        · rw [shrinkKeep, if_neg fun both => over_ both.2]
          refine ⟨?_, .inr (Bool.eq_false_of_not_eq_true over_), fun other member lt => ?_⟩
          · rw [countsFrom, if_pos many]
            exact List.mem_cons_self
          · exact absurd (le_of_mem_countsFrom member) (not_le.mpr lt)
      · rw [shrinkKeep, if_neg fun both => many both.1]
        refine ⟨?_, .inl (not_lt.mp many), fun other member lt => ?_⟩
        · rw [countsFrom, if_neg many]
          exact List.mem_singleton_self count
        · exact absurd (le_of_mem_countsFrom member) (not_le.mpr lt)

/-- The loop ends before its fuel: with more it comes to the same count. -/
theorem shrinkKeep_fuel {fuel more count : Nat} (enough : count ≤ fuel) (le : fuel ≤ more) :
    shrinkKeep large points more count = shrinkKeep large points fuel count := by
  induction fuel generalizing more count with
  | zero =>
      obtain rfl := Nat.le_zero.mp enough
      cases more with
      | zero => rfl
      | succ more => simp [shrinkKeep]
  | succ fuel ih =>
      obtain ⟨more, rfl⟩ : ∃ rest, more = rest + 1 := ⟨more - 1, by omega⟩
      simp only [shrinkKeep]
      by_cases again : 1 < count ∧ large (points.drop (points.length - count)) = true
      · rw [if_pos again, if_pos again]
        exact ih (by omega) (by omega)
      · rw [if_neg again, if_neg again]

/-- How many points stay. -/
def keepCount : Nat := shrinkKeep large points points.length (min points.length pendingMaxPoints)

theorem keepCount_spec : ShrinksTo large points points.length (min points.length pendingMaxPoints) (keepCount large points) :=
  shrinkKeep_spec large points (Nat.min_le_left _ _)

theorem keepCount_le : keepCount large points ≤ points.length :=
  (le_of_mem_countsFrom (keepCount_spec large points).tried).trans (Nat.min_le_left _ _)

/-- The first return gives what the loop gives. -/
theorem capPendingResults_eq :
    capPendingResults large points =
      (lastPoints points (keepCount large points), points.take (points.length - keepCount large points)) := by
  unfold capPendingResults
  split
  case isFalse => rfl
  case isTrue small =>
      have all : keepCount large points = points.length := by
        have start : min points.length pendingMaxPoints = points.length := Nat.min_eq_left small.1
        have spec := keepCount_spec large points
        rw [start] at spec
        refine le_antisymm (keepCount_le large points) (not_lt.mp fun lt => small.2 ?_)
        have first : points.length ∈ countsFrom points.length points.length := by
          cases points with
          | nil => exact List.mem_singleton_self 0
          | cons point rest =>
              simp only [List.length_cons, countsFrom]
              split
              · exact List.mem_cons_self
              · exact List.mem_singleton_self _
        simpa [lastPoints] using spec.first _ first lt
      rw [all, lastPoints, Nat.sub_self, List.drop_zero, List.take_zero]

end Loop

theorem length_lastPoints {points : List LatencyPoint} {count : Nat} (le : count ≤ points.length) :
    (lastPoints points count).length = count := by
  rw [lastPoints, List.length_drop]
  omega

/-- The older points and then the kept ones are the list, at most `PENDING_MAX_POINTS` are kept, and their JSON has at
most `PENDING_MAX_BYTES` bytes or one point is kept. -/
structure Capped (points : List LatencyPoint) (parts : List LatencyPoint × List LatencyPoint) : Prop where
  parted : parts.2 ++ parts.1 = points
  few : parts.1.length ≤ pendingMaxPoints
  small : bytesOf (stringifyPoints parts.1) ≤ pendingMaxBytes ∨ parts.1.length = 1

/-- No tail of more than one point, of a length that is tried, has a JSON text that is short enough in code units and
too long in bytes. -/
def TailsFit (points : List LatencyPoint) : Prop :=
  ∀ count ∈ countsTried points.length, 1 < count →
    lengthOf (stringifyPoints (lastPoints points count)) ≤ pendingMaxBytes →
      bytesOf (stringifyPoints (lastPoints points count)) ≤ pendingMaxBytes

theorem not_oversize {points : List LatencyPoint} :
    oversize points = false ↔ lengthOf (stringifyPoints points) ≤ pendingMaxBytes := by
  simp [oversize]

/-- The loop of `capPendingResults` ends, and what it keeps is capped where no tail fits in code units but not in
bytes. -/
theorem capPendingResults_capped_iff (points : List LatencyPoint) :
    (∀ fuel, points.length ≤ fuel →
      shrinkKeep oversize points fuel (min points.length pendingMaxPoints) = keepCount oversize points) ∧
    (Capped points (capPendingResults oversize points) ↔ TailsFit points) := by
  have spec := keepCount_spec oversize points
  have length := length_lastPoints (keepCount_le oversize points)
  refine ⟨fun fuel enough => shrinkKeep_fuel oversize points (Nat.min_le_left _ _) enough, ?_⟩
  rw [capPendingResults_eq]
  constructor
  · intro capped count tried many fits
    -- The kept points are the longest tail that fits in code units, so a count that fits is no larger.
    have le : count ≤ keepCount oversize points := not_lt.mp fun lt => by
      have large := spec.first count tried lt
      rw [not_oversize.mpr fits] at large
      exact Bool.false_ne_true large
    obtain small | one := capped.small
    · exact (measured_lastPoints_le unitBytes points le).trans small
    · rw [length] at one
      omega
  · intro fit
    refine ⟨List.take_append_drop _ _, ?_, ?_⟩
    · rw [length]
      exact (le_of_mem_countsFrom spec.tried).trans (Nat.min_le_right _ _)
    · rw [length]
      by_cases many : 1 < keepCount oversize points
      · refine .inl (fit _ spec.tried many (not_oversize.mp ?_))
        exact spec.fits.resolve_left (not_le.mpr many)
      · obtain none_ | one := Nat.le_one_iff_eq_zero_or_eq_one.mp (not_lt.mp many)
        · refine .inl ?_
          have nothing : lastPoints points 0 = [] := by rw [lastPoints, Nat.sub_zero, List.drop_length]
          rw [none_, nothing]
          exact (by decide : bytesOf (stringifyPoints []) ≤ pendingMaxBytes)
        · exact .inr one

/-! A target that does not answer: the code's own message is longer in bytes. -/

theorem measured_stringify_replicate (weight : Nat → Nat) (point : LatencyPoint) (more : Nat) :
    measured weight (stringifyPoints (List.replicate (more + 1) point)) =
      weight 91 + (measured weight point.stringify + more * (weight 44 + measured weight point.stringify)) + weight 93 := by
  have joined : measured weight ([44].intercalate (List.replicate (more + 1) point.stringify)) =
      measured weight point.stringify + more * (weight 44 + measured weight point.stringify) := by
    induction more with
    | zero => simp [List.intercalate_singleton]
    | succ more ih =>
        rw [List.replicate_succ, List.intercalate_cons_of_ne_nil (by simp), measured_append, measured_append, ih,
          Nat.succ_mul]
        simp only [measured_cons, measured_nil]
        omega
  simp only [stringifyPoints, List.map_replicate, measured_cons, measured_append, joined, measured_nil]
  omega

def refusedPoint : LatencyPoint :=
  ⟨"tokyo", 1700000100, none, false, some "连接失败", 1700000000⟩

theorem measured_refusedPoint : lengthOf refusedPoint.stringify = 114 ∧ bytesOf refusedPoint.stringify = 122 := by
  decide +kernel

/-- 4300 points of a target that refuses the connection are kept, with more bytes than `PENDING_MAX_BYTES`. -/
theorem refused_points_exceed_bytes :
    ¬Capped (List.replicate 4300 refusedPoint) (capPendingResults oversize (List.replicate 4300 refusedPoint)) := by
  have length : lengthOf (stringifyPoints (List.replicate 4300 refusedPoint)) = 494501 := by
    rw [lengthOf, measured_stringify_replicate, ← lengthOf, measured_refusedPoint.1]
  have bytes : bytesOf (stringifyPoints (List.replicate 4300 refusedPoint)) = 528901 := by
    rw [bytesOf, measured_stringify_replicate, ← bytesOf, measured_refusedPoint.2]
    decide
  have kept : capPendingResults oversize (List.replicate 4300 refusedPoint) = (List.replicate 4300 refusedPoint, []) := by
    refine if_pos ⟨?_, ?_⟩
    · rw [List.length_replicate]
      decide
    · rw [Bool.not_eq_true, not_oversize, length]
      decide
  intro capped
  rw [kept] at capped
  obtain small | one := capped.small
  · rw [bytes] at small
    exact absurd small (by decide)
  · rw [List.length_replicate] at one
    exact absurd one (by decide)

end NieSla.Latency
