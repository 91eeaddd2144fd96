import NieSla.Lib.Runs
import NieSla.ProbeHistory.Kept

/-! What becomes of a point in a sequential run. -/
namespace NieSla.ProbeHistory

inductive Operation where
  | append (body : List (TargetId × List ProbeWrite))
  | alarm
  | read (request : ReadRequest)

/-- The buffer, the time of the last operation, and all points accepted for each day. -/
structure History where
  buffer : HistoryBuffer
  clock : Int
  filed : DayKey → List ProbePoint

namespace History

def start (clock : Int) : History := ⟨.empty, clock, fun _ => []⟩

/-- An operation at a time. -/
def step (env : Env) (history : History) (event : Int × Operation) : History :=
  match event with
  | (now, .append body) =>
      ⟨append env body history.buffer, now,
        fun key => history.filed key ++ accepted env body key⟩
  | (now, .alarm) => ⟨alarm env now history.buffer, now, history.filed⟩
  | (now, .read _) => ⟨history.buffer, now, history.filed⟩

/-- The clock does not go back, and an append stays below the limits of its days; `buckets`
are the times that a day may have. -/
def Fits (env : Env) (buckets : DayKey → Finset Int) (history : History)
    (event : Int × Operation) : Prop :=
  history.clock ≤ event.1 ∧
    match event.2 with
    | .append body => ∀ entry ∈ body, ∀ item ∈ incoming env entry.2,
        (history.buffer.memPoints (entry.1, item.1) ++
            accepted env body (entry.1, item.1)).length ≤ maxMemPoints env ∧
          (dayFromSec item.2.checkedAt env = item.1 →
            item.2.checkedAt ∈ buckets (entry.1, item.1))
    | _ => True

instance (env : Env) (buckets : DayKey → Finset Int) (history : History) :
    ∀ event, Decidable (Fits env buckets history event)
  | (_, .append _) => inferInstanceAs (Decidable (_ ∧ ∀ entry ∈ _, ∀ item ∈ _, _ ∧ _))
  | (_, .alarm) | (_, .read _) => inferInstanceAs (Decidable (_ ∧ True))

/-- Where the alarm archives points of a finished day from memory, the row of the day is
archived, or the points have all its times. -/
def ReplacesNothing (env : Env) (history : History) (event : Int × Operation) : Prop :=
  match event.2 with
  | .alarm => ∀ entry ∈ history.buffer.memDays.entries,
      entry.1.2 < dayFromSec event.1 env → env.archiveBound = true →
        ∀ row ∈ history.buffer.rows.get? entry.1, row.archivedAt = none →
          ∀ stored ∈ row.points, ∃ point ∈ entry.2, point.checkedAt = stored.checkedAt
  | _ => True

instance (env : Env) (history : History) : ∀ event, Decidable (ReplacesNothing env history event)
  | (_, .append _) | (_, .read _) => .isTrue trivial
  | (_, .alarm) => inferInstanceAs (Decidable (∀ entry ∈ _, _ → _))

end History

open History

/-! Reads. -/

private theorem flatMap_single {α β : Type} {keys : List α} {items : α → List β} {key : α}
    {item : β} (distinct : keys.Nodup) (member : key ∈ keys) (own : items key = [item])
    (others : ∀ other ∈ keys, other ≠ key → items other = []) :
    keys.flatMap items = [item] := by
  obtain ⟨before, after, rfl⟩ := List.append_of_mem member
  obtain ⟨_, later, apart⟩ := List.nodup_append.mp distinct
  have first : before.flatMap items = [] := by
    apply List.flatMap_eq_nil_iff.mpr
    intro other inside
    exact others other (List.mem_append_left _ inside) (apart other inside key List.mem_cons_self)
  have last : after.flatMap items = [] := by
    apply List.flatMap_eq_nil_iff.mpr
    intro other inside
    apply others other (List.mem_append_right _ (List.mem_cons_of_mem _ inside))
    rintro rfl
    exact (List.nodup_cons.mp later).1 inside
  rw [List.flatMap_append, List.flatMap_cons, first, last, own]
  rfl

theorem nodup_boundedDayRange (env : Env) (now : Int) (request : ReadRequest) :
    (boundedDayRange env now request).Nodup := by
  unfold boundedDayRange
  refine List.Nodup.sublist (List.takeWhile_sublist _) (List.Nodup.map ?_ List.nodup_range)
  intro first second same
  simpa using same

theorem day_of_mem_readDay {env : Env} {buffer : HistoryBuffer} {key : DayKey}
    {point : ProbePoint} (member : point ∈ readDay env buffer key) :
    dayFromSec point.checkedAt env = key.2 :=
  (day_of_mem_dayPoints (mem_mergeDay member)).1

/-- The day of a time holds the point once. -/
theorem filter_readDay {env : Env} {buffer : HistoryBuffer} {key : DayKey} {ts : Int}
    {point : ProbePoint} (found : bucketAt env key.2 (readDay env buffer key) ts = some point) :
    (readDay env buffer key).filter (fun stored => stored.checkedAt = ts) = [point] := by
  unfold bucketAt at found
  unfold readDay at *
  rw [dayPoints_mergeDay] at found
  rw [OrderedMap.filter_key_of_nodup (nodup_mergeDay _ _), found]
  rfl

/-- A read over the day of a time returns the one point that the day holds for it. -/
theorem filter_read {env : Env} {now : Int} {request : ReadRequest} {buffer : HistoryBuffer}
    {ts : Int} {point : ProbePoint}
    (inRange : dayFromSec ts env ∈ boundedDayRange env now request)
    (since : request.since ≤ ts)
    (until_ : ts ≤ if request.until_ = 0 then now else request.until_)
    (found : bucketAt env (dayFromSec ts env)
      (readDay env buffer (request.target, dayFromSec ts env)) ts = some point) :
    (read env now request buffer).filter (fun shown => shown.checkedAt = ts) =
      [toPublicPoint point] := by
  have shown : ∀ day, (((readDay env buffer (request.target, day)).filter fun point =>
        request.since ≤ point.checkedAt && point.checkedAt ≤
          if request.until_ = 0 then now else request.until_).map toPublicPoint).filter
        (fun shown => shown.checkedAt = ts) =
      ((readDay env buffer (request.target, day)).filter
        fun stored => stored.checkedAt = ts).map toPublicPoint := by
    intro day
    rw [List.filter_map, List.filter_filter]
    apply congrArg (List.map toPublicPoint)
    apply List.filter_congr
    intro stored _
    by_cases same : stored.checkedAt = ts
    · simp [toPublicPoint, same, since, until_]
    · simp [toPublicPoint, same]
  unfold read
  dsimp only
  apply List.Perm.eq_singleton (((List.perm_insertionSort _ _).filter _).trans _)
  rw [List.filter_flatMap]
  apply List.Perm.of_eq
  apply flatMap_single (nodup_boundedDayRange env now request) inRange
  · rw [shown, filter_readDay found]
    rfl
  · intro other _ different
    rw [shown, List.map_eq_nil_iff, List.filter_eq_nil_iff]
    intro stored member same
    have own := day_of_mem_readDay member
    rw [of_decide_eq_true same] at own
    exact different own.symm

/-! Runs. -/

section Run

variable {env : Env} {buckets : DayKey → Finset Int}

theorem kept_step (few : ∀ key, (buckets key).card ≤ maxDayPoints env) (history : History)
    (event : Int × Operation)
    (kept : BufferKept env buckets history.clock history.filed history.buffer)
    (allowed : Fits env buckets history event ∧ ReplacesNothing env history event) :
    BufferKept env buckets (step env history event).clock (step env history event).filed
      (step env history event).buffer := by
  obtain ⟨now, operation⟩ := event
  obtain ⟨⟨forward, fits⟩, replaces⟩ := allowed
  have current := kept.later forward
  cases operation with
  | append body => exact kept_append current fits
  | alarm => exact kept_flushCompletedDays few (kept_flushMemDays few current replaces)
  | read request => exact current

theorem kept_start (env : Env) (buckets : DayKey → Finset Int) (clock : Int) :
    BufferKept env buckets clock (History.start clock).filed (History.start clock).buffer := by
  refine ⟨fun key => ?_, rfl⟩
  constructor
  · exact fun ts => rfl
  · rintro _ ⟨⟩
  · rintro ⟨⟩
  · exact within_nil _ _ _
  · exact within_nil _ _ _
  · exact within_nil _ _ _

end Run

private def siteTarget : TargetId := ⟨"site", by decide⟩

private def probed (checkedAt latency : ℚ) : ProbeWrite :=
  ⟨none, { checkedAt, ok := some 1, latencyMs := some latency }⟩

end NieSla.ProbeHistory
