import NieSla.Availability.Segments
import NieSla.Ids.Canonical
import NieSla.Lib.Sums

/-! The days that are shown: the rows of the table, what the uptime says of the days before them, and what has
passed since the last report. -/
namespace NieSla.Availability

open Interval OrderedMap
open Ids (core allowed_of_mem_dashRuns sanitizeAgentId_eq dashRuns_of_allowed open_dashRuns_core)

/-- A row that names its agent. The day of a text that is no day is `none`. -/
structure DayRow where
  agentId : String
  day : Option Int
  seconds : DaySeconds
deriving DecidableEq

structure MetricRow where
  agentId : String
  updatedAt : Int
  uptimeSec : JsNumber
deriving DecidableEq

/-- One row of each agent, under an id that has been cleaned: as `mergeAgentMetricRows` makes them of the rows
of `agent_metrics_state`. -/
structure MetricRows where
  rows : List MetricRow
  cleaned : ∀ row ∈ rows, ∃ raw, row.agentId = sanitizeAgentId raw
  distinct : (rows.map fun row => sanitizeAgentId row.agentId).Nodup

structure TargetRow where
  id : String
  noPublicIp : Int
  createdAt : Int
deriving DecidableEq

section Baseline

variable (storedRows : List DayRow) (metricRows : List MetricRow) (targetRows : List TargetRow) (env : Env)
  (currentAt : Int)

/-- `earliestStoredDay.get(id)` -/
def earliestStoredDay (id : String) : Option Int :=
  (storedRows.filterMap fun row => if sanitizeAgentId row.agentId = id then row.day else none).min?

/-- `Math.max(endAt - uptimeSec, createdAt, retentionStart)`, and `none` where no uptime is reported. -/
def uptimeStart (metric : MetricRow) (createdAt : Int) : Option Int :=
  let retentionStart := currentAt - retentionDays env * 86400
  match metric.uptimeSec with
  | .finite value =>
      if ⌊value⌋ ≤ 0 then none else some (max (max (metric.updatedAt - ⌊value⌋) createdAt) retentionStart)
  | .infinity => some (max createdAt retentionStart)
  | _ => none

/-- The interval that the reported uptime of a target covers, if there is one. -/
def baselineInterval (target : TargetRow) : Option (Int × Int) :=
  let id := sanitizeAgentId target.id
  if target.noPublicIp ≠ 1 ∨ id = "" then none
  else do
    let metric ← lastBy (fun row => sanitizeAgentId row.agentId) id metricRows
    let start ← uptimeStart env currentAt metric target.createdAt
    if metric.updatedAt = 0 ∨ metric.updatedAt ≤ start then none else some (start, metric.updatedAt)

/-- The rows of one target: the days before the first one that is recorded. -/
def targetBaseline (target : TargetRow) : List DayRow :=
  let id := sanitizeAgentId target.id
  match baselineInterval metricRows env currentAt target with
  | none => []
  | some (start, stop) =>
      ((addInterval .empty start stop true env).entries.filter fun row =>
        (earliestStoredDay storedRows id).all (row.1 < ·)).map fun row => ⟨id, some row.1, row.2⟩

def uptimeBaselineRows : List DayRow :=
  targetRows.flatMap (targetBaseline storedRows metricRows env currentAt)

/-- What has passed since the last report of an agent. -/
def liveTail (metric : MetricRow) : List DayRow :=
  (agentAvailabilitySegments metric.updatedAt currentAt env).map fun row =>
    ⟨sanitizeAgentId metric.agentId, some row.1, row.2⟩

end Baseline

section Merging

/-- What `mergeRow` adds, and under which key. -/
def mergeable (row : DayRow) : Option ((String × Int) × DaySeconds) :=
  let id := sanitizeAgentId row.agentId
  if id = "" then none
  else row.day.map fun day => ((id, day), ⟨max 0 row.seconds.total, max 0 row.seconds.okCount⟩)

def mergeRows (rows : List DayRow) : OrderedMap (String × Int) DaySeconds :=
  accumulate Prod.fst Prod.snd (rows.filterMap mergeable) .empty

/-- `mergeAgentAvailabilityRows`; `collate` is `localeCompare`. -/
def mergeAgentAvailabilityRows (collate : String → String → Bool) (storedRows : List DayRow)
    (metricRows : List MetricRow) (env : Env) (currentAt : Int) (targetRows : List TargetRow) :
    List ((String × Int) × DaySeconds) :=
  let byKey := mergeRows (uptimeBaselineRows storedRows metricRows targetRows env currentAt ++ storedRows ++
    metricRows.flatMap (liveTail env currentAt))
  byKey.entries.insertionSort fun first second =>
    first.1.2 < second.1.2 ∨ first.1.2 = second.1.2 ∧ collate first.1.1 second.1.1

end Merging

/-! The segments of two times share out what lies between them. -/

section Partition

variable {env : Env} {online : Bool} {stop cursor : Int}

/-- What all days of the map have been counted. -/
def allSeconds (rows : Rows) : DaySeconds := ⟨rows.sum fun _ row => row.total, rows.sum fun _ row => row.okCount⟩

theorem sum_addSeconds (part : DaySeconds → Int) (none_ : part 0 = 0)
    (adds : ∀ first second, part (first + second) = part first + part second) (rows : Rows) (day seconds : Int) :
    (addSeconds rows day seconds online).sum (fun _ row => part row) =
      rows.sum (fun _ row => part row) + part (counted seconds online) := by
  have written := rows.sum_set (fun _ row => part row) day (secondsAt rows day + counted seconds online)
  have before : rows.summand (fun _ row => part row) day = part (secondsAt rows day) := by
    rw [summand, secondsAt]
    cases rows.get? day with
    | none => exact none_.symm
    | some row => rfl
  rw [before, adds] at written
  rw [addSeconds]
  omega

theorem allSeconds_addSeconds (rows : Rows) (day seconds : Int) :
    allSeconds (addSeconds rows day seconds online) = allSeconds rows + counted seconds online := by
  ext
  · exact sum_addSeconds DaySeconds.total rfl (fun _ _ => rfl) rows day seconds
  · exact sum_addSeconds DaySeconds.okCount rfl (fun _ _ => rfl) rows day seconds

theorem allSeconds_addDays (fuel : Nat) (rows : Rows)
    (enough : stop ≤ cursor ∨ dayFromSec stop env - dayFromSec cursor env < fuel) :
    allSeconds (addDays env online stop fuel cursor rows) =
      allSeconds rows + counted (max 0 (stop - cursor)) online := by
  induction fuel generalizing cursor rows with
  | zero =>
      have done : stop ≤ cursor := by
        rcases enough with done | enough
        · exact done
        · unfold dayFromSec at enough
          omega
      rw [addDays, max_eq_left (by omega), counted_zero, add_zero]
  | succ fuel ih =>
      unfold addDays
      split
      · rename_i before
        have inside := dayFromSec_eq_iff.mp (rfl : dayFromSec cursor env = _)
        rw [ih, allSeconds_addSeconds, add_assoc, ← counted_add]
        · congr 2
          omega
        · rcases le_total stop (dayStartSec (dayFromSec cursor env + 1) env) with last | more
          · exact .inl (by omega)
          · refine .inr ?_
            rw [min_eq_right more]
            unfold dayFromSec dayStartSec at *
            omega
      · rw [max_eq_left (by omega), counted_zero, add_zero]

theorem allSeconds_addInterval (rows : Rows) (start stop : Int) (online : Bool) (env : Env) :
    allSeconds (addInterval rows start stop online env) =
      allSeconds rows + counted (max 0 (stop - start)) online :=
  allSeconds_addDays _ rows (.inr (by omega))

/-- The value of an entry is what the map holds for its day. -/
theorem secondsAt_of_mem {rows : Rows} {row : Int × DaySeconds} (member : row ∈ rows.entries) :
    secondsAt rows row.1 = row.2 := by
  rw [secondsAt, get?_eq_some.mpr member, Option.getD_some]

theorem dayOverlap_le (env : Env) (day start stop : Int) : dayOverlap env day start stop ≤ 86400 := by
  unfold dayOverlap overlap dayStartSec
  omega

theorem startAt_le {previousAt endAt : Int} (before : previousAt ≤ endAt) : startAt previousAt endAt env ≤ endAt := by
  have days := clamp_ge (by norm_num : (30 : Int) ≤ 180) (configured env.agentAvailabilityRetentionDays 90)
  unfold startAt retentionDays
  omega

theorem onlineUntil_le (env : Env) {previousAt endAt : Int} (before : previousAt ≤ endAt) :
    startAt previousAt endAt env ≤ onlineUntil previousAt endAt env ∧ onlineUntil previousAt endAt env ≤ endAt :=
  ⟨le_max_left _ _, max_le (startAt_le before) (min_le_left _ _)⟩

/-- The rows share out the retained part of the interval, one row for each day, and their online seconds the
part up to the offline limit. -/
structure Shared (env : Env) (previousAt endAt : Int) (rows : List (Int × DaySeconds)) : Prop where
  total : (rows.map fun row => row.2.total).sum = max 0 (endAt - startAt previousAt endAt env)
  online : (rows.map fun row => row.2.okCount).sum =
    max 0 (min endAt (previousAt + offlineAfterSec env) - startAt previousAt endAt env)
  days : (rows.map Prod.fst).Nodup
  ordered : ∀ row ∈ rows, 0 ≤ row.2.okCount ∧ row.2.okCount ≤ row.2.total ∧ row.2.total ≤ 86400
  local_ : ∀ row ∈ rows, row.2.total = dayOverlap env row.1 (startAt previousAt endAt env) endAt

theorem shared_segments {previousAt endAt : Int} (env : Env) (known : previousAt ≠ 0) (ends : endAt ≠ 0) :
    Shared env previousAt endAt (agentAvailabilitySegments previousAt endAt env) := by
  have days := clamp_ge (by norm_num : (30 : Int) ≤ 180) (configured env.agentAvailabilityRetentionDays 90)
  by_cases nothing : endAt ≤ previousAt
  · have start : startAt previousAt endAt env = previousAt := by
      unfold startAt retentionDays
      omega
    rw [agentAvailabilitySegments, if_pos (.inr (.inr nothing))]
    refine ⟨?_, ?_, List.nodup_nil, nofun, nofun⟩
    · rw [start, max_eq_left (by omega)]
      rfl
    · rw [start, max_eq_left (by omega)]
      rfl
  have before : previousAt ≤ endAt := by omega
  obtain ⟨low, high⟩ := onlineUntil_le env before
  have perm := List.perm_insertionSort (fun first second : Int × DaySeconds => first.1 ≤ second.1)
    (segmentRows previousAt endAt env).entries
  have all : allSeconds (segmentRows previousAt endAt env) =
      counted (onlineUntil previousAt endAt env - startAt previousAt endAt env) true +
        counted (endAt - onlineUntil previousAt endAt env) false := by
    rw [segmentRows, allSeconds_addInterval, allSeconds_addInterval, max_eq_right (by omega),
      max_eq_right (by omega)]
    exact congrArg (· + _) (zero_add _)
  have each : ∀ row ∈ (segmentRows previousAt endAt env).entries, row.2 =
      counted (dayOverlap env row.1 (startAt previousAt endAt env) (onlineUntil previousAt endAt env)) true +
        counted (dayOverlap env row.1 (onlineUntil previousAt endAt env) endAt) false := by
    intro row member
    rw [← secondsAt_of_mem member, segmentRows, secondsAt_addInterval, secondsAt_addInterval]
    exact congrArg (· + _) (zero_add _)
  have cut (day : Int) : dayOverlap env day (startAt previousAt endAt env) (onlineUntil previousAt endAt env) +
      dayOverlap env day (onlineUntil previousAt endAt env) endAt =
        dayOverlap env day (startAt previousAt endAt env) endAt := overlap_add low high
  rw [agentAvailabilitySegments, if_neg (by omega)]
  refine ⟨?_, ?_, ?_, ?_, ?_⟩
  · rw [(perm.map _).sum_eq]
    have total := congrArg DaySeconds.total all
    change ((segmentRows previousAt endAt env).entries.map fun row => row.2.total).sum = _ at total
    rw [total]
    simp only [DaySeconds.add_total, counted]
    omega
  · rw [(perm.map _).sum_eq]
    have online := congrArg DaySeconds.okCount all
    change ((segmentRows previousAt endAt env).entries.map fun row => row.2.okCount).sum = _ at online
    rw [online]
    simp only [DaySeconds.add_okCount, counted, if_true, Bool.false_eq_true, if_false]
    unfold onlineUntil at *
    omega
  · exact (perm.map Prod.fst).nodup_iff.mpr (segmentRows previousAt endAt env).nodup_keys
  · intro row member
    rw [each row (perm.mem_iff.mp member)]
    have one := dayOverlap_le env row.1 (startAt previousAt endAt env) endAt
    have more : 0 ≤ dayOverlap env row.1 (startAt previousAt endAt env) (onlineUntil previousAt endAt env) :=
      overlap_nonneg
    have rest : 0 ≤ dayOverlap env row.1 (onlineUntil previousAt endAt env) endAt := overlap_nonneg
    have parts := cut row.1
    simp only [DaySeconds.add_total, DaySeconds.add_okCount, counted, if_true, Bool.false_eq_true, if_false]
    unfold dayOverlap at *
    omega
  · intro row member
    rw [each row (perm.mem_iff.mp member), ← cut row.1]
    rfl

end Partition

/-! What is added up under a key. -/

section Added

variable {key : String × Int} {rows first second : List DayRow} {row : DayRow}

/-- The seconds that a row adds to a key. -/
def added (key : String × Int) (row : DayRow) : Int :=
  match mergeable row with
  | some entry => if entry.1 = key then entry.2.total else 0
  | none => 0

def addedBy (key : String × Int) (rows : List DayRow) : Int := (rows.map (added key)).sum

theorem of_mergeable {entry : (String × Int) × DaySeconds} (found : mergeable row = some entry) :
    entry.1.1 = sanitizeAgentId row.agentId ∧ row.day = some entry.1.2 ∧ entry.2.total = max 0 row.seconds.total := by
  dsimp only [mergeable] at found
  split at found
  · cases found
  · obtain ⟨day, is, rfl⟩ := Option.map_eq_some_iff.mp found
    exact ⟨rfl, is, rfl⟩

/-- A row adds its seconds to the key of its agent and day, and nothing to other keys. -/
theorem added_spec (key : String × Int) (row : DayRow) :
    added key row = 0 ∨
      sanitizeAgentId row.agentId = key.1 ∧ row.day = some key.2 ∧ added key row = max 0 row.seconds.total := by
  unfold added
  cases found : mergeable row with
  | none => exact .inl rfl
  | some entry =>
      obtain ⟨id, day, total⟩ := of_mergeable found
      by_cases same : entry.1 = key
      · subst same
        exact .inr ⟨id.symm, day, by simpa using total⟩
      · exact .inl (if_neg same)

theorem added_of_ne (other : sanitizeAgentId row.agentId ≠ key.1) : added key row = 0 :=
  (added_spec key row).resolve_right fun own => other own.1

theorem addedBy_cons : addedBy key (row :: rows) = added key row + addedBy key rows := rfl

theorem addedBy_append : addedBy key (first ++ second) = addedBy key first + addedBy key second := by
  rw [addedBy, List.map_append, List.sum_append, addedBy, addedBy]

theorem addedBy_flatMap {α : Type} (items : List α) (rowsOf : α → List DayRow) :
    addedBy key (items.flatMap rowsOf) = (items.map fun item => addedBy key (rowsOf item)).sum := by
  induction items with
  | nil => rfl
  | cons item rest ih => rw [List.flatMap_cons, addedBy_append, ih, List.map_cons, List.sum_cons]

theorem total_sum (list : List DaySeconds) : list.sum.total = (list.map DaySeconds.total).sum := by
  induction list with
  | nil => rfl
  | cons head rest ih => rw [List.sum_cons, DaySeconds.add_total, ih, List.map_cons, List.sum_cons]

theorem total_mergeRows (key : String × Int) (rows : List DayRow) :
    (((mergeRows rows).get? key).getD 0).total = addedBy key rows := by
  rw [mergeRows, getD_accumulate, get?_empty, Option.getD_none, zero_add, total_sum]
  induction rows with
  | nil => rfl
  | cons row rest ih =>
      rw [addedBy_cons, ← ih, added]
      cases found : mergeable row with
      | none => simp [found]
      | some entry => by_cases same : entry.1 = key <;> simp [found, same]

/-- Where of all items with distinct names only one can add to a key, its bound is a bound of all. -/
theorem sum_le_of_distinct {α κ : Type} {name : α → κ} {k : κ} {amount : α → Int} {bound : Int} {items : List α}
    (distinct : (items.map name).Nodup) (nonneg : 0 ≤ bound) (others : ∀ item ∈ items, name item ≠ k → amount item = 0)
    (own : ∀ item ∈ items, name item = k → amount item ≤ bound) : (items.map amount).sum ≤ bound := by
  induction items with
  | nil => exact nonneg
  | cons item rest ih =>
      obtain ⟨fresh, distinct⟩ := List.nodup_cons.mp distinct
      have later := ih distinct (fun other member => others other (List.mem_cons_of_mem _ member))
        fun other member => own other (List.mem_cons_of_mem _ member)
      rw [List.map_cons, List.sum_cons]
      by_cases here : name item = k
      · have nothing : (rest.map amount).sum = 0 := by
          refine List.sum_eq_zero fun value member => ?_
          obtain ⟨other, among, rfl⟩ := List.mem_map.mp member
          exact others other (List.mem_cons_of_mem _ among) fun same =>
            fresh (here.trans same.symm ▸ List.mem_map_of_mem among)
        rw [nothing, add_zero]
        exact own item List.mem_cons_self here
      · rw [others item List.mem_cons_self here, zero_add]
        exact later

theorem added_nonneg : 0 ≤ added key row := by
  rcases added_spec key row with none_ | ⟨-, -, all⟩ <;> omega

theorem addedBy_nonneg : 0 ≤ addedBy key rows := by
  refine List.sum_nonneg fun value member => ?_
  obtain ⟨row, -, rfl⟩ := List.mem_map.mp member
  exact added_nonneg

theorem addedBy_eq_zero (others : ∀ row ∈ rows, sanitizeAgentId row.agentId ≠ key.1) : addedBy key rows = 0 := by
  refine List.sum_eq_zero fun value member => ?_
  obtain ⟨row, inside, rfl⟩ := List.mem_map.mp member
  exact added_of_ne (others row inside)

theorem addedBy_rows_le (key : String × Int) (id : String) {list : List (Int × DaySeconds)} (nonneg : ∀ row ∈ list, 0 ≤ row.2.total) :
    addedBy key (list.map fun row => ⟨id, some row.1, row.2⟩) ≤ (segmentsAt list key.2).total := by
  induction list with
  | nil => exact le_rfl
  | cons head rest ih =>
      obtain ⟨here, later⟩ := List.forall_mem_cons.mp nonneg
      have sum : (segmentsAt (head :: rest) key.2).total =
          (if head.1 = key.2 then head.2 else 0 : DaySeconds).total + (segmentsAt rest key.2).total := rfl
      have bound := ih later
      rw [List.map_cons, addedBy_cons, sum]
      by_cases same : head.1 = key.2
      · rw [if_pos same]
        rcases added_spec key ⟨id, some head.1, head.2⟩ with none_ | ⟨-, -, all⟩
        · omega
        · rw [all]
          dsimp only
          omega
      · rw [if_neg same, DaySeconds.zero_total]
        rcases added_spec key ⟨id, some head.1, head.2⟩ with none_ | ⟨-, day, -⟩
        · omega
        · exact absurd (Option.some.inj day) same

theorem segmentsAt_filter (list : List (Int × DaySeconds)) (keep : Int → Bool) (day : Int) :
    segmentsAt (list.filter fun row => keep row.1) day = if keep day then segmentsAt list day else 0 := by
  induction list with
  | nil => split <;> rfl
  | cons head rest ih =>
      have sum : segmentsAt (head :: rest) day = (if head.1 = day then head.2 else 0) + segmentsAt rest day := rfl
      rw [sum]
      by_cases kept : keep head.1
      · rw [List.filter_cons, if_pos kept]
        change (if head.1 = day then head.2 else 0) + segmentsAt (rest.filter fun row => keep row.1) day = _
        rw [ih]
        by_cases same : head.1 = day
        · rw [if_pos same, ← same, if_pos kept, if_pos kept]
        · rw [if_neg same, zero_add, zero_add]
      · rw [List.filter_cons, if_neg kept, ih]
        by_cases same : head.1 = day
        · rw [← same, if_neg kept, if_neg kept]
        · rw [if_neg same, zero_add]

end Added

/-! No second is counted twice. -/

section Once

variable {env : Env} {currentAt : Int} {id : String} {day : Int}

/-- A cleaned id is cleaned once more at most. -/
theorem sanitizeAgentId_thrice (raw : String) :
    sanitizeAgentId (sanitizeAgentId (sanitizeAgentId raw)) = sanitizeAgentId (sanitizeAgentId raw) := by
  set text := (dashRuns false (core (raw.toList.flatMap lowerChar))).take 64
  have allowed : ∀ c ∈ text, allowedChar c = true := fun c member =>
    allowed_of_mem_dashRuns (List.mem_of_mem_take member)
  have short : (text.rdropWhile (· = '-')).length ≤ 64 :=
    (List.rdropWhile_prefix _ _).length_le.trans (List.length_take_le _ _)
  have twice : sanitizeAgentId (sanitizeAgentId raw) = String.ofList (text.rdropWhile (· = '-')) := by
    rw [sanitizeAgentId_eq raw, sanitizeAgentId, String.toList_ofList, flatMap_lowerChar allowed,
      dashRuns_of_allowed allowed, trimDashes, open_dashRuns_core]
    change String.ofList ((List.rdropWhile _ text).take 64) = _
    rw [List.take_of_length_le short]
  obtain ⟨rest, whole⟩ : text.rdropWhile (· = '-') <+: text := List.rdropWhile_prefix _ _
  have allowed' : ∀ c ∈ text.rdropWhile (· = '-'), allowedChar c = true := fun c member =>
    allowed c (whole ▸ List.mem_append_left _ member)
  have opened : (text.rdropWhile (· = '-')).dropWhile (· = '-') = text.rdropWhile (· = '-') := by
    cases opens : text.rdropWhile (· = '-') with
    | nil => rfl
    | cons c tail =>
        have first := open_dashRuns_core (raw.toList.flatMap lowerChar) 64
        change text.dropWhile _ = text at first
        rw [← whole, opens, List.cons_append] at first
        by_cases dash : c = '-'
        · rw [List.dropWhile_cons_of_pos (by simpa using dash)] at first
          have shorter := (List.dropWhile_suffix (l := tail ++ rest) (· = '-')).length_le
          rw [first, List.length_cons] at shorter
          omega
        · rw [List.dropWhile_cons_of_neg (by simpa using dash)]
  rw [twice, sanitizeAgentId, String.toList_ofList, flatMap_lowerChar allowed', dashRuns_of_allowed allowed',
    trimDashes, opened]
  change String.ofList ((List.rdropWhile _ (text.rdropWhile _)).take 64) = _
  rw [List.rdropWhile_idempotent, List.take_of_length_le short]

/-- What can have passed of a day before some time. -/
def elapsed (env : Env) (day stop : Int) : Int := dayOverlap env day (dayStartSec day env) stop

theorem dayOverlap_le_elapsed (env : Env) (day start stop : Int) :
    dayOverlap env day start stop ≤ elapsed env day stop := by
  unfold elapsed dayOverlap overlap
  omega

theorem addedBy_liveTail {metric : MetricRow} :
    addedBy (id, day) (liveTail env currentAt metric) ≤
      if metric.updatedAt = 0 then 0 else dayOverlap env day metric.updatedAt currentAt := by
  have nonneg : 0 ≤ dayOverlap env day metric.updatedAt currentAt := overlap_nonneg
  by_cases nothing : metric.updatedAt = 0 ∨ currentAt = 0 ∨ currentAt ≤ metric.updatedAt
  · rw [liveTail, agentAvailabilitySegments, if_pos nothing]
    change (0 : Int) ≤ _
    split <;> omega
  · have shared : Shared env metric.updatedAt currentAt (agentAvailabilitySegments metric.updatedAt currentAt env) :=
      shared_segments env (by omega) (by omega)
    have bound := addedBy_rows_le (id, day) (sanitizeAgentId metric.agentId) fun row member =>
      (shared.ordered row member).1.trans (shared.ordered row member).2.1
    rw [segmentsAt_agentAvailabilitySegments env (by omega) (by omega) (by omega)] at bound
    have before : metric.updatedAt ≤ currentAt := by omega
    obtain ⟨low, high⟩ := onlineUntil_le env before
    have start : metric.updatedAt ≤ startAt metric.updatedAt currentAt env := le_max_left _ _
    rw [if_neg (by omega), liveTail]
    refine bound.trans ?_
    simp only [DaySeconds.add_total, counted]
    unfold dayOverlap overlap at *
    omega

theorem of_baselineInterval {metricRows : List MetricRow} {target : TargetRow} {start stop : Int}
    (found : baselineInterval metricRows env currentAt target = some (start, stop)) :
    target.noPublicIp = 1 ∧ ∃ metric,
      lastBy (fun row => sanitizeAgentId row.agentId) (sanitizeAgentId target.id) metricRows = some metric ∧
        metric.updatedAt ≠ 0 ∧ metric.updatedAt = stop := by
  dsimp only [baselineInterval] at found
  split at found
  · cases found
  rename_i hidden
  rw [not_or, not_not] at hidden
  obtain ⟨metric, last, found⟩ := Option.bind_eq_some_iff.mp found
  obtain ⟨begins, -, found⟩ := Option.bind_eq_some_iff.mp found
  split at found
  · cases found
  rename_i reported
  rw [not_or] at reported
  rw [Option.some.injEq, Prod.mk.injEq] at found
  exact ⟨hidden.1, metric, last, reported.1, found.2⟩

theorem addedBy_targetBaseline (env : Env) (currentAt : Int) (id : String) (day : Int) (storedRows : List DayRow)
    (metrics : MetricRows) (target : TargetRow) :
    addedBy (id, day) (targetBaseline storedRows metrics.rows env currentAt target) = 0 ∨
      target.noPublicIp = 1 ∧ sanitizeAgentId target.id = id ∧ (earliestStoredDay storedRows id).all (day < ·) = true ∧
        ∃ metric ∈ metrics.rows, sanitizeAgentId metric.agentId = id ∧ metric.updatedAt ≠ 0 ∧
          addedBy (id, day) (targetBaseline storedRows metrics.rows env currentAt target) ≤
            elapsed env day metric.updatedAt := by
  unfold targetBaseline
  cases found : baselineInterval metrics.rows env currentAt target with
  | none => exact .inl rfl
  | some interval =>
      obtain ⟨start, stop⟩ := interval
      obtain ⟨hidden, metric, last, reported, rfl⟩ := of_baselineInterval found
      have member := mem_of_lastBy last
      have named := key_of_lastBy last
      obtain ⟨raw, cleaned⟩ := metrics.cleaned metric member
      have stable : sanitizeAgentId (sanitizeAgentId target.id) = sanitizeAgentId target.id := by
        rw [← named, cleaned, sanitizeAgentId_thrice]
      by_cases own : sanitizeAgentId target.id = id
      · subst own
        have nonneg : ∀ row ∈ (addInterval .empty start metric.updatedAt true env).entries, 0 ≤ row.2.total := by
          intro row inside
          rw [← secondsAt_of_mem inside, secondsAt_addInterval]
          exact overlap_nonneg.trans (zero_add _).ge
        set earlier : Int → Bool := fun day => (earliestStoredDay storedRows (sanitizeAgentId target.id)).all (day < ·)
        have bound := addedBy_rows_le (sanitizeAgentId target.id, day) (sanitizeAgentId target.id)
          fun row inside => nonneg row (List.mem_filter (p := fun row => earlier row.1).mp inside).1
        rw [segmentsAt_filter, segmentsAt_entries, secondsAt_addInterval] at bound
        by_cases before : earlier day
        · rw [if_pos before] at bound
          refine .inr ⟨hidden, rfl, before, metric, member, named, reported, bound.trans ?_⟩
          exact (zero_add _).le.trans (dayOverlap_le_elapsed env day start metric.updatedAt)
        · rw [if_neg before] at bound
          exact .inl (le_antisymm bound addedBy_nonneg)
      · refine .inl (addedBy_eq_zero fun row inside => ?_)
        obtain ⟨entry, -, rfl⟩ := List.mem_map.mp inside
        rwa [stable]

/-- Of each agent the stored rows hold no more than lies between some first instant and its last report. -/
def Covers (env : Env) (storedRows : List DayRow) (metricRows : List MetricRow) : Prop :=
  ∀ id, ∃ first last,
    (∀ metric ∈ metricRows, sanitizeAgentId metric.agentId = id → metric.updatedAt ≠ 0 → last ≤ metric.updatedAt) ∧
      ∀ day, addedBy (id, day) storedRows ≤ dayOverlap env day first last

theorem addedBy_stored_of_before {storedRows : List DayRow}
    (before : (earliestStoredDay storedRows id).all (day < ·) = true) : addedBy (id, day) storedRows = 0 := by
  refine List.sum_eq_zero fun value member => ?_
  obtain ⟨row, inside, rfl⟩ := List.mem_map.mp member
  refine (added_spec (id, day) row).resolve_right fun own => ?_
  obtain ⟨named, on, -⟩ := own
  have listed : day ∈ storedRows.filterMap fun row =>
      if sanitizeAgentId row.agentId = id then row.day else none :=
    List.mem_filterMap.mpr ⟨row, inside, by rw [if_pos named, on]⟩
  rw [earliestStoredDay] at before
  cases least : (storedRows.filterMap fun row => if sanitizeAgentId row.agentId = id then row.day else none).min? with
  | none =>
      rw [List.min?_eq_none_iff] at least
      rw [least] at listed
      cases listed
  | some first =>
      rw [least] at before
      have lower := (List.min?_eq_some_iff.mp least).2 day listed
      have earlier : day < first := of_decide_eq_true before
      omega

section Bounds

variable {storedRows : List DayRow} {metrics : MetricRows} {targetRows : List TargetRow} {bound : Int}

/-- A target that adds to a day has a metric row, and its day is before the first one that is recorded. -/
theorem addedBy_baseline_le
    (distinct : ((targetRows.filter fun target => target.noPublicIp = 1).map fun target =>
      sanitizeAgentId target.id).Nodup) (nonneg : 0 ≤ bound)
    (each : ∀ metric ∈ metrics.rows, sanitizeAgentId metric.agentId = id → metric.updatedAt ≠ 0 →
      (earliestStoredDay storedRows id).all (day < ·) = true → elapsed env day metric.updatedAt ≤ bound) :
    addedBy (id, day) (uptimeBaselineRows storedRows metrics.rows targetRows env currentAt) ≤ bound := by
  set amount : TargetRow → Int := fun target =>
    addedBy (id, day) (targetBaseline storedRows metrics.rows env currentAt target)
  have hidden : (targetRows.map amount).sum =
      ((targetRows.filter fun target => target.noPublicIp = 1).map amount).sum := by
    rw [sum_filter_map]
    congr 1
    refine List.map_congr_left fun target _ => ?_
    split
    · rfl
    · rename_i shown
      exact (addedBy_targetBaseline env currentAt id day storedRows metrics target).resolve_right fun some_ =>
        shown (decide_eq_true some_.1)
  rw [uptimeBaselineRows, addedBy_flatMap, hidden]
  refine sum_le_of_distinct (k := id) distinct nonneg (fun target _ other => ?_) fun target _ _ => ?_
  · exact (addedBy_targetBaseline env currentAt id day storedRows metrics target).resolve_right fun some_ =>
      other some_.2.1
  · rcases addedBy_targetBaseline env currentAt id day storedRows metrics target with none_ | some_
    · exact none_.le.trans nonneg
    · obtain ⟨-, -, before, metric, member, named, reported, most⟩ := some_
      exact most.trans (each metric member named reported before)

theorem addedBy_live_le (nonneg : 0 ≤ bound)
    (each : ∀ metric ∈ metrics.rows, sanitizeAgentId metric.agentId = id → metric.updatedAt ≠ 0 →
      dayOverlap env day metric.updatedAt currentAt ≤ bound) :
    addedBy (id, day) (metrics.rows.flatMap (liveTail env currentAt)) ≤ bound := by
  rw [addedBy_flatMap]
  refine sum_le_of_distinct (k := id) metrics.distinct nonneg (fun metric member other => ?_) fun metric member own => ?_
  · refine addedBy_eq_zero fun row inside => ?_
    obtain ⟨segment, -, rfl⟩ := List.mem_map.mp inside
    obtain ⟨raw, cleaned⟩ := metrics.cleaned metric member
    have stable : sanitizeAgentId (sanitizeAgentId metric.agentId) = sanitizeAgentId metric.agentId := by
      rw [cleaned, sanitizeAgentId_thrice]
    rwa [stable]
  · refine addedBy_liveTail.trans ?_
    split
    · exact nonneg
    · rename_i reported
      exact each metric member own reported

theorem total_le (covers : Covers env storedRows metrics.rows)
    (distinct : ((targetRows.filter fun target => target.noPublicIp = 1).map fun target =>
      sanitizeAgentId target.id).Nodup) :
    addedBy (id, day) (uptimeBaselineRows storedRows metrics.rows targetRows env currentAt ++ storedRows ++
      metrics.rows.flatMap (liveTail env currentAt)) ≤ 86400 := by
  obtain ⟨first, last, reported, stored⟩ := covers id
  have ofDay := stored day
  have whole := dayOverlap_le env day first last
  rw [addedBy_append, addedBy_append]
  by_cases known : ∃ metric ∈ metrics.rows, sanitizeAgentId metric.agentId = id ∧ metric.updatedAt ≠ 0
  · obtain ⟨metric, member, named, at_⟩ := known
    have only : ∀ other ∈ metrics.rows, sanitizeAgentId other.agentId = id → other = metric := fun other among same =>
      List.inj_on_of_nodup_map metrics.distinct among member (same.trans named.symm)
    have live : addedBy (id, day) (metrics.rows.flatMap (liveTail env currentAt)) ≤
        dayOverlap env day metric.updatedAt currentAt :=
      addedBy_live_le overlap_nonneg fun other among same _ => by rw [only other among same]
    have until_ := reported metric member named at_
    by_cases before : (earliestStoredDay storedRows id).all (day < ·) = true
    · have baseline : addedBy (id, day) (uptimeBaselineRows storedRows metrics.rows targetRows env currentAt) ≤
          elapsed env day metric.updatedAt :=
        addedBy_baseline_le distinct overlap_nonneg fun other among same _ _ => by rw [only other among same]
      rw [addedBy_stored_of_before before]
      unfold elapsed dayOverlap overlap dayStartSec at *
      omega
    · have baseline : addedBy (id, day) (uptimeBaselineRows storedRows metrics.rows targetRows env currentAt) ≤ 0 :=
        addedBy_baseline_le distinct le_rfl fun _ _ _ _ earlier => absurd earlier before
      unfold dayOverlap overlap dayStartSec at *
      omega
  · have live : addedBy (id, day) (metrics.rows.flatMap (liveTail env currentAt)) ≤ 0 :=
      addedBy_live_le le_rfl fun other among same later => absurd ⟨other, among, same, later⟩ known
    have baseline : addedBy (id, day) (uptimeBaselineRows storedRows metrics.rows targetRows env currentAt) ≤ 0 :=
      addedBy_baseline_le distinct le_rfl fun other among same later _ => absurd ⟨other, among, same, later⟩ known
    omega

end Bounds

end Once

/-! Two targets under one agent id. -/

section Twins

def twinId : String := "nnnnnnnnnnnnnnnnnnnnnnnnnnnnnnnnnnnnnnnnnnnnnnnnnnnnnnnnnnnnnnnn"

/-- Ids of 65 characters are cut to the same 64. -/
def twins : List TargetRow := [⟨twinId ++ "1", 1, 1699000000⟩, ⟨twinId ++ "2", 1, 1699000000⟩]

theorem sanitizeAgentId_twinId : sanitizeAgentId twinId = twinId := by decide +kernel

def twinMetrics : MetricRows where
  rows := [⟨twinId, 1699891200, .finite 86400⟩]
  cleaned := fun row member => ⟨twinId, by rw [List.mem_singleton.mp member, sanitizeAgentId_twinId]⟩
  distinct := List.nodup_singleton _

theorem covers_twins : Covers {} [] twinMetrics.rows := by
  refine fun id => ⟨0, 0, fun metric member _ _ => ?_, fun day => overlap_nonneg⟩
  rw [List.mem_singleton.mp member]
  decide

theorem targetBaseline_twin {target : TargetRow} (hidden : target.noPublicIp = 1)
    (created : target.createdAt = 1699000000) (same : sanitizeAgentId target.id = twinId) :
    targetBaseline [] twinMetrics.rows {} 1699891200 target = [⟨twinId, some 19674, ⟨86400, 86400⟩⟩] := by
  have last : lastBy (fun row : MetricRow => sanitizeAgentId row.agentId) twinId twinMetrics.rows =
      some ⟨twinId, 1699891200, .finite 86400⟩ := by
    simp [twinMetrics, lastBy, sanitizeAgentId_twinId]
  have named : twinId ≠ "" := by decide
  have interval : baselineInterval twinMetrics.rows {} 1699891200 target = some (1699804800, 1699891200) := by
    simp only [baselineInterval, same, hidden, last, created]
    rw [if_neg (by simp [named])]
    rfl
  rw [targetBaseline, interval, same]
  rfl

end Twins

end NieSla.Availability
