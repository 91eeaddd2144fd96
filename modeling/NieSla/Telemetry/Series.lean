import NieSla.Lib.OrderedMap
import NieSla.Telemetry.Item
import NieSla.Util.Text

/-! Pings and proxy checks as series of their targets. `collate` is the order of
`localeCompare`. -/
namespace NieSla.Telemetry

structure PingSeries where
  targetId : String
  t0 : Int
  dt : List Int
  latencyMs : List (Option ℚ)
  ok : List Int
deriving DecidableEq

structure ProxyCheckSeries where
  targetId : String
  name : String
  protocol : String
  t0 : Int
  dt : List Int
  latencyMs : List (Option ℚ)
  handshakeMs : List (Option ℚ)
  firstByteMs : List (Option ℚ)
  totalMs : List (Option ℚ)
  ok : List Int
  stage : List String
  error : List (Option String)
deriving DecidableEq

section Series

variable (collate : String → String → Bool)

/-- The groups of the targets, in the order of their ids, each sorted by time. -/
def targetGroups {α : Type} (targetId : α → String) (ts : α → Int) (items : List α) :
    List (String × List α) :=
  ((OrderedMap.group targetId (items.filter fun item => targetId item ≠ "")).entries.insertionSort
    fun first second => collate first.1 second.1).map fun entry =>
      (entry.1, entry.2.insertionSort fun first second => ts first ≤ ts second)

def startOf {α : Type} (ts : α → Int) (list : List α) : Int := (list.head?.map ts).getD 0

def pingSeries (entry : String × List Ping) : PingSeries :=
  let t0 := startOf Ping.ts entry.2
  { targetId := entry.1
    t0
    dt := entry.2.map fun ping => ping.ts - t0
    latencyMs := entry.2.map Ping.latencyMs
    ok := entry.2.map Ping.ok }

def pingPointsToSeries (pings : List Ping) : List PingSeries :=
  (targetGroups collate Ping.targetId Ping.ts pings).map pingSeries

def pingsOfSeries (series : PingSeries) : List Ping :=
  series.dt.mapIdx fun index delta =>
    { targetId := series.targetId
      ts := series.t0 + delta
      latencyMs := series.latencyMs[index]?.join
      ok := series.ok[index]?.getD 0 }

def pingsFromPayload (series : List PingSeries) : List Ping := series.flatMap pingsOfSeries

def proxyCheckSeries (entry : String × List ProxyCheck) : ProxyCheckSeries :=
  let t0 := startOf ProxyCheck.ts entry.2
  let name := (entry.2.head?.map ProxyCheck.name).getD ""
  { targetId := entry.1
    name := cut 96 (if name = "" then entry.1 else name)
    protocol := cut 24 ((entry.2.head?.map ProxyCheck.protocol).getD "")
    t0
    dt := entry.2.map fun check => check.ts - t0
    latencyMs := entry.2.map ProxyCheck.latencyMs
    handshakeMs := entry.2.map ProxyCheck.handshakeMs
    firstByteMs := entry.2.map ProxyCheck.firstByteMs
    totalMs := entry.2.map ProxyCheck.totalMs
    ok := entry.2.map ProxyCheck.ok
    stage := entry.2.map fun check => cut 32 check.stage
    error := entry.2.map fun check => check.error.map (cut 64) }

def proxyChecksToSeries (checks : List ProxyCheck) : List ProxyCheckSeries :=
  (targetGroups collate ProxyCheck.targetId ProxyCheck.ts checks).map proxyCheckSeries

/-- A series that starts at 0 is skipped. -/
def checksOfSeries (series : ProxyCheckSeries) : List ProxyCheck :=
  if series.targetId = "" ∨ series.t0 = 0 then []
  else series.dt.mapIdx fun index delta =>
    { targetId := series.targetId
      name := if series.name = "" then series.targetId else series.name
      protocol := series.protocol
      ts := series.t0 + delta
      latencyMs := series.latencyMs[index]?.join
      handshakeMs := series.handshakeMs[index]?.join
      firstByteMs := series.firstByteMs[index]?.join
      totalMs := series.totalMs[index]?.join
      ok := series.ok[index]?.getD 0
      stage := series.stage[index]?.getD ""
      error := series.error[index]?.join }

def proxyChecksFromPayload (series : List ProxyCheckSeries) : List ProxyCheck :=
  series.flatMap checksOfSeries

variable {collate}

/-- The groups hold the items that name a target. -/
theorem mem_targetGroups {α : Type} {targetId : α → String} {ts : α → Int} {items : List α}
    {item : α} :
    (∃ entry ∈ targetGroups collate targetId ts items, item ∈ entry.2) ↔
      item ∈ items ∧ targetId item ≠ "" := by
  constructor
  · rintro ⟨entry, listed, member⟩
    obtain ⟨group, inside, rfl⟩ := List.mem_map.mp listed
    obtain ⟨own, _⟩ := OrderedMap.mem_group_entries ((List.mem_insertionSort _).mp inside)
    have grouped := (List.mem_insertionSort _).mp member
    rw [own] at grouped
    simpa using (List.mem_filter.mp grouped).1
  · rintro ⟨member, named⟩
    have kept : item ∈ items.filter fun item => targetId item ≠ "" := by simp [member, named]
    have found := OrderedMap.get?_group targetId (targetId item)
      (items.filter fun item => targetId item ≠ "")
    have own : item ∈ (items.filter fun item => targetId item ≠ "").filter
        fun other => targetId other = targetId item := by
      simp [member, named]
    rw [if_neg (List.ne_nil_of_mem own)] at found
    refine ⟨_, List.mem_map.mpr ⟨_, (List.mem_insertionSort _).mpr (OrderedMap.get?_eq_some.mp found),
      rfl⟩, ?_⟩
    exact (List.mem_insertionSort _).mpr own

theorem targetId_of_mem_targetGroups {α : Type} {targetId : α → String} {ts : α → Int}
    {items : List α} {entry : String × List α} (listed : entry ∈ targetGroups collate targetId ts items)
    {item : α} (member : item ∈ entry.2) : targetId item = entry.1 := by
  obtain ⟨group, inside, rfl⟩ := List.mem_map.mp listed
  obtain ⟨own, _⟩ := OrderedMap.mem_group_entries ((List.mem_insertionSort _).mp inside)
  have grouped := (List.mem_insertionSort _).mp member
  rw [own] at grouped
  simpa using (List.mem_filter.mp grouped).2

theorem pingsOfSeries_pingSeries {entry : String × List Ping}
    (own : ∀ ping ∈ entry.2, ping.targetId = entry.1) : pingsOfSeries (pingSeries entry) = entry.2 := by
  apply List.ext_getElem
  · simp [pingsOfSeries, pingSeries]
  · intro index inside bound
    have same := own entry.2[index] (List.getElem_mem bound)
    simp [pingsOfSeries, pingSeries, List.getElem?_eq_getElem bound, ← same]

/-- Series keep the pings that name a target. -/
theorem mem_pingsFromPayload {pings : List Ping} {ping : Ping} :
    ping ∈ pingsFromPayload (pingPointsToSeries collate pings) ↔
      ping ∈ pings ∧ ping.targetId ≠ "" := by
  have grouped : (∃ entry ∈ targetGroups collate Ping.targetId Ping.ts pings, ping ∈ entry.2) ↔
      ping ∈ pings ∧ ping.targetId ≠ "" := mem_targetGroups
  rw [← grouped]
  simp only [pingsFromPayload, pingPointsToSeries, List.flatMap_map, List.mem_flatMap]
  apply exists_congr
  intro entry
  apply and_congr_right
  intro listed
  rw [pingsOfSeries_pingSeries fun ping member => targetId_of_mem_targetGroups listed member]

/-- What a series keeps of its checks. -/
def seriesCheck (entry : String × List ProxyCheck) (check : ProxyCheck) : ProxyCheck :=
  let series := proxyCheckSeries entry
  { check with
    targetId := entry.1
    name := if series.name = "" then entry.1 else series.name
    protocol := series.protocol
    stage := cut 32 check.stage
    error := check.error.map (cut 64) }

theorem checksOfSeries_proxyCheckSeries {entry : String × List ProxyCheck} (named : entry.1 ≠ "")
    (positive : ∀ check ∈ entry.2, 0 < check.ts) :
    checksOfSeries (proxyCheckSeries entry) = entry.2.map (seriesCheck entry) := by
  cases checks : entry.2 with
  | nil => simp [checksOfSeries, proxyCheckSeries, checks]
  | cons first rest =>
      have started : (proxyCheckSeries entry).t0 ≠ 0 := by
        have := positive first (checks ▸ List.mem_cons_self)
        simp only [proxyCheckSeries, checks, startOf, List.head?_cons, Option.map_some,
          Option.getD_some]
        omega
      have kept : ¬ ((proxyCheckSeries entry).targetId = "" ∨ (proxyCheckSeries entry).t0 = 0) :=
        not_or.mpr ⟨named, started⟩
      rw [checksOfSeries, if_neg kept, ← checks]
      apply List.ext_getElem
      · simp [proxyCheckSeries]
      · intro index inside bound
        have inner : index < entry.2.length := by simpa using bound
        simp [proxyCheckSeries, seriesCheck, List.getElem?_eq_getElem inner]

/-- Series keep the target and the time of the checks that name a target. -/
theorem exists_proxyChecksFromPayload {checks : List ProxyCheck}
    (positive : ∀ check ∈ checks, 0 < check.ts) (targetId : String) (ts : Int) :
    (∃ check ∈ proxyChecksFromPayload (proxyChecksToSeries collate checks),
        check.targetId = targetId ∧ check.ts = ts) ↔
      targetId ≠ "" ∧ ∃ check ∈ checks, check.targetId = targetId ∧ check.ts = ts := by
  have decoded : ∀ entry ∈ targetGroups collate ProxyCheck.targetId ProxyCheck.ts checks,
      checksOfSeries (proxyCheckSeries entry) = entry.2.map (seriesCheck entry) := by
    intro entry listed
    have inside (check : ProxyCheck) (member : check ∈ entry.2) :=
      mem_targetGroups.mp ⟨entry, listed, member⟩
    by_cases empty : entry.2 = []
    · simp [checksOfSeries, proxyCheckSeries, empty]
    · obtain ⟨first, member⟩ := List.exists_mem_of_ne_nil _ empty
      apply checksOfSeries_proxyCheckSeries
      · rw [← targetId_of_mem_targetGroups listed member]
        exact (inside first member).2
      · exact fun check member => positive check (inside check member).1
  simp only [proxyChecksFromPayload, proxyChecksToSeries, List.flatMap_map, List.mem_flatMap]
  constructor
  · rintro ⟨check, ⟨entry, listed, member⟩, rfl, rfl⟩
    rw [decoded entry listed] at member
    obtain ⟨source, inside, rfl⟩ := List.mem_map.mp member
    have own := targetId_of_mem_targetGroups listed inside
    have kept := mem_targetGroups.mp ⟨entry, listed, inside⟩
    have named : entry.1 ≠ "" := own ▸ kept.2
    exact ⟨named, source, kept.1, own, rfl⟩
  · rintro ⟨named, check, member, rfl, rfl⟩
    have grouped : ∃ entry ∈ targetGroups collate ProxyCheck.targetId ProxyCheck.ts checks,
        check ∈ entry.2 := mem_targetGroups.mpr ⟨member, named⟩
    obtain ⟨entry, listed, inside⟩ := grouped
    refine ⟨seriesCheck entry check, ⟨entry, listed, ?_⟩, ?_, rfl⟩
    · rw [decoded entry listed]
      exact List.mem_map_of_mem inside
    · exact (targetId_of_mem_targetGroups listed inside).symm

end Series

end NieSla.Telemetry
