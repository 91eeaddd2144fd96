import NieSla.Usage.Model

/-! Every estimate grows with the number of added nodes, so the capacity search finds the greatest number of nodes that
fit. -/
namespace NieSla.Usage

/-! What is monotone. -/

theorem mathRound_mono {a b : ℚ} (le : a ≤ b) : mathRound a ≤ mathRound b := by
  unfold mathRound
  gcongr

theorem round_mono {a b : ℚ} (le : a ≤ b) : round a ≤ round b := by
  unfold round
  have step := mathRound_mono (mul_le_mul_of_nonneg_right le (by norm_num : (0 : ℚ) ≤ 10))
  gcongr

theorem periodic_nonneg (seconds interval : ℚ) : 0 ≤ periodic seconds interval := by
  unfold periodic
  have quotient : 0 ≤ max 0 seconds / max 1 (orElse interval 1) := by positivity
  exact_mod_cast Int.ceil_nonneg quotient

/-- The loads of one window, of a fleet and of one that is no smaller. -/
structure Loads.Le (l l' : Loads) : Prop where
  seconds : l.seconds = l'.seconds
  probeCycles : l.probeCycles = l'.probeCycles
  cron : l.cron = l'.cron
  publicDynamic : l.publicDynamic = l'.publicDynamic
  agents : l.agents ≤ l'.agents
  latencyNodes : l.latencyNodes ≤ l'.latencyNodes
  trafficAgents : l.trafficAgents ≤ l'.trafficAgents
  probeTargets : l.probeTargets ≤ l'.probeTargets
  wssMessages : l.wssMessages ≤ l'.wssMessages
  legacyReports : l.legacyReports ≤ l'.legacyReports
  taskPolls : l.taskPolls ≤ l'.taskPolls
  updateChecks : l.updateChecks ≤ l'.updateChecks
  geoReads : l.geoReads ≤ l'.geoReads
  pingRefresh : l.pingRefresh ≤ l'.pingRefresh
  latencyCycles : l.latencyCycles ≤ l'.latencyCycles
  latencyUpdate : l.latencyUpdate ≤ l'.latencyUpdate
  handshake : l.handshake ≤ l'.handshake
  probeStateSync : l.probeStateSync ≤ l'.probeStateSync
  telemetryFlush : l.telemetryFlush ≤ l'.telemetryFlush
  archiveExpectation : l.archiveExpectation ≤ l'.archiveExpectation

/-- A fleet that is no smaller, in the same window. -/
structure UsageInputs.Le (i i' : UsageInputs) : Prop where
  hours : i.hours = i'.hours
  reportSec : i.reportSec = i'.reportSec
  latestStatusToD1 : i.latestStatusToD1 = i'.latestStatusToD1
  agents : i.agents ≤ i'.agents
  wssAgents : i.wssAgents ≤ i'.wssAgents
  legacy : i.agents - i.wssAgents ≤ i'.agents - i'.wssAgents
  targets : i.targets ≤ i'.targets
  latencyNodes : i.latencyNodes ≤ i'.latencyNodes
  trafficAgents : i.trafficAgents ≤ i'.trafficAgents

theorem loads_mono {i i' : UsageInputs} (le : i.Le i') : (loads i).Le (loads i') := by
  have window : 0 ≤ max 0.01 (orElse i'.hours 24) * 3600 := by positivity
  have wss : max 0 i.wssAgents ≤ max 0 i'.wssAgents := max_le_max_left 0 le.wssAgents
  have legacy : max 0 (i.agents - i.wssAgents) ≤ max 0 (i'.agents - i'.wssAgents) := max_le_max_left 0 le.legacy
  have targets : max 1 i.targets ≤ max 1 i'.targets := max_le_max_left 1 le.targets
  have agents := le.agents
  have nodes := le.latencyNodes
  have times (interval : ℚ) := periodic_nonneg (max 0.01 (orElse i'.hours 24) * 3600) interval
  have perRun : 0 ≤ maxTargetsPerRun := by norm_num [maxTargetsPerRun]
  have perDay : 0 ≤ handshakePerAgentDay := by norm_num [handshakePerAgentDay]
  constructor
  all_goals simp only [loads, le.hours, le.reportSec]
  case agents => exact agents
  case latencyNodes => exact nodes
  case trafficAgents => exact le.trafficAgents
  case probeTargets => exact targets
  -- Each other load is a count that grows times a number of the window.
  all_goals gcongr
  all_goals exact times _

/-! The sums grow with the loads. -/

section Sums

variable {l l' : Loads}

theorem workersBase_mono (le : l.Le l') : workersBase l ≤ workersBase l' := by
  obtain ⟨seconds, probeCycles, cron, publicDynamic, _, _, _, _, _, _, _, _, _, _, _, _, _, _, _, _⟩ := le
  unfold workersBase
  rw [cron, publicDynamic]
  gcongr

theorem aBase_mono (le : l.Le l') : aBase l ≤ aBase l' := by
  have sync := le.probeStateSync
  have flush := le.telemetryFlush
  have cycles := le.latencyCycles
  have archive := le.archiveExpectation
  unfold aBase
  gcongr

theorem bBase_mono (le : l.Le l') : bBase l ≤ bBase l' := by
  have base := aBase_mono le
  unfold bBase
  rw [le.publicDynamic]
  gcongr

theorem doBase_mono (le : l.Le l') (cycles : 0 ≤ l'.probeCycles) : doBase l ≤ doBase l' := by
  have messages := le.wssMessages
  have targets := le.probeTargets
  unfold doBase
  rw [le.probeCycles, le.cron]
  gcongr

theorem doRowsWritten_mono (le : l.Le l') (cycles : 0 ≤ l'.probeCycles) : doRowsWritten l ≤ doRowsWritten l' := by
  have messages := le.wssMessages
  have targets := le.probeTargets
  have agents := le.agents
  have five := periodic_nonneg l'.seconds 300
  have hour := periodic_nonneg l'.seconds 3600
  unfold doRowsWritten
  rw [le.probeCycles, le.seconds]
  gcongr

/-! D1. -/

/-- A profile whose costs are not negative, and one that costs no less. -/
structure Profile.Le (p p' : Profile) : Prop where
  rowsRead : p.rowsRead ≤ p'.rowsRead
  rowsWritten : p.rowsWritten ≤ p'.rowsWritten

/-- No less is charged, and nothing is credited. -/
structure ChargeLe (charge charge' : ℚ × Profile) : Prop where
  count : charge.1 ≤ charge'.1
  profile : charge.2.Le charge'.2
  readNonneg : 0 ≤ charge.2.rowsRead
  writtenNonneg : 0 ≤ charge.2.rowsWritten

theorem addD1_mono {d d' : Profile} {charge charge' : ℚ × Profile} (le : d.Le d') (more : ChargeLe charge charge') :
    (addD1 d charge).Le (addD1 d' charge') := by
  have count : max 0 charge.1 ≤ max 0 charge'.1 := max_le_max_left 0 more.count
  constructor
  · exact add_le_add le.rowsRead (mul_le_mul count more.profile.rowsRead more.readNonneg (le_max_left _ _))
  · exact add_le_add le.rowsWritten (mul_le_mul count more.profile.rowsWritten more.writtenNonneg (le_max_left _ _))

theorem foldl_addD1_mono {first second : List (ℚ × Profile)} (more : List.Forall₂ ChargeLe first second)
    {d d' : Profile} (le : d.Le d') : (first.foldl addD1 d).Le (second.foldl addD1 d') := by
  induction more generalizing d d' with
  | nil => exact le
  | cons charge _ ih => exact ih (addD1_mono le charge)

theorem ChargeLe.same {count count' : ℚ} (le : count ≤ count') {profile : Profile} (read : 0 ≤ profile.rowsRead)
    (written : 0 ≤ profile.rowsWritten) : ChargeLe (count, profile) (count', profile) :=
  ⟨le, ⟨le_rfl, le_rfl⟩, read, written⟩

theorem charges_mono (le : l.Le l') (some_ : 0 ≤ l.probeTargets) (reportSec : ℚ) (latestStatusToD1 : Bool) :
    List.Forall₂ ChargeLe (charges reportSec latestStatusToD1 l) (charges reportSec latestStatusToD1 l') := by
  have targets := le.probeTargets
  have agents := le.agents
  have perAgent (interval : ℚ) : l.agents * periodic l.seconds interval ≤ l'.agents * periodic l'.seconds interval := by
    rw [le.seconds]
    exact mul_le_mul_of_nonneg_right agents (periodic_nonneg _ _)
  have perTarget (interval : ℚ) :
      l.probeTargets * periodic l.seconds interval ≤ l'.probeTargets * periodic l'.seconds interval := by
    rw [le.seconds]
    exact mul_le_mul_of_nonneg_right targets (periodic_nonneg _ _)
  have rate : 0 ≤ probeD1FallbackRate := by norm_num [probeD1FallbackRate]
  have mirrored : (if latestStatusToD1 then l.probeTargets * periodic l.seconds latestStatusMinIntervalSec else 0) ≤
      if latestStatusToD1 then l'.probeTargets * periodic l'.seconds latestStatusMinIntervalSec else 0 := by
    split
    · exact perTarget _
    · exact le_rfl
  have traffic : l.trafficAgents * periodic l.seconds 1800 ≤ l'.trafficAgents * periodic l'.seconds 1800 := by
    rw [le.seconds]
    exact mul_le_mul_of_nonneg_right le.trafficAgents (periodic_nonneg _ _)
  have credentials : (l.agents + l.latencyNodes) * periodic l.seconds credentialTouchSec ≤
      (l'.agents + l'.latencyNodes) * periodic l'.seconds credentialTouchSec := by
    rw [le.seconds]
    exact mul_le_mul_of_nonneg_right (add_le_add agents le.latencyNodes) (periodic_nonneg _ _)
  have fallback : mathRound (l.probeTargets * 12 * probeD1FallbackRate) ≤
      mathRound (l'.probeTargets * 12 * probeD1FallbackRate) := mathRound_mono (by gcongr)
  have cron : l.cron ≤ l'.cron := le.cron.le
  have dynamic : (⌈l.publicDynamic * 0.06⌉ : ℚ) ≤ ⌈l'.publicDynamic * 0.06⌉ := by rw [le.publicDynamic]
  have window (interval : ℚ) : periodic l.seconds interval ≤ periodic l'.seconds interval := by rw [le.seconds]
  have daily : ChargeLe (periodic l.seconds 86400, ⟨1, 2, l.probeTargets * 288, max 1 (mathRound (l.probeTargets * 12 *
      probeD1FallbackRate))⟩) (periodic l'.seconds 86400, ⟨1, 2, l'.probeTargets * 288, max 1 (mathRound
      (l'.probeTargets * 12 * probeD1FallbackRate))⟩) :=
    ⟨window 86400, ⟨mul_le_mul_of_nonneg_right targets (by norm_num), max_le_max_left 1 fallback⟩,
      mul_nonneg some_ (by norm_num), zero_le_one.trans (le_max_left _ _)⟩
  have twice : ChargeLe (l.cron * 2, ⟨1, 0, l.probeTargets, 0⟩) (l'.cron * 2, ⟨1, 0, l'.probeTargets, 0⟩) :=
    ⟨mul_le_mul_of_nonneg_right cron (by norm_num), ⟨targets, le_rfl⟩, some_, le_rfl⟩
  simp only [charges, List.forall₂_cons, List.forall₂_nil_left_iff, and_true]
  refine ⟨.same le.wssMessages ?_ ?_, .same le.legacyReports ?_ ?_, .same le.taskPolls ?_ ?_,
    .same le.updateChecks ?_ ?_, .same le.geoReads ?_ ?_, .same le.pingRefresh ?_ ?_, .same le.latencyCycles ?_ ?_,
    .same le.latencyCycles ?_ ?_, .same le.latencyUpdate ?_ ?_, .same cron ?_ ?_, .same (perAgent 900) ?_ ?_,
    .same (perAgent 1800) ?_ ?_, .same (mul_le_mul_of_nonneg_right (perTarget reportSec) rate) ?_ ?_,
    .same (perTarget 7200) ?_ ?_, .same mirrored ?_ ?_, .same le.probeStateSync ?_ ?_, .same cron ?_ ?_,
    .same traffic ?_ ?_, .same dynamic ?_ ?_, .same (window 3600) ?_ ?_, .same credentials ?_ ?_, daily, twice⟩
  all_goals norm_num

theorem d1Of_mono {i i' : UsageInputs} (le : i.Le i') : (d1Of i).Le (d1Of i') := by
  have some_ : 0 ≤ (loads i).probeTargets := zero_le_one.trans (le_max_left 1 _)
  rw [d1Of, d1Of, le.reportSec, le.latestStatusToD1]
  exact foldl_addD1_mono (charges_mono (loads_mono le) some_ _ _) ⟨le_rfl, le_rfl⟩

end Sums

/-- A fleet that is no smaller is not estimated to use less. -/
theorem estimateUsage_mono {i i' : UsageInputs} (le : i.Le i') (key : QuotaKey) :
    (estimateUsage i).estimates key ≤ (estimateUsage i').estimates key := by
  have more := loads_mono le
  have d1 := d1Of_mono le
  have cycles : 0 ≤ (loads i').probeCycles := periodic_nonneg _ _
  refine round_mono ?_
  cases key with
  | workersCalls => exact mul_le_mul_of_nonneg_right (workersBase_mono more) (by norm_num)
  | doRequests => exact mul_le_mul_of_nonneg_right (doBase_mono more cycles) (by norm_num)
  | doRowsWritten => exact doRowsWritten_mono more cycles
  | d1RowsWritten =>
      have written := d1.rowsWritten
      simp only [estimated, indexWriteMultiplier, rowsWrittenMultiplier]
      gcongr
  | d1RowsRead =>
      have read := d1.rowsRead
      simp only [estimated, rowsReadMultiplier]
      gcongr
  | r2ClassA =>
      have base := aBase_mono more
      simp only [estimated, r2ClassAMultiplier]
      gcongr
  | r2ClassB => exact mul_le_mul_of_nonneg_right (bBase_mono more) (by norm_num)

/-! The search. -/

section Capacity

variable (base : UsageInputs)

/-- The estimate of a quota with some more nodes. -/
def valueAt (key : QuotaKey) (extra : ℕ) : ℚ := (capacityEstimateAt base (defaultPerNode base) extra).estimates key

theorem valueAt_mono (key : QuotaKey) : Monotone (valueAt base key) := by
  intro m n le
  have more : (m : ℚ) ≤ n := Nat.cast_le.mpr le
  unfold valueAt capacityEstimateAt
  apply estimateUsage_mono
  constructor
  case hours | reportSec | latestStatusToD1 => rfl
  case agents | targets => simpa [defaultPerNode] using le
  case latencyNodes | trafficAgents => simp [defaultPerNode]
  -- A new node is a WSS agent or a legacy agent, so neither kind becomes fewer.
  case wssAgents =>
      simp only [defaultPerNode]
      split <;> linarith
  case legacy =>
      simp only [defaultPerNode]
      split <;> linarith

/-- The greatest number of nodes up to the ceiling with which, and with fewer, the value is within the target; none if
it is above the target already. -/
def IsCapacity (value : ℕ → ℚ) (target : ℚ) (result : ℕ) : Prop :=
  if target < value 0 then result = 0
  else IsGreatest {n | n ≤ capacityCeiling ∧ ∀ m ≤ n, value m ≤ target} result

/-- The search is exact for values that do not decrease. -/
theorem searchExtra_isCapacity {value : ℕ → ℚ} (mono : Monotone value) (target : ℚ) :
    IsCapacity value target (searchExtra value target) := by
  have closed (m n : ℕ) (le : m ≤ n) (fits : decide (value n ≤ target) = true) : decide (value m ≤ target) = true :=
    decide_eq_true ((mono le).trans (of_decide_eq_true fits))
  have greatest {lo : ℕ} (le : lo ≤ capacityCeiling) (low : decide (value lo ≤ target) = true)
      (next : lo = capacityCeiling ∨ decide (value (lo + 1) ≤ target) = false) :
      IsGreatest {n | n ≤ capacityCeiling ∧ ∀ m ≤ n, value m ≤ target} lo := by
    simpa only [decide_eq_true_eq] using Search.isGreatest_of_next closed le low next
  unfold IsCapacity searchExtra
  split
  case isTrue => rfl
  case isFalse within =>
    have none_ : decide (value 0 ≤ target) = true := decide_eq_true (not_lt.mp within)
    by_cases all : value capacityCeiling ≤ target
    · simp only [all, if_true]
      exact greatest le_rfl (decide_eq_true all) (.inl rfl)
    · simp only [all, if_false]
      set hi := Search.doubled (fun extra => decide (value extra ≤ target)) capacityCeiling 8 first_pos with doubled
      have positive : 0 < min hi capacityCeiling :=
        lt_min (Search.doubled_pos first_pos) (by decide)
      -- Where the doubling passes the ceiling, the ceiling itself does not fit.
      have high : decide (value (min hi capacityCeiling) ≤ target) = false := by
        by_cases below : hi < capacityCeiling
        · rw [min_eq_left below.le]
          exact Search.doubled_not_fits first_pos below
        · rw [min_eq_right (not_lt.mp below)]
          exact decide_eq_false all
      obtain ⟨lt, low, next⟩ :=
        @Search.bisect_spec (fun extra => decide (value extra ≤ target)) 0 (min hi capacityCeiling) positive none_ high
      exact greatest (lt.le.trans (min_le_right _ _)) low (.inr next)

/-- For every input: the estimate of each quota does not decrease with the number of added nodes, and the extra nodes
within 80 and 100 percent of its limit are as many as fit. -/
theorem estimateCapacity_exact (inputs : UsageInputs) :
    (∀ key, Monotone (valueAt (baseOf inputs) key)) ∧
    (estimateCapacity inputs).map Prod.fst = capacityQuotas ∧
    ∀ entry ∈ estimateCapacity inputs,
      IsCapacity (valueAt (baseOf inputs) entry.1) (freeTier entry.1 * 0.8) entry.2.extraNodes80 ∧
      IsCapacity (valueAt (baseOf inputs) entry.1) (freeTier entry.1) entry.2.extraNodes100 := by
  refine ⟨valueAt_mono (baseOf inputs), rfl, fun entry member => ?_⟩
  obtain ⟨key, _, rfl⟩ := List.mem_map.mp member
  exact ⟨searchExtra_isCapacity (valueAt_mono (baseOf inputs) key) _,
    searchExtra_isCapacity (valueAt_mono (baseOf inputs) key) _⟩

end Capacity

end NieSla.Usage
