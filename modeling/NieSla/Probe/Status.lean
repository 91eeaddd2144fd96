import NieSla.Lib.OrderedMap
import NieSla.Util.Number
import NieSla.Util.Text

/-! The two probes of a target. Both decide from the state the target had and give the state that
is merged into the R2 status; only the history probe writes to D1, in one batch. Many targets are probed at once, a
region at a time. -/
namespace NieSla.Probe

/-- `value || null` -/
def orNull (value : Option Nat) : Option Nat := value.filter (· ≠ 0)

/-- `value || null`, of a text. -/
def orNullText (value : Option String) : Option String := value.filter (· ≠ "")

/-- `error ? String(error).slice(0, 500) : null` -/
def errorText (error : Option String) : Option String := (orNullText error).map (cut 500)

structure Target where
  id : String
  probeRegion : Option String := none

structure Result where
  ok : Bool
  latencyMs : Option JsNumber := none
  statusCode : Option Int := none
  error : Option String := none
  cfColo : Option String := none

/-- `Number.isFinite(latency_ms) ? Math.round(latency_ms) : null` -/
def Result.roundedLatency (result : Result) : Option Int :=
  match result.latencyMs with
  | some (.finite value) => some (mathRound value)
  | _ => none

/-- The state of a target in `status/state.json`, and its row of `latest_status`, which has no
`history_checked_at`. A time that is absent there is 0 in `historyCheckedAt`. -/
structure State where
  checkedAt : Nat
  historyCheckedAt : Nat
  ok : Bool
  latencyMs : Option Int
  statusCode : Option Int
  error : Option String
  probeRegion : String
  cfColo : Option String
  lastFailAt : Option Nat
  currentOutageStartedAt : Option Nat
  lastRecoverAt : Option Nat
  statusChangedAt : Nat
deriving DecidableEq

/-- `previous && Number(previous.ok) === 0` -/
def isDown (previous : Option State) : Bool := previous.any fun state => !state.ok

inductive IncidentAction where
  | started | stillDown | recovered
deriving DecidableEq

structure IncidentWrite where
  action : IncidentAction
  startedAt : Nat
  recoveredAt : Option Nat
  colo : Option String
  error : Option String

structure Outage where
  currentOutageStartedAt : Option Nat
  lastRecoverAt : Option Nat
  write : Option IncidentWrite

section Previous

variable (target : Target) (checkedAt : Nat) (result : Result) (previous : Option State)

/-- `previous?.current_outage_started_at || checkedAt` -/
def outageStart : Nat := (orNull (previous.bind State.currentOutageStartedAt)).getD checkedAt

def buildIncidentUpdate (error cfColo : Option String) : Outage :=
  let lastRecoverAt := orNull (previous.bind State.lastRecoverAt)
  match result.ok, isDown previous with
  | false, false =>
      { currentOutageStartedAt := some checkedAt, lastRecoverAt,
        write := some ⟨.started, checkedAt, none, cfColo, error⟩ }
  | false, true =>
      { currentOutageStartedAt := some (outageStart checkedAt previous), lastRecoverAt,
        write := some ⟨.stillDown, outageStart checkedAt previous, none, cfColo, error⟩ }
  | true, true =>
      { currentOutageStartedAt := none, lastRecoverAt := some checkedAt,
        write := some ⟨.recovered, outageStart checkedAt previous, some checkedAt, cfColo, none⟩ }
  | true, false => { currentOutageStartedAt := none, lastRecoverAt, write := none }

/-- `previous && Number(previous.ok) === ok ? previous.status_changed_at || checkedAt : checkedAt` -/
def statusChangedAt : Nat :=
  match previous with
  | some state =>
      if state.ok = result.ok then (orNull (some state.statusChangedAt)).getD checkedAt else checkedAt
  | none => checkedAt

/-- The `stateUpdate` of `saveCheck`. -/
def historyState : State :=
  let outage := buildIncidentUpdate checkedAt result previous (errorText result.error)
    (orNullText result.cfColo)
  { checkedAt
    historyCheckedAt := checkedAt
    ok := result.ok
    latencyMs := result.roundedLatency
    statusCode := result.statusCode
    error := errorText result.error
    probeRegion := (orNullText target.probeRegion).getD "auto"
    cfColo := orNullText result.cfColo
    lastFailAt := if result.ok then orNull (previous.bind State.lastFailAt) else some checkedAt
    currentOutageStartedAt := outage.currentOutageStartedAt
    lastRecoverAt := outage.lastRecoverAt
    statusChangedAt := statusChangedAt checkedAt result previous }

/-- The `state_update` of `buildFastStatusResult`; of what it takes along from `previous` only
`history_checked_at` is not set again. -/
def buildFastStatusResult : State where
  checkedAt
  historyCheckedAt := (previous.map State.historyCheckedAt).getD 0
  ok := result.ok
  latencyMs := result.roundedLatency
  statusCode := result.statusCode
  error := errorText result.error
  probeRegion := (orNullText target.probeRegion).getD "auto"
  cfColo := orNullText result.cfColo
  lastFailAt :=
    if result.ok then orNull (previous.bind State.lastFailAt)
    else if isDown previous then
      some ((orNull (previous.bind State.lastFailAt)).getD checkedAt)
    else some checkedAt
  currentOutageStartedAt :=
    if result.ok then none
    else if isDown previous then some (outageStart checkedAt previous)
    else some checkedAt
  lastRecoverAt :=
    if result.ok && isDown previous then some checkedAt
    else orNull (previous.bind State.lastRecoverAt)
  statusChangedAt := statusChangedAt checkedAt result previous

end Previous

/-- A row of `incident_events`. -/
structure Incident where
  id : String
  targetId : String
  startedAt : Nat
  recoveredAt : Option Nat := none
  lastCheckedAt : Option Nat
  startColo : Option String
  recoverColo : Option String := none
  lastError : Option String
deriving DecidableEq

/-- `status/state.json` in R2, and the D1 tables `latest_status` and `incident_events`. -/
structure Store where
  targets : OrderedMap String State := .empty
  latestStatus : OrderedMap String State := .empty
  incidents : List Incident := []

def latestStatusMinIntervalSec (env : Env) : Int :=
  let interval := configured env.probeLatestStatusMinIntervalSec 900
  clamp (if interval = .nan ∨ interval = .finite 0 then .finite 900 else interval) 60 3600

/-- The condition of `latestStatusStatement`: the row is old, or the new one differs in more than
its times. -/
def latestStatusChanges (env : Env) (row state : State) : Bool :=
  decide ((row.checkedAt : Int) + latestStatusMinIntervalSec env ≤ state.checkedAt) ||
    state.ok != row.ok || state.statusCode.getD (-1) != row.statusCode.getD (-1) ||
    state.error.isNone != row.error.isNone

/-- `latestStatusStatement` -/
def Store.upsertLatestStatus (env : Env) (store : Store) (targetId : String) (state : State) : Store :=
  if (store.latestStatus.get? targetId).all fun row => latestStatusChanges env row state then
    { store with latestStatus := store.latestStatus.set targetId state }
  else store

def incidentId (targetId : String) (startedAt : Nat) : String := s!"{targetId}-{startedAt}"

/-- The primary key, and the index that allows a target one incident that is not recovered. -/
def Incident.clash (row existing : Incident) : Bool :=
  existing.id = row.id ||
    (existing.targetId = row.targetId && existing.recoveredAt.isNone && row.recoveredAt.isNone)

/-- `INSERT OR IGNORE` -/
def Store.insertIncident (store : Store) (row : Incident) : Store :=
  if store.incidents.any row.clash then store
  else { store with incidents := store.incidents ++ [row] }

/-- `UPDATE incident_events SET … WHERE target_id = ? AND recovered_at IS NULL` -/
def Store.updateOpen (store : Store) (targetId : String) (change : Incident → Incident) : Store :=
  { store with incidents := store.incidents.map fun row =>
      if row.targetId = targetId ∧ row.recoveredAt.isNone then change row else row }

/-- The row of an outage that has started. -/
def IncidentWrite.row (targetId : String) (write : IncidentWrite) : Incident where
  id := incidentId targetId write.startedAt
  targetId
  startedAt := write.startedAt
  lastCheckedAt := some write.startedAt
  startColo := orNullText write.colo
  lastError := errorText write.error

@[simp] theorem IncidentWrite.targetId_row (targetId : String) (write : IncidentWrite) :
    (write.row targetId).targetId = targetId := rfl

def Incident.recover (row : Incident) (write : IncidentWrite) : Incident :=
  { row with
    recoveredAt := write.recoveredAt
    lastCheckedAt := (orNull write.recoveredAt).orElse fun _ => orNull (some write.startedAt)
    recoverColo := orNullText write.colo
    lastError := none }

def Incident.touch (row : Incident) (checkedAt : Nat) (write : IncidentWrite) : Incident :=
  { row with lastCheckedAt := some checkedAt, lastError := errorText write.error }

@[simp] theorem Incident.targetId_recover (row : Incident) (write : IncidentWrite) :
    (row.recover write).targetId = row.targetId := rfl

@[simp] theorem Incident.startedAt_recover (row : Incident) (write : IncidentWrite) :
    (row.recover write).startedAt = row.startedAt := rfl

@[simp] theorem Incident.recoveredAt_recover (row : Incident) (write : IncidentWrite) :
    (row.recover write).recoveredAt = write.recoveredAt := rfl

@[simp] theorem Incident.targetId_touch (row : Incident) (checkedAt : Nat) (write : IncidentWrite) :
    (row.touch checkedAt write).targetId = row.targetId := rfl

@[simp] theorem Incident.startedAt_touch (row : Incident) (checkedAt : Nat) (write : IncidentWrite) :
    (row.touch checkedAt write).startedAt = row.startedAt := rfl

@[simp] theorem Incident.recoveredAt_touch (row : Incident) (checkedAt : Nat)
    (write : IncidentWrite) : (row.touch checkedAt write).recoveredAt = row.recoveredAt := rfl

/-- `incidentEventStatement`, or `touchActiveIncidentStatement` of an outage that goes on. -/
def Store.incidentEvent (store : Store) (targetId : String) (checkedAt : Nat)
    (write : IncidentWrite) : Store :=
  match write.action with
  | .started => store.insertIncident (write.row targetId)
  | .recovered => store.updateOpen targetId fun row => row.recover write
  | .stillDown => store.updateOpen targetId fun row => row.touch checkedAt write

/-- `applyProbeWriteBatch`: one batch, whose failure is logged and not tried again. -/
def Store.applyProbeWriteBatch (env : Env) (store : Store) (targetId : String) (checkedAt : Nat)
    (latestStatus : State) (incidentWrite : Option IncidentWrite) (succeeds : Bool) : Store :=
  if !succeeds then store
  else
    let mirrored :=
      if env.probeLatestStatusToD1 then store.upsertLatestStatus env targetId latestStatus else store
    (incidentWrite.map (mirrored.incidentEvent targetId checkedAt)).getD mirrored

/-- `applyR2StateUpdate` -/
def Store.applyR2StateUpdate (store : Store) (targetId : String) (update : State) : Store :=
  let previous := store.targets.get? targetId
  let current := match previous with
    | some state => if state.checkedAt ≤ update.checkedAt then update else state
    | none => update
  let historyCheckedAt :=
    max update.historyCheckedAt ((previous.map State.historyCheckedAt).getD 0)
  { store with targets := store.targets.set targetId { current with historyCheckedAt } }

/-- A row of D1 counts when it is newer; `history_checked_at` is never taken from it. -/
def mergePreviousState (r2 d1 : Option State) : Option State :=
  match r2, d1 with
  | r2, none => r2
  | none, some row => some { row with historyCheckedAt := 0 }
  | some state, some row =>
      if state.checkedAt < row.checkedAt then
        some { row with historyCheckedAt := state.historyCheckedAt }
      else some state

/-- `buildPreviousStateMap`, at one target. -/
def Store.previousState (env : Env) (store : Store) (targetId : String) : Option State :=
  mergePreviousState (store.targets.get? targetId)
    (if env.probeLatestStatusToD1 then store.latestStatus.get? targetId else none)

/-- A probe and what is done with its result. -/
inductive Event where
  /-- A history probe; `none` is a probe that was skipped. -/
  | history (target : Target) (checkedAt : Nat) (result : Option Result) (batchSucceeds : Bool)
  | fast (target : Target) (checkedAt : Nat) (result : Result)

def Event.targetId : Event → String
  | .history target _ _ _ | .fast target _ _ => target.id

def Event.checkedAt : Event → Nat
  | .history _ checkedAt _ _ | .fast _ checkedAt _ => checkedAt

def Event.result : Event → Option Result
  | .history _ _ result _ => result
  | .fast _ _ result => some result

/-- `saveCheck`; a skipped probe writes the next time of the target only. -/
def Store.saveCheck (env : Env) (store : Store) (target : Target) (checkedAt : Nat) (result : Result)
    (batchSucceeds : Bool) (previous : Option State) : Store × State :=
  let outage := buildIncidentUpdate checkedAt result previous (errorText result.error)
    (orNullText result.cfColo)
  let update := historyState target checkedAt result previous
  (store.applyProbeWriteBatch env target.id checkedAt update outage.write batchSucceeds, update)

/-- One probe, from the state it starts with to the merge of its update. -/
def step (env : Env) (store : Store) : Event → Store
  | .history _ _ none _ => store
  | .history target checkedAt (some result) batchSucceeds =>
      let (written, update) := store.saveCheck env target checkedAt result batchSucceeds
        (store.previousState env target.id)
      written.applyR2StateUpdate target.id update
  | .fast target checkedAt result =>
      store.applyR2StateUpdate target.id
        (buildFastStatusResult target checkedAt result (store.previousState env target.id))

/-! A batch of probes. The proxy of a region probes all targets of the region at once, and its answer names them. -/

/-- `String(target?.probe_region || 'auto')` -/
def Target.region (target : Target) : String := (orNullText target.probeRegion).getD "auto"

/-- The keys of `REGION_LABELS`. -/
def allowedRegions : List String :=
  ["auto", "apac", "weur", "eeur", "enam", "wnam", "sam", "oc", "afr", "me"]

def groupTargetsByRegion (targets : List Target) : List (String × List Target) :=
  (OrderedMap.group Target.region targets).entries

section Batch

-- `result.target_id`, or `""`
variable {ρ : Type} (targetId : ρ → String)

/-- The first loop of `alignRegionBatchResults`: the ids of the targets after those that are `expected`. -/
def expectIds (expected : List String) : List Target → Option (List String)
  | [] => some expected
  | target :: rest =>
      let id := trim target.id
      if id = "" ∨ id ∈ expected then none else expectIds (expected ++ [id]) rest

/-- The second loop: the results by the ids of their targets. -/
def receive (expected : List String) (received : OrderedMap String ρ) : List ρ → Option (OrderedMap String ρ)
  | [] => some received
  | result :: rest =>
      let id := trim (targetId result)
      if id = "" ∨ id ∉ expected ∨ (received.get? id).isSome then none
      else receive expected (received.set id result) rest

/-- The results in the order of the targets, or `none` where it throws. -/
def alignRegionBatchResults (targets : List Target) (results : List ρ) : Option (List ρ) :=
  (expectIds [] targets).bind fun expected =>
    if results.length ≠ expected.length then none
    else (receive targetId expected .empty results).bind fun received =>
      if received.size ≠ expected.length then none
      else some (targets.filterMap fun target => received.get? (trim target.id))

-- whether the proxies are bound and enabled; the answer of one, or `none` where the call fails; what the probe of one
-- target gives, or its error
variable (regionProxy : Bool) (regionBatch : String → List Target → Option (List ρ)) (runSingleTarget : Target → ρ)

/-- The regions whose proxy is called. -/
def isProxied (region : String) : Bool := regionProxy && region ≠ "auto" && allowedRegions.contains region

/-- One round of the loop over the groups. -/
def probeGroup (group : String × List Target) : List ρ :=
  let batch := if isProxied regionProxy group.1 then
      (regionBatch group.1 group.2).bind (alignRegionBatchResults targetId group.2)
    else none
  batch.getD (group.2.map runSingleTarget)

/-- The results that `runTargetBatch` returns. -/
def runTargetBatch (targets : List Target) : List ρ :=
  (groupTargetsByRegion targets).flatMap (probeGroup targetId regionProxy regionBatch runSingleTarget)

end Batch

section Aligned

variable {ρ : Type} {targetId : ρ → String} {expected ids : List String} {received last : OrderedMap String ρ}
  {targets : List Target} {results aligned : List ρ}

/-- An answer names every target once. -/
structure NamesEach (targetId : ρ → String) (targets : List Target) (results : List ρ) : Prop where
  named : ∀ target ∈ targets, trim target.id ≠ ""
  distinct : (targets.map fun target => trim target.id).Nodup
  answered : (results.map fun result => trim (targetId result)).Perm (targets.map fun target => trim target.id)

theorem expectIds_iff (distinct : expected.Nodup) :
    expectIds expected targets = some ids ↔ ids = expected ++ targets.map (fun target => trim target.id) ∧
      (∀ target ∈ targets, trim target.id ≠ "") ∧ ids.Nodup := by
  induction targets generalizing expected with
  | nil =>
      rw [expectIds, Option.some_inj, List.map_nil, List.append_nil]
      constructor
      · rintro rfl
        exact ⟨rfl, by simp, distinct⟩
      · exact fun both => both.1.symm
  | cons target rest ih =>
      have spelled : expected ++ (target :: rest).map (fun target => trim target.id) =
          (expected ++ [trim target.id]) ++ rest.map (fun target => trim target.id) := by simp
      rw [spelled, List.forall_mem_cons]
      unfold expectIds
      dsimp only
      split
      next stale =>
        refine ⟨fun thrown => absurd thrown (by simp), ?_⟩
        rintro ⟨rfl, ⟨some_, -⟩, nodup⟩
        rcases stale with empty | twice
        · exact absurd empty some_
        · have apart := List.nodup_append.mp (List.nodup_append.mp nodup).1
          exact absurd rfl (apart.2.2 _ twice _ List.mem_cons_self)
      next fresh =>
        have longer : (expected ++ [trim target.id]).Nodup := by
          refine List.Nodup.append distinct (List.nodup_singleton _) ?_
          exact List.disjoint_singleton.mpr fun member => fresh (.inr member)
        rw [ih longer]
        exact ⟨fun all => ⟨all.1, ⟨fun empty => fresh (.inl empty), all.2.1⟩, all.2.2⟩,
          fun all => ⟨all.1, all.2.1.2, all.2.2⟩⟩

/-- What is received stays, and every result is received under its id. -/
theorem receive_eq_some (found : receive targetId expected received results = some last) :
    (∀ id value, received.get? id = some value → last.get? id = some value) ∧
      (∀ result ∈ results, trim (targetId result) ∈ expected ∧ last.get? (trim (targetId result)) = some result) ∧
      (results.map fun result => trim (targetId result)).Nodup ∧
      ∀ result ∈ results, received.get? (trim (targetId result)) = none := by
  induction results generalizing received with
  | nil =>
      cases found
      exact ⟨fun _ _ same => same, by simp, List.nodup_nil, by simp⟩
  | cons result rest ih =>
      unfold receive at found
      dsimp only at found
      split at found
      · cases found
      next valid =>
        obtain ⟨-, known, fresh⟩ :
            _ ∧ trim (targetId result) ∈ expected ∧ received.get? (trim (targetId result)) = none := by
          simpa only [not_or, not_not, Bool.not_eq_true, Option.isSome_eq_false_iff, Option.isNone_iff_eq_none]
            using valid
        obtain ⟨kept, each, distinct, unset⟩ := ih found
        have here : last.get? (trim (targetId result)) = some result := kept _ _ (OrderedMap.get?_set_self _ _ _)
        have apart : ∀ other ∈ rest, trim (targetId other) ≠ trim (targetId result) := by
          intro other member same
          have absent := unset other member
          rw [same, OrderedMap.get?_set_self] at absent
          cases absent
        refine ⟨fun id value before => ?_, ?_, ?_, ?_⟩
        · refine kept id value ?_
          rw [OrderedMap.get?_set_of_ne]
          · exact before
          · rintro rfl
            rw [fresh] at before
            cases before
        · intro other member
          rcases List.mem_cons.mp member with rfl | later
          · exact ⟨known, here⟩
          · exact each other later
        · rw [List.map_cons, List.nodup_cons]
          refine ⟨fun member => ?_, distinct⟩
          obtain ⟨other, among, same⟩ := List.mem_map.mp member
          exact apart other among same
        · intro other member
          rcases List.mem_cons.mp member with rfl | later
          · exact fresh
          · have absent := unset other later
            rwa [OrderedMap.get?_set_of_ne _ _ (apart other later)] at absent

theorem receive_of_fresh (known : ∀ result ∈ results, trim (targetId result) ≠ "" ∧ trim (targetId result) ∈ expected)
    (distinct : (results.map fun result => trim (targetId result)).Nodup)
    (fresh : ∀ result ∈ results, received.get? (trim (targetId result)) = none) :
    ∃ last, receive targetId expected received results = some last ∧ last.size = received.size + results.length := by
  induction results generalizing received with
  | nil => exact ⟨received, rfl, rfl⟩
  | cons result rest ih =>
      obtain ⟨⟨some_, inside⟩, others⟩ := List.forall_mem_cons.mp known
      obtain ⟨unset, later⟩ := List.forall_mem_cons.mp fresh
      rw [List.map_cons, List.nodup_cons] at distinct
      have apart : ∀ other ∈ rest, trim (targetId other) ≠ trim (targetId result) :=
        fun other member same => distinct.1 (List.mem_map.mpr ⟨other, member, same⟩)
      have unsetLater : ∀ other ∈ rest,
          (received.set (trim (targetId result)) result).get? (trim (targetId other)) = none := by
        intro other member
        rw [OrderedMap.get?_set_of_ne _ _ (apart other member)]
        exact later other member
      obtain ⟨last, found, size⟩ := ih others distinct.2 unsetLater
      refine ⟨last, ?_, ?_⟩
      · unfold receive
        dsimp only
        rw [if_neg (by simp [some_, inside, unset]), found]
      · have grown : (received.set (trim (targetId result)) result).size = received.size + 1 := by
          rw [OrderedMap.size, OrderedMap.entries_set_of_not_mem _ _ (OrderedMap.get?_eq_none.mp unset),
            List.length_append]
          rfl
        rw [size, grown, List.length_cons]
        omega

theorem alignRegionBatchResults_of_namesEach (each : NamesEach targetId targets results) :
    ∃ aligned, alignRegionBatchResults targetId targets results = some aligned := by
  have expected : expectIds [] targets = some (targets.map fun target => trim target.id) :=
    (expectIds_iff List.nodup_nil).mpr ⟨rfl, each.named, each.distinct⟩
  have count : results.length = (targets.map fun target => trim target.id).length := by
    rw [← each.answered.length_eq, List.length_map]
  have known : ∀ result ∈ results, trim (targetId result) ≠ "" ∧
      trim (targetId result) ∈ targets.map fun target => trim target.id := by
    intro result member
    have inside := each.answered.subset (List.mem_map_of_mem member)
    obtain ⟨target, among, same⟩ := List.mem_map.mp inside
    exact ⟨same ▸ each.named target among, inside⟩
  have unset : ∀ result ∈ results,
      (OrderedMap.empty : OrderedMap String ρ).get? (trim (targetId result)) = none := fun _ _ => rfl
  obtain ⟨received, taken, size⟩ := receive_of_fresh known (each.answered.nodup_iff.mpr each.distinct) unset
  have whole : received.size = (targets.map fun target => trim target.id).length := by
    rw [size, ← count]
    exact Nat.zero_add _
  unfold alignRegionBatchResults
  rw [expected, Option.bind_some, if_neg (not_not.mpr count), taken, Option.bind_some, if_neg (not_not.mpr whole)]
  exact ⟨_, rfl⟩

/-- Every target gets the result that names it. -/
theorem alignRegionBatchResults_eq_some (found : alignRegionBatchResults targetId targets results = some aligned) :
    NamesEach targetId targets results ∧
      List.Forall₂ (fun target result => result ∈ results ∧ trim (targetId result) = trim target.id)
        targets aligned := by
  unfold alignRegionBatchResults at found
  obtain ⟨ids, expected, found⟩ := Option.bind_eq_some_iff.mp found
  obtain ⟨spelled, filled, distinct⟩ := (expectIds_iff List.nodup_nil).mp expected
  rw [List.nil_append] at spelled
  split at found
  · cases found
  next count =>
    obtain ⟨received, taken, found⟩ := Option.bind_eq_some_iff.mp found
    split at found
    · cases found
    cases found
    obtain ⟨-, each, nodup, -⟩ := receive_eq_some taken
    -- as many distinct ids as there are targets: each target is named
    have inside : (results.map fun result => trim (targetId result)) ⊆ ids := by
      intro id member
      obtain ⟨result, among, rfl⟩ := List.mem_map.mp member
      exact (each result among).1
    have all : (results.map fun result => trim (targetId result)).Perm ids := by
      refine (List.subperm_of_subset nodup inside).perm_of_length_le ?_
      rw [List.length_map, not_not.mp count]
    have named : ∀ target ∈ targets, ∃ result ∈ results, trim (targetId result) = trim target.id := by
      intro target member
      have among : trim target.id ∈ ids := by
        rw [spelled]
        exact List.mem_map_of_mem member
      exact List.mem_map.mp (all.symm.subset among)
    refine ⟨⟨filled, spelled ▸ distinct, spelled ▸ all⟩, ?_⟩
    clear * - named each
    induction targets with
    | nil => exact .nil
    | cons target rest ih =>
        obtain ⟨result, member, same⟩ := named target List.mem_cons_self
        have here : received.get? (trim target.id) = some result := same ▸ (each result member).2
        rw [List.filterMap_cons, here]
        exact .cons ⟨member, same⟩ (ih fun other later => named other (List.mem_cons_of_mem _ later))

end Aligned

section Answered

variable {ρ : Type} (targetId : ρ → String) (regionProxy : Bool) (regionBatch : String → List Target → Option (List ρ))
  (runSingleTarget : Target → ρ) (targets : List Target)

/-- Where the result of a target comes from: what the proxy of its region has answered for it, if the answer names every
target of the region once, and else the probe of the target. -/
structure Answers (target : Target) (result : ρ) : Prop where
  batch : ∀ results, isProxied regionProxy target.region = true →
    regionBatch target.region (targets.filter fun other => other.region = target.region) = some results →
    NamesEach targetId (targets.filter fun other => other.region = target.region) results →
      result ∈ results ∧ trim (targetId result) = trim target.id
  single : (¬ ∃ results, isProxied regionProxy target.region = true ∧
    regionBatch target.region (targets.filter fun other => other.region = target.region) = some results ∧
    NamesEach targetId (targets.filter fun other => other.region = target.region) results) →
      result = runSingleTarget target

theorem probeGroup_answers {group : String × List Target}
    (spelled : group.2 = targets.filter fun target => target.region = group.1) :
    List.Forall₂ (Answers targetId regionProxy regionBatch runSingleTarget targets) group.2
      (probeGroup targetId regionProxy regionBatch runSingleTarget group) := by
  have regions : ∀ target ∈ group.2, target.region = group.1 := by
    intro target member
    rw [spelled] at member
    exact of_decide_eq_true (List.mem_filter.mp member).2
  have single (none_ : ¬ ∃ results, isProxied regionProxy group.1 = true ∧ regionBatch group.1 group.2 = some results ∧
      NamesEach targetId group.2 results) :
      List.Forall₂ (Answers targetId regionProxy regionBatch runSingleTarget targets) group.2
        (group.2.map runSingleTarget) := by
    rw [List.forall₂_map_right_iff, List.forall₂_same]
    intro target member
    refine ⟨fun results proxied answered each => ?_, fun _ => rfl⟩
    rw [regions target member, ← spelled] at answered each
    rw [regions target member] at proxied
    exact absurd ⟨results, proxied, answered, each⟩ none_
  unfold probeGroup
  dsimp only
  split
  next proxied =>
    cases batch : (regionBatch group.1 group.2).bind (alignRegionBatchResults targetId group.2) with
    | none =>
        refine single ?_
        rintro ⟨results, -, answered, each⟩
        obtain ⟨aligned, found⟩ := alignRegionBatchResults_of_namesEach each
        rw [answered, Option.bind_some, found] at batch
        cases batch
    | some aligned =>
        obtain ⟨results, answered, found⟩ := Option.bind_eq_some_iff.mp batch
        obtain ⟨each, owned⟩ := alignRegionBatchResults_eq_some found
        refine ((List.forall₂_and_left _ _).mpr ⟨regions, owned⟩).imp ?_
        rintro target result ⟨region, among, same⟩
        constructor
        · intro others _ given _
          rw [region, ← spelled, answered] at given
          exact ⟨Option.some.inj given ▸ among, same⟩
        · intro none_
          rw [region, ← spelled] at none_
          exact absurd ⟨results, proxied, answered, each⟩ none_
  next direct =>
    refine single ?_
    rintro ⟨results, proxied, -⟩
    exact direct proxied

/-- Every target of a batch gets one result, its own, whatever the proxies answer; the results stand in the order of the
regions. -/
theorem runTargetBatch_answers :
    ∃ order : List Target, order.Perm targets ∧
      List.Forall₂ (Answers targetId regionProxy regionBatch runSingleTarget targets) order
        (runTargetBatch targetId regionProxy regionBatch runSingleTarget targets) := by
  refine ⟨(groupTargetsByRegion targets).flatMap Prod.snd, OrderedMap.perm_group Target.region targets, ?_⟩
  have regions : ∀ group ∈ groupTargetsByRegion targets,
      group.2 = targets.filter fun target => target.region = group.1 :=
    fun group member => (OrderedMap.mem_group_entries member).1
  unfold runTargetBatch
  generalize groupTargetsByRegion targets = groups at regions ⊢
  induction groups with
  | nil => exact .nil
  | cons group rest ih =>
      obtain ⟨first, later⟩ := List.forall_mem_cons.mp regions
      rw [List.flatMap_cons, List.flatMap_cons]
      exact List.rel_append (probeGroup_answers targetId regionProxy regionBatch runSingleTarget targets first)
        (ih later)

end Answered

end NieSla.Probe
