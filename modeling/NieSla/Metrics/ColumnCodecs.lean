import NieSla.Metrics.Columns

/-! What the two column codecs keep of metric points. Both decoders are the same, so each reads
the columns of either encoder. -/
namespace NieSla.Metrics

open Telemetry

/-- The names of the sensors, the first one of each id. -/
def firstNames (sensors : List TemperatureSensor) : List SensorName :=
  sensors.foldl (fun names sensor =>
    if sensor.id ∈ names.map SensorName.id then names else names ++ [sensor.name]) []

def sensorsOf (points : List MetricPoint) : List TemperatureSensor :=
  points.flatMap MetricPoint.temperatureSensors

/-- The sensors of a point in the order and under the names of a list. -/
def sensorsNamed (names : List SensorName) (sensors : List TemperatureSensor) :
    List TemperatureSensor :=
  names.filterMap fun name => (sensors.find? fun sensor => sensor.id = name.id).map fun sensor =>
    ⟨name.id, name.label, name.kind, sensor.tempC⟩

/-- The sensors of a point as they are reported: normal, of distinct ids, at most sixteen. -/
structure SensorsValid (sensors : List TemperatureSensor) : Prop where
  valid : ∀ sensor ∈ sensors, sensor.Valid
  distinct : (sensors.map TemperatureSensor.id).Nodup
  few : sensors.length ≤ 16

/-- What a point among others is decoded to: its time, the values of its fields and of its
sensors; no field that none of the points has. -/
structure Kept (points : List MetricPoint) (source decoded : MetricPoint) : Prop where
  ts : decoded.ts = source.ts
  present : ∀ field value, source.field? field = some value → decoded.field? field = some value
  absent : ∀ field, (∀ point ∈ points, point.field? field = none) → decoded.field? field = none
  sensors : decoded.temperatureSensors =
    sensorsNamed (firstNames (sensorsOf points)) source.temperatureSensors
  unchanged : (source.temperatureSensors.map TemperatureSensor.name).Sublist
    (firstNames (sensorsOf points)) → decoded.temperatureSensors = source.temperatureSensors

/-! Names. -/

theorem nodup_firstNames (sensors : List TemperatureSensor) :
    ((firstNames sensors).map SensorName.id).Nodup := by
  unfold firstNames
  induction sensors using List.reverseRecOn with
  | nil => exact List.nodup_nil
  | append_singleton rest sensor ih =>
      rw [List.foldl_append, List.foldl_cons, List.foldl_nil]
      split
      · exact ih
      · rename_i new
        rw [List.map_append]
        refine List.nodup_append.mpr ⟨ih, List.nodup_singleton _, ?_⟩
        rintro id member _ (_ | ⟨_, ⟨⟩⟩) rfl
        exact new member

/-- A loop that files the first sensor of each id lists the first names. -/
theorem values_foldl_names {sensors : List TemperatureSensor}
    {list : OrderedMap String SensorName → TemperatureSensor → OrderedMap String SensorName}
    (adds : ∀ map, ∀ sensor ∈ sensors, list map sensor =
      if (map.get? sensor.id).isSome then map else map.set sensor.id sensor.name) :
    (sensors.foldl list .empty).values = firstNames sensors := by
  suffices filed : (sensors.foldl list .empty).entries =
      (firstNames sensors).map fun name => (name.id, name) by
    rw [OrderedMap.values, filed, List.map_map]
    exact List.map_id _
  unfold firstNames
  induction sensors using List.reverseRecOn with
  | nil => rfl
  | append_singleton rest sensor ih =>
      have before := ih fun map other member => adds map other (List.mem_append_left _ member)
      simp only [List.foldl_append, List.foldl_cons, List.foldl_nil]
      rw [adds _ sensor (List.mem_append_right _ (List.mem_singleton_self sensor))]
      generalize rest.foldl list .empty = map at *
      generalize rest.foldl _ [] = names at *
      have keys : map.keys = names.map SensorName.id := by
        rw [OrderedMap.keys, before, List.map_map]
        rfl
      by_cases known : sensor.id ∈ names.map SensorName.id
      · have found : (map.get? sensor.id).isSome := by
          rw [Option.isSome_iff_ne_none, Ne, OrderedMap.get?_eq_none, keys]
          exact not_not.mpr known
        rw [if_pos found, if_pos known, before]
      · have unknown : map.get? sensor.id = none := OrderedMap.get?_eq_none.mpr (keys ▸ known)
        rw [if_neg (by simp [unknown]), if_neg known, List.map_append,
          map.entries_set_of_not_mem _ (keys ▸ known), before]
        rfl

/-! Valid sensors. -/

structure NormalSensor (sensor : TemperatureSensor) : Prop where
  id_cut : cut 64 (trim sensor.id) = sensor.id
  id_ne : sensor.id ≠ ""
  label_cut : cut 128 (trim sensor.label) = sensor.label
  label_ne : sensor.label ≠ ""
  kind : (if sensorKinds.contains sensor.kind then sensor.kind else "other") = sensor.kind
  temp : max (-100) (min 1000 sensor.tempC) = sensor.tempC

theorem normal_of_valid {sensor : TemperatureSensor} (valid : sensor.Valid) :
    NormalSensor sensor := by
  unfold TemperatureSensor.Valid normalizeBufferedTemperatureSensor at valid
  dsimp only [TemperatureSensor.name] at valid
  split at valid
  · cases valid
  · rename_i some_
    rw [Option.map_some, Option.some.injEq] at valid
    obtain ⟨id, label, kind, temp⟩ := sensor
    simp only [TemperatureSensor.mk.injEq] at valid
    obtain ⟨idCut, labelCut, kindKept, tempKept⟩ := valid
    rw [idCut, labelCut, not_or] at some_
    exact ⟨idCut, some_.1, labelCut, some_.2, kindKept, tempKept⟩

theorem NormalSensor.trim_id {sensor : TemperatureSensor} (normal : NormalSensor sensor) :
    trim sensor.id = sensor.id :=
  trim_of_cut_trim normal.id_cut

/-- Under a normal name a temperature is bounded only. -/
theorem normalize_named {sensor : TemperatureSensor} (normal : NormalSensor sensor) (temp : ℚ) :
    normalizeBufferedTemperatureSensor sensor.name (some temp) =
      some ⟨sensor.id, sensor.label, sensor.kind, max (-100) (min 1000 temp)⟩ := by
  unfold normalizeBufferedTemperatureSensor
  dsimp only [TemperatureSensor.name]
  rw [normal.id_cut, normal.label_cut, if_neg (not_or.mpr ⟨normal.id_ne, normal.label_ne⟩),
    Option.map_some, Option.some.injEq, TemperatureSensor.mk.injEq]
  exact ⟨rfl, rfl, normal.kind, rfl⟩

theorem mem_firstNames {sensors : List TemperatureSensor} {name : SensorName}
    (member : name ∈ firstNames sensors) : ∃ sensor ∈ sensors, sensor.name = name := by
  unfold firstNames at member
  induction sensors using List.reverseRecOn with
  | nil => cases member
  | append_singleton rest sensor ih =>
      rw [List.foldl_append, List.foldl_cons, List.foldl_nil] at member
      have earlier (inRest : name ∈ rest.foldl (fun names sensor =>
          if sensor.id ∈ names.map SensorName.id then names else names ++ [sensor.name]) []) :
          ∃ other ∈ rest ++ [sensor], other.name = name := by
        obtain ⟨other, inside, same⟩ := ih inRest
        exact ⟨other, List.mem_append_left _ inside, same⟩
      split at member
      · exact earlier member
      · cases List.mem_append.mp member with
        | inl inRest => exact earlier inRest
        | inr new =>
            exact ⟨sensor, List.mem_append_right _ (List.mem_singleton_self sensor),
              (List.mem_singleton.mp new).symm⟩

/-- Columns under the first names give each point its sensors back. -/
theorem sensors_restored {points : List MetricPoint} {sensors : List TemperatureSensor}
    {temp : SensorName → Option ℚ}
    (normal : ∀ sensor ∈ sensorsOf points, NormalSensor sensor)
    (temps : ∀ name ∈ firstNames (sensorsOf points),
      (temp name).map (fun temp => max (-100) (min 1000 temp)) =
        (sensors.find? fun sensor => sensor.id = name.id).map TemperatureSensor.tempC) :
    ((firstNames (sensorsOf points)).filterMap fun name =>
      normalizeBufferedTemperatureSensor name (temp name)) =
        sensorsNamed (firstNames (sensorsOf points)) sensors := by
  unfold sensorsNamed
  apply List.filterMap_congr
  intro name listed
  obtain ⟨first, member, rfl⟩ := mem_firstNames listed
  have same := temps _ listed
  cases found : sensors.find? fun sensor => sensor.id = first.name.id with
  | none =>
      rw [found, Option.map_none, Option.map_eq_none_iff] at same
      rw [same]
      simp [normalizeBufferedTemperatureSensor]
  | some sensor =>
      rw [found, Option.map_some, Option.map_eq_some_iff] at same
      obtain ⟨number, column, bounded⟩ := same
      rw [column, normalize_named (normal first member), bounded]
      rfl

/-- Sensors that stand in the order of the names stay as they are. -/
theorem sensorsNamed_of_sublist {names : List SensorName} (distinct : (names.map SensorName.id).Nodup)
    {sensors : List TemperatureSensor}
    (inOrder : (sensors.map TemperatureSensor.name).Sublist names) :
    sensorsNamed names sensors = sensors := by
  induction names generalizing sensors with
  | nil =>
      rw [List.map_eq_nil_iff.mp (List.sublist_nil.mp inOrder)]
      rfl
  | cons name rest ih =>
      rw [List.map_cons, List.nodup_cons] at distinct
      have other (list : List TemperatureSensor) (later : (list.map TemperatureSensor.name).Sublist rest) :
          ∀ sensor ∈ list, sensor.id ≠ name.id := by
        intro sensor member same
        apply distinct.1
        rw [← same]
        exact List.mem_map.mpr ⟨sensor.name, later.subset (List.mem_map_of_mem member), rfl⟩
      cases List.sublist_cons_iff.mp inOrder with
      | inl later =>
          have unfound : sensors.find? (fun sensor => sensor.id = name.id) = none := by
            simpa using other sensors later
          rw [sensorsNamed, List.filterMap_cons, unfound]
          exact ih distinct.2 later
      | inr first =>
          obtain ⟨tail, split, later⟩ := first
          obtain ⟨sensor, others, rfl, named, rfl⟩ := List.map_eq_cons_iff.mp split
          subst named
          have kept : sensorsNamed rest (sensor :: others) = sensorsNamed rest others := by
            apply List.filterMap_congr
            intro name member
            have different : sensor.id ≠ name.id := fun same =>
              distinct.1 (List.mem_map.mpr ⟨name, member, same.symm⟩)
            rw [List.find?_cons_of_neg (by simpa using different)]
          have head : sensorsNamed (sensor.name :: rest) (sensor :: others) =
              sensor :: sensorsNamed rest (sensor :: others) := by
            unfold sensorsNamed
            rw [List.filterMap_cons, List.find?_cons_of_pos (by simp [TemperatureSensor.name])]
            rfl
          rw [head, kept, ih distinct.2 later]

/-! The codec of the telemetry buffer. -/

section Codecs

variable {points : List MetricPoint}

theorem mem_sensorsOf_byTs {sensor : TemperatureSensor} :
    sensor ∈ sensorsOf (byTs points) ↔ sensor ∈ sensorsOf points := by
  simp only [sensorsOf, List.mem_flatMap, mem_byTs]

/-- A decoded point is kept when its fields and its sensors are. -/
theorem kept_restored {list : List MetricPoint} {source point : MetricPoint} {fields : List String}
    {temp : SensorName → MetricPoint → Option ℚ} {value : Option ℚ → ℚ}
    (ts : source.ts = point.ts)
    (values : ∀ field number, source.field? field = some number →
      field ∈ fields ∧ value (point.field? field) = number)
    (unused : ∀ field, (∀ other ∈ list, other.field? field = none) → field ∉ fields)
    (normal : ∀ sensor ∈ sensorsOf list, NormalSensor sensor)
    (temps : ∀ name ∈ firstNames (sensorsOf list),
      (temp name point).map (fun temp => max (-100) (min 1000 temp)) =
        (source.temperatureSensors.find? fun sensor => sensor.id = name.id).map
          TemperatureSensor.tempC) :
    Kept list source (restored fields (firstNames (sensorsOf list)) temp value point) := by
  have sensors := sensors_restored normal temps
  constructor
  · exact ts.symm
  · intro field number found
    obtain ⟨used, same⟩ := values field number found
    rw [restored_field?, if_pos used, same]
  · intro field nowhere
    rw [restored_field?, if_neg (unused field nowhere)]
  · exact sensors
  · intro inOrder
    exact sensors.trans (sensorsNamed_of_sublist (nodup_firstNames _) inOrder)

theorem find?_trim_id {sensors : List TemperatureSensor}
    (normal : ∀ sensor ∈ sensors, NormalSensor sensor) (id : String) :
    (sensors.find? fun sensor => trim sensor.id = id) =
      sensors.find? fun sensor => sensor.id = id := by
  induction sensors with
  | nil => rfl
  | cons sensor rest ih =>
      obtain ⟨first, others⟩ := List.forall_mem_cons.mp normal
      rw [List.find?_cons, List.find?_cons, first.trim_id, ih others]

theorem values_listedSensors (valid : ∀ point ∈ points, SensorsValid point.temperatureSensors) :
    (Telemetry.listedSensors points).values = firstNames (sensorsOf points) := by
  have whole : (points.flatMap fun point => point.temperatureSensors.take 16) = sensorsOf points := by
    apply List.flatMap_congr
    intro point member
    exact List.take_of_length_le (valid point member).few
  unfold Telemetry.listedSensors
  rw [whole]
  apply values_foldl_names
  intro map sensor member
  obtain ⟨point, inPoints, inside⟩ := List.mem_flatMap.mp member
  have same := (valid point inPoints).valid sensor inside
  unfold TemperatureSensor.Valid at same
  simp only [Telemetry.listSensor, same]

/-- Columns of the telemetry buffer. -/
theorem kept_buffered (valid : ∀ point ∈ points, SensorsValid point.temperatureSensors) :
    List.Forall₂ (Kept (byTs points)) (byTs points)
      (metricsFromPayload (Telemetry.metricPointsToColumns points)) := by
  have sorted : ∀ point ∈ byTs points, SensorsValid point.temperatureSensors :=
    fun point member => valid point (mem_byTs.mp member)
  have normal : ∀ point ∈ byTs points, ∀ sensor ∈ point.temperatureSensors, NormalSensor sensor :=
    fun point member sensor inside => normal_of_valid ((sorted point member).valid sensor inside)
  rw [metricsFromPayload_metricPointsToColumns, values_listedSensors sorted, List.forall₂_map_right_iff]
  apply List.forall₂_same.mpr
  intro point member
  apply kept_restored rfl
  · intro field number found
    refine ⟨mem_fieldsOf.mpr ⟨point, member, by simp [found]⟩, ?_⟩
    rw [found]
    rfl
  · intro field nowhere used
    obtain ⟨other, inside, some_⟩ := mem_fieldsOf.mp used
    rw [nowhere other inside] at some_
    cases some_
  · intro sensor inside
    obtain ⟨other, listed, own⟩ := List.mem_flatMap.mp inside
    exact normal other listed sensor own
  · intro name _
    unfold Telemetry.sensorTemp
    rw [find?_trim_id (normal point member)]
    cases found : point.temperatureSensors.find? fun sensor => sensor.id = name.id with
    | none => rfl
    | some sensor =>
        have inside := List.mem_of_find?_eq_some found
        have same := (sorted point member).valid sensor inside
        unfold TemperatureSensor.Valid at same
        rw [Option.bind_some, same, Option.map_some, Option.map_some,
          (normal point member sensor inside).temp]

/-! The codec of the history. -/

theorem freshSensors_of_valid {seen : List String} {sensors : List TemperatureSensor}
    (valid : ∀ sensor ∈ sensors, sensor.Valid)
    (distinct : (sensors.map TemperatureSensor.id).Nodup)
    (new : ∀ sensor ∈ sensors, sensor.id ∉ seen) : freshSensors seen sensors = sensors := by
  induction sensors generalizing seen with
  | nil => rfl
  | cons sensor rest ih =>
      obtain ⟨first, others⟩ := List.forall_mem_cons.mp valid
      obtain ⟨unseen, later⟩ := List.forall_mem_cons.mp new
      rw [List.map_cons, List.nodup_cons] at distinct
      unfold TemperatureSensor.Valid at first
      simp only [freshSensors, first]
      rw [if_neg unseen, ih others distinct.2]
      intro other member seen_
      cases List.mem_cons.mp seen_ with
      | inl same => exact distinct.1 (same ▸ List.mem_map_of_mem member)
      | inr before => exact later other member before

theorem normalizeTemperatureSensors_of_valid {sensors : List TemperatureSensor}
    (valid : SensorsValid sensors) : normalizeTemperatureSensors sensors = sensors := by
  unfold normalizeTemperatureSensors
  rw [List.take_of_length_le valid.few]
  exact freshSensors_of_valid valid.valid valid.distinct fun _ _ => List.not_mem_nil

/-- A point with its values rounded. -/
def roundPoint (point : MetricPoint) : MetricPoint :=
  { ts := point.ts
    fields := point.fields.map fun entry => (entry.1, roundMetric entry.2)
    temperatureSensors := point.temperatureSensors.map fun sensor =>
      { sensor with tempC := boundedMetric (some (roundMetric sensor.tempC)) (-100) 1000 } }

theorem field?_roundPoint (point : MetricPoint) (field : String) :
    (roundPoint point).field? field = (point.field? field).map roundMetric := by
  unfold MetricPoint.field? roundPoint
  dsimp only
  induction point.fields with
  | nil => rfl
  | cons entry rest ih =>
      rw [List.map_cons, List.lookup_cons, List.lookup_cons, ih]
      cases field == entry.1 <;> rfl

theorem mem_metricFields {point : MetricPoint} {field : String}
    (some_ : ((normalizeMetricPoint point).field? field).isSome) : field ∈ metricFields := by
  rw [field?_isSome, normalizeMetricPoint, List.map_append, List.mem_append] at some_
  cases some_ with
  | inl base =>
      simp only [List.map_cons, List.map_nil, List.mem_cons, List.not_mem_nil, or_false] at base
      simp only [metricFields, List.mem_cons, List.not_mem_nil, or_false]
      tauto
  | inr optional =>
      obtain ⟨entry, member, rfl⟩ := List.mem_map.mp optional
      obtain ⟨key, listed, found⟩ := List.mem_filterMap.mp member
      obtain ⟨number, _, rfl⟩ := Option.map_eq_some_iff.mp found
      have every : ∀ key ∈ optionalFields, key ∈ metricFields := by decide
      exact every key listed

theorem values_listedSensors_history
    (valid : ∀ point ∈ points, SensorsValid point.temperatureSensors) :
    (listedSensors points).values = firstNames (sensorsOf points) := by
  apply values_foldl_names
  intro map sensor member
  obtain ⟨point, inPoints, inside⟩ := List.mem_flatMap.mp member
  have normal := normal_of_valid ((valid point inPoints).valid sensor inside)
  unfold listSensor
  dsimp only
  rw [normal.id_cut, normal.label_cut, normal.kind]
  simp [normal.id_ne, normal.label_ne, TemperatureSensor.name]

/-- The points of the history before they are put into columns. -/
def historyPoints (points : List MetricPoint) : List MetricPoint :=
  byTs (points.map normalizeMetricPoint)

/-- Columns of the history. -/
theorem kept_history (positive : ∀ point ∈ points, 0 < point.ts)
    (valid : ∀ point ∈ points, SensorsValid point.temperatureSensors) :
    List.Forall₂ (Kept (historyPoints points)) ((historyPoints points).map roundPoint)
      (metricsFromPayload (metricPointsToColumns points)) := by
  have every : (points.map normalizeMetricPoint).filter (fun point => 0 < point.ts) =
      points.map normalizeMetricPoint := by
    apply List.filter_eq_self.mpr
    intro point member
    obtain ⟨source, inside, rfl⟩ := List.mem_map.mp member
    exact decide_eq_true (positive source inside)
  have sorted : ∀ point ∈ historyPoints points, SensorsValid point.temperatureSensors := by
    intro point member
    obtain ⟨source, inside, rfl⟩ := List.mem_map.mp (mem_byTs.mp member)
    have own := valid source inside
    have kept : (normalizeMetricPoint source).temperatureSensors = source.temperatureSensors :=
      normalizeTemperatureSensors_of_valid own
    rw [kept]
    exact own
  have normalized : ∀ point ∈ historyPoints points, ∃ source, point = normalizeMetricPoint source := by
    intro point member
    obtain ⟨source, _, rfl⟩ := List.mem_map.mp (mem_byTs.mp member)
    exact ⟨source, rfl⟩
  have normal : ∀ point ∈ historyPoints points, ∀ sensor ∈ point.temperatureSensors,
      NormalSensor sensor :=
    fun point member sensor inside => normal_of_valid ((sorted point member).valid sensor inside)
  have decoded : metricsFromPayload (metricPointsToColumns points) =
      (historyPoints points).map (restored
        (metricFields.filter fun field =>
          (historyPoints points).any fun point => (point.field? field).isSome)
        (listedSensors (historyPoints points)).values sensorTemp
        fun value => roundMetric (value.getD 0)) := by
    unfold metricPointsToColumns
    rw [every]
    exact metricsFromPayload_columns (historyPoints points) _ _ _ sensorTemp
      fun value => roundMetric (value.getD 0)
  rw [decoded, values_listedSensors_history sorted, List.forall₂_map_right_iff,
    List.forall₂_map_left_iff]
  apply List.forall₂_same.mpr
  intro point member
  have ts : (roundPoint point).ts = point.ts := rfl
  apply kept_restored ts
  · intro field number found
    rw [field?_roundPoint, Option.map_eq_some_iff] at found
    obtain ⟨value, own, rfl⟩ := found
    refine ⟨List.mem_filter.mpr ⟨?_, ?_⟩, by rw [own]; rfl⟩
    · obtain ⟨source, rfl⟩ := normalized point member
      exact mem_metricFields (Option.isSome_iff_exists.mpr ⟨value, own⟩)
    · exact List.any_eq_true.mpr ⟨point, member, by simp [own]⟩
  · intro field nowhere used
    obtain ⟨other, inside, some_⟩ := List.any_eq_true.mp (List.mem_filter.mp used).2
    rw [nowhere other inside] at some_
    cases some_
  · intro sensor inside
    obtain ⟨other, listed, own⟩ := List.mem_flatMap.mp inside
    exact normal other listed sensor own
  · intro name _
    unfold sensorTemp roundPoint
    rw [find?_trim_id (normal point member), List.find?_map]
    change _ = ((point.temperatureSensors.find? fun sensor => sensor.id = name.id).map _).map _
    cases found : point.temperatureSensors.find? fun sensor => sensor.id = name.id with
    | none => rfl
    | some sensor =>
        have inside := List.mem_of_find?_eq_some found
        simp only [Option.map_some, boundedMetric, Option.getD_some,
          (normal point member sensor inside).temp]

/-- Both decoders give back what either encoder was given: the buffer's as it is, the history's
normalized and rounded. -/
theorem columns_keep_points (decode : MetricColumns → List MetricPoint)
    (decoder : decode = metricsFromPayload ∨ decode = metricColumnsToPoints)
    (points : List MetricPoint) (positive : ∀ point ∈ points, 0 < point.ts)
    (valid : ∀ point ∈ points, SensorsValid point.temperatureSensors) :
    List.Forall₂ (Kept (byTs points)) (byTs points) (decode (Telemetry.metricPointsToColumns points)) ∧
      List.Forall₂ (Kept (historyPoints points)) ((historyPoints points).map roundPoint)
        (decode (metricPointsToColumns points)) := by
  have same : decode = metricsFromPayload := by
    cases decoder with
    | inl buffer => exact buffer
    | inr history => exact history
  rw [same]
  exact ⟨kept_buffered valid, kept_history positive valid⟩

end Codecs

private def coldPoint : MetricPoint := ⟨600, [("cpu", 25 / 2)], []⟩

private def warmPoint : MetricPoint :=
  ⟨300, [("cpu", 1 / 2), ("gpu_temp", 40)], [⟨"pch:temp1", "PCH", "chipset", 34⟩]⟩

theorem columns_keep_points_twoPoints :
    (metricColumnsToPoints (Telemetry.metricPointsToColumns [coldPoint, warmPoint])).map
        (fun point => (point.ts, point.field? "cpu", point.temperatureSensors)) =
      [(300, some (1 / 2), [⟨"pch:temp1", "PCH", "chipset", 34⟩]), (600, some (25 / 2), [])] := by
  have valid : ∀ point ∈ [coldPoint, warmPoint], SensorsValid point.temperatureSensors := by
    intro point member
    rcases List.mem_cons.mp member with rfl | last
    · exact ⟨by decide +kernel, by decide +kernel, by decide +kernel⟩
    · obtain rfl := List.mem_singleton.mp last
      exact ⟨by decide +kernel, by decide +kernel, by decide +kernel⟩
  have kept := (columns_keep_points metricColumnsToPoints (Or.inr rfl) [coldPoint, warmPoint]
    (by decide) valid).1
  have sorted : byTs [coldPoint, warmPoint] = [warmPoint, coldPoint] := by decide +kernel
  rw [sorted] at kept
  obtain ⟨first, rest, one, others, eq⟩ := List.forall₂_cons_left_iff.mp kept
  obtain ⟨second, none_, two, nothing, rfl⟩ := List.forall₂_cons_left_iff.mp others
  rw [List.forall₂_nil_left_iff] at nothing
  subst nothing
  rw [eq]
  simp only [List.map_cons, List.map_nil, one.ts, two.ts,
    one.present "cpu" (1 / 2) (by decide +kernel), two.present "cpu" (25 / 2) (by decide +kernel),
    one.sensors, two.sensors]
  decide +kernel

/-- The history rounds: a thousandth of a percent is stored as nothing. -/
theorem history_rounds_value :
    (metricColumnsToPoints (metricPointsToColumns [⟨600, [("cpu", 1 / 1000)], []⟩])).map
      (fun point => point.field? "cpu") = [some 0] := by
  decide +kernel

end NieSla.Metrics
