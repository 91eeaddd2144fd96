import NieSla.Lib.OrderedMap
import NieSla.Telemetry.Item
import NieSla.Util.Text

/-! Metric points in columns, as the telemetry buffer stores them. -/
namespace NieSla.Telemetry

/-- `point[name]` -/
def MetricPoint.field? (point : MetricPoint) (name : String) : Option ℚ := point.fields.lookup name

structure SensorName where
  id : String
  label : String
  kind : String
deriving DecidableEq

def TemperatureSensor.name (sensor : TemperatureSensor) : SensorName :=
  ⟨sensor.id, sensor.label, sensor.kind⟩

structure SensorSeries where
  name : SensorName
  tempC : List (Option ℚ)
deriving DecidableEq

structure MetricColumns where
  t0 : Int
  dt : List Int
  fields : List String
  values : List (String × List ℚ)
  temperatureSensors : List SensorSeries
deriving DecidableEq

def sensorKinds : List String := ["cpu", "gpu", "motherboard", "disk", "chipset", "other"]

def normalizeBufferedTemperatureSensor (name : SensorName) (temp : Option ℚ) :
    Option TemperatureSensor :=
  let id := cut 64 (trim name.id)
  let label := cut 128 (trim name.label)
  if id = "" ∨ label = "" then none
  else temp.map fun temp =>
    ⟨id, label, if sensorKinds.contains name.kind then name.kind else "other",
      max (-100) (min 1000 temp)⟩

/-- A sensor that is normal already. -/
def TemperatureSensor.Valid (sensor : TemperatureSensor) : Prop :=
  normalizeBufferedTemperatureSensor sensor.name (some sensor.tempC) = some sensor

instance (sensor : TemperatureSensor) : Decidable sensor.Valid :=
  inferInstanceAs (Decidable (_ = _))

/-! Encoding. -/

def byTs (points : List MetricPoint) : List MetricPoint :=
  points.insertionSort fun first second => first.ts ≤ second.ts

/-- The first sensor of an id gives the series its name. -/
def listSensor (sensors : OrderedMap String SensorName) (sensor : TemperatureSensor) :
    OrderedMap String SensorName :=
  match normalizeBufferedTemperatureSensor sensor.name (some sensor.tempC) with
  | some normalized =>
      if (sensors.get? normalized.id).isSome then sensors
      else sensors.set normalized.id normalized.name
  | none => sensors

def listedSensors (points : List MetricPoint) : OrderedMap String SensorName :=
  (points.flatMap fun point => point.temperatureSensors.take 16).foldl listSensor .empty

def sensorTemp (name : SensorName) (point : MetricPoint) : Option ℚ :=
  (point.temperatureSensors.find? fun sensor => trim sensor.id = name.id).bind fun sensor =>
    (normalizeBufferedTemperatureSensor sensor.name (some sensor.tempC)).map
      TemperatureSensor.tempC

def temperatureSensorSeries (points : List MetricPoint) : List SensorSeries :=
  (listedSensors points).values.map fun name => ⟨name, points.map (sensorTemp name)⟩

def fieldsOf (points : List MetricPoint) : List String :=
  (points.flatMap fun point => point.fields.map Prod.fst).eraseDups

def metricPointsToColumns (points : List MetricPoint) : MetricColumns :=
  let list := byTs points
  let fields := fieldsOf list
  let t0 := (list.head?.map MetricPoint.ts).getD 0
  { t0
    dt := list.map fun point => point.ts - t0
    fields
    values := fields.map fun field => (field, list.map fun point => (point.field? field).getD 0)
    temperatureSensors := temperatureSensorSeries list }

/-! Decoding. -/

def metricsFromPayload (series : MetricColumns) : List MetricPoint :=
  series.dt.mapIdx fun index delta =>
    { ts := series.t0 + delta
      fields := series.fields.map fun field =>
        (field, ((series.values.lookup field).bind fun column => column[index]?).getD 0)
      temperatureSensors := series.temperatureSensors.filterMap fun sensor =>
        normalizeBufferedTemperatureSensor sensor.name sensor.tempC[index]?.join }

/-! What the columns keep of a point. -/

theorem lookup_graph {α : Type} (keys : List String) (value : String → α) (key : String) :
    (keys.map fun key => (key, value key)).lookup key =
      if key ∈ keys then some (value key) else none := by
  induction keys with
  | nil => rfl
  | cons head rest ih =>
      rw [List.map_cons, List.lookup_cons, ih]
      by_cases same : key = head
      · simp [same]
      · simp [same, beq_eq_false_iff_ne.mpr same]

/-- What columns over some fields and sensors keep of a point. -/
def restored (fields : List String) (names : List SensorName) (temp : SensorName → MetricPoint → Option ℚ)
    (value : Option ℚ → ℚ) (point : MetricPoint) : MetricPoint :=
  { ts := point.ts
    fields := fields.map fun field => (field, value (point.field? field))
    temperatureSensors := names.filterMap fun name =>
      normalizeBufferedTemperatureSensor name (temp name point) }

/-- Decoding columns over a list of points. -/
theorem metricsFromPayload_columns (list : List MetricPoint) (t0 : Int) (fields : List String)
    (names : List SensorName) (temp : SensorName → MetricPoint → Option ℚ)
    (value : Option ℚ → ℚ) :
    metricsFromPayload
        { t0
          dt := list.map fun point => point.ts - t0
          fields
          values := fields.map fun field => (field, list.map fun point => value (point.field? field))
          temperatureSensors := names.map fun name => ⟨name, list.map (temp name)⟩ } =
      list.map (restored fields names temp value) := by
  apply List.ext_getElem
  · simp [metricsFromPayload]
  · intro index inside _
    have bound : index < list.length := by simpa [metricsFromPayload] using inside
    simp only [metricsFromPayload, List.getElem_mapIdx, List.getElem_map, restored,
      MetricPoint.mk.injEq]
    refine ⟨by omega, ?_, ?_⟩
    · apply List.map_congr_left
      intro field member
      rw [lookup_graph, if_pos member, Option.bind_some, List.getElem?_map,
        List.getElem?_eq_getElem bound]
      rfl
    · rw [List.filterMap_map]
      apply List.filterMap_congr
      intro name _
      simp [List.getElem?_eq_getElem bound]

/-- What the columns make of the points. -/
theorem metricsFromPayload_metricPointsToColumns (points : List MetricPoint) :
    metricsFromPayload (metricPointsToColumns points) =
      (byTs points).map (restored (fieldsOf (byTs points)) (listedSensors (byTs points)).values
        sensorTemp fun value => value.getD 0) :=
  metricsFromPayload_columns (byTs points) _ (fieldsOf (byTs points))
    (listedSensors (byTs points)).values sensorTemp fun value => value.getD 0

theorem restored_field? (fields : List String) (names : List SensorName)
    (temp : SensorName → MetricPoint → Option ℚ) (value : Option ℚ → ℚ) (point : MetricPoint)
    (field : String) : (restored fields names temp value point).field? field =
      if field ∈ fields then some (value (point.field? field)) else none :=
  lookup_graph _ _ _

theorem field?_isSome {point : MetricPoint} {field : String} :
    (point.field? field).isSome ↔ field ∈ point.fields.map Prod.fst := by
  unfold MetricPoint.field?
  induction point.fields with
  | nil => simp
  | cons entry rest ih =>
      rw [List.lookup_cons]
      by_cases same : field = entry.1
      · simp [same]
      · simp only [beq_eq_false_iff_ne.mpr same, ih, List.map_cons, List.mem_cons, same, false_or]

theorem mem_fieldsOf {points : List MetricPoint} {field : String} :
    field ∈ fieldsOf points ↔ ∃ point ∈ points, (point.field? field).isSome := by
  simp only [fieldsOf, List.mem_eraseDups, List.mem_flatMap, field?_isSome]

theorem mem_byTs {points : List MetricPoint} {point : MetricPoint} :
    point ∈ byTs points ↔ point ∈ points :=
  List.mem_insertionSort _

end NieSla.Telemetry
