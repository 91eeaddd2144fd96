import NieSla.Telemetry.Columns
import NieSla.Util.Number

/-! Metric points in columns, as the history of an agent stores them: points are normalized and
their values rounded to hundredths. -/
namespace NieSla.Metrics

open Telemetry

def maxMetricRate : ℚ := 1024 ^ 5

def maxMetricCount : ℚ := 1000000000

/-- What is no number is 0. -/
def boundedMetric (value : Option ℚ) (low high : ℚ) : ℚ :=
  (value.map fun number => max low (min high number)).getD 0

def roundMetric (value : ℚ) : ℚ := toDouble (mathRound (toDouble (value * 100)) / 100)

def metricFields : List String :=
  ["cpu", "mem", "disk", "load1", "load5", "load15", "process_count", "net_rx", "net_tx",
    "tcp_conns", "udp_conns", "disk_read", "disk_write", "cpu_temp", "gpu_temp", "gpu_util",
    "motherboard_temp", "disk_temp", "chipset_temp"]

def optionalFields : List String :=
  ["cpu_temp", "gpu_temp", "gpu_util", "motherboard_temp", "disk_temp", "chipset_temp"]

/-- The sensors of the first sixteen that are normal and not of an id seen before. -/
def freshSensors (seen : List String) : List TemperatureSensor → List TemperatureSensor
  | [] => []
  | sensor :: rest =>
      match normalizeBufferedTemperatureSensor sensor.name (some sensor.tempC) with
      | some normalized =>
          if normalized.id ∈ seen then freshSensors seen rest
          else normalized :: freshSensors (normalized.id :: seen) rest
      | none => freshSensors seen rest

def normalizeTemperatureSensors (sensors : List TemperatureSensor) : List TemperatureSensor :=
  freshSensors [] (sensors.take 16)

def normalizeMetricPoint (point : MetricPoint) : MetricPoint :=
  { ts := point.ts
    fields :=
      [("cpu", boundedMetric (point.field? "cpu") 0 100),
        ("mem", boundedMetric (point.field? "mem") 0 100),
        ("disk", boundedMetric (point.field? "disk") 0 100),
        ("load1", boundedMetric ((point.field? "load1").or (point.field? "load")) 0 1000000),
        ("load5", boundedMetric (point.field? "load5") 0 1000000),
        ("load15", boundedMetric (point.field? "load15") 0 1000000),
        ("process_count", ⌊boundedMetric (point.field? "process_count") 0 maxMetricCount⌋),
        ("net_rx", boundedMetric (point.field? "net_rx") 0 maxMetricRate),
        ("net_tx", boundedMetric (point.field? "net_tx") 0 maxMetricRate),
        ("tcp_conns", ⌊boundedMetric (point.field? "tcp_conns") 0 maxMetricCount⌋),
        ("udp_conns", ⌊boundedMetric (point.field? "udp_conns") 0 maxMetricCount⌋),
        ("disk_read", boundedMetric (point.field? "disk_read") 0 maxMetricRate),
        ("disk_write", boundedMetric (point.field? "disk_write") 0 maxMetricRate)] ++
      optionalFields.filterMap fun key => (point.field? key).map fun number =>
        (key, if key = "gpu_util" then boundedMetric (some number) 0 100
          else boundedMetric (some number) (-100) 1000)
    temperatureSensors := normalizeTemperatureSensors point.temperatureSensors }

/-- The first sensor of an id gives the series its name. -/
def listSensor (sensors : OrderedMap String SensorName) (sensor : TemperatureSensor) :
    OrderedMap String SensorName :=
  let id := cut 64 (trim sensor.id)
  let label := cut 128 (trim sensor.label)
  if id = "" ∨ label = "" ∨ (sensors.get? id).isSome then sensors
  else sensors.set id ⟨id, label, if sensorKinds.contains sensor.kind then sensor.kind else "other"⟩

def listedSensors (points : List MetricPoint) : OrderedMap String SensorName :=
  (points.flatMap MetricPoint.temperatureSensors).foldl listSensor .empty

def sensorTemp (name : SensorName) (point : MetricPoint) : Option ℚ :=
  (point.temperatureSensors.find? fun sensor => trim sensor.id = name.id).map fun sensor =>
    roundMetric (boundedMetric (some sensor.tempC) (-100) 1000)

def temperatureSensorSeries (points : List MetricPoint) : List SensorSeries :=
  (listedSensors points).values.map fun name => ⟨name, points.map (sensorTemp name)⟩

/-- `metricPointsToColumns` for all fields -/
def metricPointsToColumns (points : List MetricPoint) : MetricColumns :=
  let list := byTs ((points.map normalizeMetricPoint).filter fun point => 0 < point.ts)
  let fields := metricFields.filter fun field => list.any fun point => (point.field? field).isSome
  let t0 := (list.head?.map MetricPoint.ts).getD 0
  { t0
    dt := list.map fun point => point.ts - t0
    fields
    values := fields.map fun field =>
      (field, list.map fun point => roundMetric ((point.field? field).getD 0))
    temperatureSensors := temperatureSensorSeries list }

/-- `metricColumnsToPoints` for all fields: line by line what `metricsFromPayload` does. -/
def metricColumnsToPoints (series : MetricColumns) : List MetricPoint := metricsFromPayload series

end NieSla.Metrics
