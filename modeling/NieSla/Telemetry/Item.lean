import NieSla.Util.Number

/-! What an agent reports: metric points, pings and proxy checks. -/
namespace NieSla.Telemetry

structure TemperatureSensor where
  id : String
  label : String
  kind : String
  tempC : ℚ
deriving DecidableEq

/-- A sample; `fields` are its properties other than `ts` and `temperature_sensors`. -/
structure MetricPoint where
  ts : Int
  fields : List (String × ℚ)
  temperatureSensors : List TemperatureSensor
deriving DecidableEq

structure Ping where
  targetId : String
  ts : Int
  latencyMs : Option ℚ
  ok : Int
deriving DecidableEq

structure ProxyCheck where
  targetId : String
  name : String
  protocol : String
  ts : Int
  latencyMs : Option ℚ
  handshakeMs : Option ℚ
  firstByteMs : Option ℚ
  totalMs : Option ℚ
  ok : Int
  stage : String
  error : Option String
deriving DecidableEq

end NieSla.Telemetry
