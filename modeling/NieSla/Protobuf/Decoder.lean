import NieSla.Protobuf.Wire

/-! The decoders of the Worker. Each has the object it starts from and what it does with each
field; an optional key that no field sets stays absent. -/
namespace NieSla.Protobuf

section Actions

variable (value : Object) (key : String)

/-- `value[key] = reader.varint()` -/
def setVarint : Action Object := .varint fun number => value.set key (.int number)

/-- `value[key] = reader.fixed64()` -/
def setFixed64 : Action Object := .fixed64 fun number => value.set key (.num number)

/-- `value[key] = reader.varint() === 1 ? 1 : 0` -/
def setFlag : Action Object := .varint fun number => value.set key (.int (if number = 1 then 1 else 0))

/-- `value[key] = reader.string()` -/
def setString : Action Object := .bytes fun content => do
  return value.set key (.str (← textDecode content))

/-- `value[key] = decode(reader.message())` -/
def setMessage (decode : Bytes → Except String Object) : Action Object := .bytes fun content => do
  return value.set key (.obj (← decode content))

/-- `(value[key] ||= []).push(decode(reader.message()))` -/
def pushMessage (decode : Bytes → Except String Object) : Action Object := .bytes fun content => do
  return value.push key (.obj (← decode content))

end Actions

def zero : Json := .int 0

def swapDefault : Object := object [("total_mb", zero), ("used_mb", zero), ("percent", zero)]

def swapField (value : Object) : Nat → Action Object
  | 1 => setVarint value "total_mb"
  | 2 => setVarint value "used_mb"
  | 3 => setFixed64 value "percent"
  | _ => .skip

def decodeSwap (bytes : Bytes) : Except String Object := readFields swapField swapDefault bytes

def memoryField (value : Object) : Nat → Action Object
  | 1 => setVarint value "total_mb"
  | 2 => setVarint value "used_mb"
  | 3 => setFixed64 value "percent"
  | 4 => setMessage value "swap" decodeSwap
  | _ => .skip

def decodeMemory (bytes : Bytes) : Except String Object := readFields memoryField swapDefault bytes

def loadDefault : Object := object [("load1", zero), ("load5", zero), ("load15", zero)]

def loadField (value : Object) : Nat → Action Object
  | 1 => setFixed64 value "load1"
  | 2 => setFixed64 value "load5"
  | 3 => setFixed64 value "load15"
  | _ => .skip

def decodeLoad (bytes : Bytes) : Except String Object := readFields loadField loadDefault bytes

def diskDefault : Object := object
  [("total_gb", zero), ("used_gb", zero), ("avail_gb", zero), ("percent", zero)]

def diskField (value : Object) : Nat → Action Object
  | 1 => setFixed64 value "total_gb"
  | 2 => setFixed64 value "used_gb"
  | 3 => setFixed64 value "avail_gb"
  | 4 => setFixed64 value "percent"
  | _ => .skip

def decodeDisk (bytes : Bytes) : Except String Object := readFields diskField diskDefault bytes

def netDefault : Object := object
  [("rx_bytes_sec", zero), ("tx_bytes_sec", zero), ("rx_bytes", zero), ("tx_bytes", zero),
    ("tcp_conns", zero), ("udp_conns", zero)]

def netField (value : Object) : Nat → Action Object
  | 1 => setFixed64 value "rx_bytes_sec"
  | 2 => setFixed64 value "tx_bytes_sec"
  | 3 => setVarint value "rx_bytes"
  | 4 => setVarint value "tx_bytes"
  | 5 => setVarint value "tcp_conns"
  | 6 => setVarint value "udp_conns"
  | _ => .skip

def decodeNet (bytes : Bytes) : Except String Object := readFields netField netDefault bytes

def diskioDefault : Object := object [("read_bytes_sec", zero), ("write_bytes_sec", zero)]

def diskioField (value : Object) : Nat → Action Object
  | 1 => setFixed64 value "read_bytes_sec"
  | 2 => setFixed64 value "write_bytes_sec"
  | _ => .skip

def decodeDiskio (bytes : Bytes) : Except String Object := readFields diskioField diskioDefault bytes

def statDefault : Object := object [("avg", zero), ("max", zero), ("min", zero)]

def statField (value : Object) : Nat → Action Object
  | 1 => setFixed64 value "avg"
  | 2 => setFixed64 value "max"
  | 3 => setFixed64 value "min"
  | _ => .skip

def decodeStat (bytes : Bytes) : Except String Object := readFields statField statDefault bytes

/-- `keys[field - 1]` of `decodeAggStats`. -/
def statKeys : List String :=
  ["cpu", "mem", "disk", "load", "net_rx", "net_tx", "tcp_conns", "udp_conns", "disk_read",
    "disk_write"]

def aggStatsField (value : Object) (field : Nat) : Action Object :=
  if 1 ≤ field ∧ field ≤ statKeys.length then
    setMessage value (statKeys.getD (field - 1) "") decodeStat
  else .skip

def decodeAggStats (bytes : Bytes) : Except String Object := readFields aggStatsField (object []) bytes

def sampleDefault : Object := object
  [("ts", zero), ("cpu", zero), ("mem", zero), ("disk", zero), ("load", zero), ("net_rx", zero),
    ("net_tx", zero), ("tcp_conns", zero), ("udp_conns", zero), ("disk_read", zero),
    ("disk_write", zero)]

def sampleField (value : Object) : Nat → Action Object
  | 1 => setVarint value "ts"
  | 2 => setFixed64 value "cpu"
  | 3 => setFixed64 value "mem"
  | 4 => setFixed64 value "disk"
  | 5 => setFixed64 value "load"
  | 6 => setFixed64 value "net_rx"
  | 7 => setFixed64 value "net_tx"
  | 8 => setVarint value "tcp_conns"
  | 9 => setVarint value "udp_conns"
  | 10 => setFixed64 value "disk_read"
  | 11 => setFixed64 value "disk_write"
  | 12 => setFixed64 value "cpu_temp"
  | 13 => setFixed64 value "gpu_temp"
  | 14 => setFixed64 value "gpu_util"
  | 15 => setFixed64 value "motherboard_temp"
  | 16 => setFixed64 value "disk_temp"
  | 17 => setFixed64 value "chipset_temp"
  | 18 => setVarint value "process_count"
  | 19 => setFixed64 value "load5"
  | 20 => setFixed64 value "load15"
  | _ => .skip

def decodeSample (bytes : Bytes) : Except String Object := readFields sampleField sampleDefault bytes

def sensorDefault : Object := object
  [("id", .str ""), ("label", .str ""), ("kind", .str ""), ("temp_c", zero)]

def sensorField (value : Object) : Nat → Action Object
  | 1 => setString value "id"
  | 2 => setString value "label"
  | 3 => setString value "kind"
  | 4 => setFixed64 value "temp_c"
  | _ => .skip

def decodeSensor (bytes : Bytes) : Except String Object := readFields sensorField sensorDefault bytes

def diskEntryDefault : Object := object
  [("device", .str ""), ("mount", .str ""), ("total_gb", zero), ("used_gb", zero)]

def diskEntryField (value : Object) : Nat → Action Object
  | 1 => setString value "device"
  | 2 => setString value "mount"
  | 3 => setFixed64 value "total_gb"
  | 4 => setFixed64 value "used_gb"
  | _ => .skip

def decodeDiskEntry (bytes : Bytes) : Except String Object :=
  readFields diskEntryField diskEntryDefault bytes

def vpsInfoDefault : Object := object
  [("cpu_model", .str ""), ("cpu_cores", zero), ("physical_cores", zero), ("arch", .str ""),
    ("total_mem_mb", zero), ("total_swap_mb", zero), ("total_disk_gb", zero), ("os", .str ""),
    ("kernel", .str ""), ("virtualization", .str "")]

def vpsInfoField (value : Object) : Nat → Action Object
  | 1 => setString value "cpu_model"
  | 2 => setVarint value "cpu_cores"
  | 3 => setVarint value "physical_cores"
  | 4 => setString value "arch"
  | 5 => setVarint value "total_mem_mb"
  | 6 => setVarint value "total_swap_mb"
  | 7 => setFixed64 value "total_disk_gb"
  | 8 => setString value "os"
  | 9 => setString value "kernel"
  | 10 => setString value "virtualization"
  | 11 => setString value "gpu_name"
  | 12 => setVarint value "gpu_count"
  | 13 => .varint fun number => value.set "gpu_accessible" (.bool (number = 1))
  | 14 => setFixed64 value "cpu_temp_c"
  | 15 => setFixed64 value "gpu_temp_c"
  | 16 => setFixed64 value "gpu_util"
  | 17 => setFixed64 value "motherboard_temp_c"
  | 18 => setFixed64 value "disk_temp_c"
  | 19 => setFixed64 value "chipset_temp_c"
  | 20 => pushMessage value "temperature_sensors" decodeSensor
  | 21 => pushMessage value "disk_list" decodeDiskEntry
  | _ => .skip

def decodeVpsInfo (bytes : Bytes) : Except String Object := readFields vpsInfoField vpsInfoDefault bytes

def pingPointDefault : Object := object [("dt", zero), ("latency_ms", .null), ("ok", zero)]

def pingPointField (value : Object) : Nat → Action Object
  | 1 => setVarint value "dt"
  | 2 => setFixed64 value "latency_ms"
  | 3 => setFlag value "ok"
  | _ => .skip

def decodePingPoint (bytes : Bytes) : Except String Object :=
  readFields pingPointField pingPointDefault bytes

def pingSeriesDefault : Object := object
  [("target_id", .str ""), ("t0", zero), ("dt", .arr []), ("latency_ms", .arr []), ("ok", .arr [])]

def pushPoint (value point : Object) : Object :=
  value.push "dt" (point "dt") |>.push "latency_ms" (point "latency_ms") |>.push "ok" (point "ok")

def pingSeriesField (value : Object) : Nat → Action Object
  | 1 => setString value "target_id"
  | 2 => setVarint value "t0"
  | 3 => .bytes fun content => do return pushPoint value (← decodePingPoint content)
  | _ => .skip

def decodePingSeries (bytes : Bytes) : Except String Object :=
  readFields pingSeriesField pingSeriesDefault bytes

def proxyCheckDefault : Object := object
  [("target_id", .str ""), ("name", .str ""), ("protocol", .str ""), ("ts", zero),
    ("latency_ms", .null), ("handshake_ms", .null), ("first_byte_ms", .null), ("total_ms", .null),
    ("ok", zero), ("stage", .str ""), ("error", .null)]

def proxyCheckField (value : Object) : Nat → Action Object
  | 1 => setString value "target_id"
  | 2 => setString value "name"
  | 3 => setString value "protocol"
  | 4 => setVarint value "ts"
  | 5 => setFixed64 value "latency_ms"
  | 6 => setFlag value "ok"
  | 7 => setString value "stage"
  | 8 => setString value "error"
  | 9 => setVarint value "handshake_ms"
  | 10 => setVarint value "first_byte_ms"
  | 11 => setVarint value "total_ms"
  | _ => .skip

def decodeProxyCheck (bytes : Bytes) : Except String Object :=
  readFields proxyCheckField proxyCheckDefault bytes

/-- The object of a report and the three lists that are set when it is read. -/
structure MetricsState where
  value : Object
  samples : List Json := []
  pingSeries : List Json := []
  proxyChecks : List Json := []

def metricsDefault : Object := object
  [("hostname", .str ""), ("process_count", zero), ("thread_count", zero), ("cpu_percent", zero),
    ("memory", .obj swapDefault), ("load", .obj loadDefault), ("disk", .obj diskDefault),
    ("net", .obj netDefault), ("diskio", .obj diskioDefault), ("uptime_sec", zero)]

/-- A field of the object itself. -/
def metricsValueField (value : Object) : Nat → Action Object
  | 1 => setString value "hostname"
  | 2 => setVarint value "process_count"
  | 3 => setVarint value "thread_count"
  | 4 => setFixed64 value "cpu_percent"
  | 5 => setMessage value "memory" decodeMemory
  | 6 => setMessage value "load" decodeLoad
  | 7 => setMessage value "disk" decodeDisk
  | 8 => setMessage value "net" decodeNet
  | 9 => setMessage value "diskio" decodeDiskio
  | 10 => setVarint value "uptime_sec"
  | 11 => setMessage value "stats" decodeAggStats
  | 13 => setMessage value "vps_info" decodeVpsInfo
  | _ => .skip

def Action.map {σ τ : Type} (wrap : σ → τ) : Action σ → Action τ
  | .varint next => .varint fun number => wrap (next number)
  | .fixed64 next => .fixed64 fun number => wrap (next number)
  | .bytes next => .bytes fun content => do return wrap (← next content)
  | .skip => .skip

def metricsField (state : MetricsState) : Nat → Action MetricsState
  | 12 => .bytes fun content => do
      return { state with samples := state.samples ++ [.obj (← decodeSample content)] }
  | 14 => .bytes fun content => do
      return { state with pingSeries := state.pingSeries ++ [.obj (← decodePingSeries content)] }
  | 15 => .bytes fun content => do
      return { state with proxyChecks := state.proxyChecks ++ [.obj (← decodeProxyCheck content)] }
  | field => (metricsValueField state.value field).map fun value => { state with value }

/-- `if (items.length) value[key] = items` -/
def Object.setList (value : Object) (key : String) (items : List Json) : Object :=
  value.setSome key (if items.isEmpty then none else some (.arr items))

def MetricsState.finish (state : MetricsState) : Object :=
  state.value.setList "samples" state.samples |>.setList "ping_series" state.pingSeries
    |>.setList "proxy_checks" state.proxyChecks

def decodeMetrics (bytes : Bytes) : Except String Object := do
  let state ← readFields metricsField { value := metricsDefault } bytes
  return state.finish

/-- `parseJson`; what JSON has no object in is `null`. -/
def parseJson (parse : Bytes → Option Json) (bytes : Bytes) : Except String Json :=
  match parse bytes with
  | none => .error "Agent Protobuf capabilities 无效"
  | some (.obj fields) => .ok (.obj fields)
  | some (.arr items) => .ok (.arr items)
  | some _ => .ok .null

structure BodyState where
  body : Object
  version : Nat := 0

def bodyDefault : Object := object
  [("agent_id", .str ""), ("agent_label", .str ""), ("agent_version", .str ""),
    ("capabilities", .null), ("metrics", .null)]

def bodyField (parse : Bytes → Option Json) (state : BodyState) : Nat → Action BodyState
  | 1 => .varint fun version => { state with version }
  | 2 => (setString state.body "agent_id").map fun body => { state with body }
  | 3 => (setString state.body "agent_label").map fun body => { state with body }
  | 4 => (setString state.body "agent_version").map fun body => { state with body }
  | 5 => .bytes fun content => do
      return { state with body := state.body.set "capabilities" (← parseJson parse content) }
  | 6 => (setMessage state.body "metrics" decodeMetrics).map fun body => { state with body }
  | _ => .skip

def maxAgentPayloadBytes : Nat := 1000000

/-- `parse` is `JSON.parse` of the text of the bytes. -/
def decodeAgentMetricsProtobuf (parse : Bytes → Option Json) (bytes : Bytes) :
    Except String Object := do
  if maxAgentPayloadBytes < bytes.length then .error "metrics 数据过大"
  else
    let state ← readFields (bodyField parse) { body := bodyDefault } bytes
    if state.version ≠ 1 then .error "不支持的 Agent Protobuf 协议版本"
    else match state.body "metrics" with
      | .obj _ => .ok state.body
      | _ => .error "缺少 metrics 对象"

end NieSla.Protobuf
