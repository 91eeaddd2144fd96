import NieSla.Protobuf.Wire

/-! A report of the Agent and the two forms that it is sent in: the binary message and the JSON
body. -/
namespace NieSla.Protobuf

/-- A counter of the Agent that a double holds exactly. -/
structure Count where
  n : Nat
  safe : n ≤ maxSafeInteger

/-- A time of the Agent's clock, in seconds; a clock that has been set back can be before 1970. -/
structure Stamp where
  sec : Int
  safe : sec.natAbs ≤ maxSafeInteger

section Data

structure SwapInfo where
  totalMb : Count
  usedMb : Count
  percent : F64

structure MemInfo where
  totalMb : Count
  usedMb : Count
  percent : F64
  swap : Option SwapInfo

structure LoadInfo where
  load1 : F64
  load5 : F64
  load15 : F64

structure DiskInfo where
  totalGb : F64
  usedGb : F64
  availGb : F64
  percent : F64

structure NetInfo where
  rxBytesSec : F64
  txBytesSec : F64
  rxBytes : Count
  txBytes : Count
  tcpConns : Count
  udpConns : Count

structure DiskIoInfo where
  readBytesSec : F64
  writeBytesSec : F64

structure Stats where
  avg : F64
  max : F64
  min : F64

structure AggStats where
  cpu : Stats
  mem : Stats
  disk : Stats
  load : Stats
  netRx : Stats
  netTx : Stats
  tcpConns : Stats
  udpConns : Stats
  diskRead : Stats
  diskWrite : Stats

structure TemperatureSensor where
  id : String
  label : String
  kind : String
  tempC : F64

structure DiskEntry where
  device : String
  mount : String
  totalGb : F64
  usedGb : F64

structure VpsInfo where
  cpuModel : String
  cpuCores : Count
  physicalCores : Count
  arch : String
  totalMemMb : Count
  totalSwapMb : Count
  totalDiskGb : F64
  os : String
  kernel : String
  virtualization : String
  gpuName : String
  gpuCount : Count
  gpuAccessible : Bool
  cpuTempC : Option F64
  gpuTempC : Option F64
  gpuUtil : Option F64
  motherboardTempC : Option F64
  diskTempC : Option F64
  chipsetTempC : Option F64
  temperatureSensors : List TemperatureSensor
  diskList : List DiskEntry

structure SamplePoint where
  ts : Stamp
  cpu : F64
  mem : F64
  disk : F64
  load : F64
  load5 : F64
  load15 : F64
  processCount : Count
  netRx : F64
  netTx : F64
  tcpConns : Count
  udpConns : Count
  diskRead : F64
  diskWrite : F64
  cpuTemp : Option F64
  gpuTemp : Option F64
  gpuUtil : Option F64
  motherboardTemp : Option F64
  diskTemp : Option F64
  chipsetTemp : Option F64

structure PingResult where
  targetId : String
  ts : Stamp
  latencyMs : Option Count
  ok : Bool

structure ProxyCheckResult where
  targetId : String
  name : String
  protocol : String
  ts : Stamp
  latencyMs : Option Count
  handshakeMs : Option Count
  firstByteMs : Option Count
  totalMs : Option Count
  ok : Bool
  stage : String
  error : Option String

structure Metrics where
  hostname : String
  processCount : Count
  threadCount : Count
  cpuPercent : F64
  memory : MemInfo
  load : LoadInfo
  disk : DiskInfo
  net : NetInfo
  diskio : DiskIoInfo
  uptimeSec : Count
  stats : Option AggStats
  samples : List SamplePoint
  vpsInfo : Option VpsInfo
  pings : List PingResult
  proxyChecks : List ProxyCheckResult

end Data

/-- The `BTreeMap` of the pings by their target, in the order of its keys, and the pings of each
target in the order of their times. -/
def groupPings (pings : List PingResult) : List (String × List PingResult) :=
  ((pings.map PingResult.targetId).dedup.mergeSort fun first second => first ≤ second).map
    fun targetId => (targetId,
      (pings.filter fun ping => ping.targetId = targetId).mergeSort
        fun first second => first.ts.sec ≤ second.ts.sec)

/-- `points.first().map(|point| point.ts).unwrap_or(0)` -/
def firstTs (points : List PingResult) : Int := (points.head?.map fun point => point.ts.sec).getD 0

section Binary

def encodeSwap (swap : SwapInfo) : Bytes := List.flatten
  [fieldVarint 1 swap.totalMb.n, fieldVarint 2 swap.usedMb.n, fieldF64 3 swap.percent]

def encodeMemory (memory : MemInfo) : Bytes := List.flatten
  [fieldVarint 1 memory.totalMb.n, fieldVarint 2 memory.usedMb.n, fieldF64 3 memory.percent,
    fieldSome memory.swap fun swap => fieldMessage 4 (encodeSwap swap)]

def encodeLoad (load : LoadInfo) : Bytes := List.flatten
  [fieldF64 1 load.load1, fieldF64 2 load.load5, fieldF64 3 load.load15]

def encodeDisk (disk : DiskInfo) : Bytes := List.flatten
  [fieldF64 1 disk.totalGb, fieldF64 2 disk.usedGb, fieldF64 3 disk.availGb,
    fieldF64 4 disk.percent]

def encodeNet (net : NetInfo) : Bytes := List.flatten
  [fieldF64 1 net.rxBytesSec, fieldF64 2 net.txBytesSec, fieldVarint 3 net.rxBytes.n,
    fieldVarint 4 net.txBytes.n, fieldVarint 5 net.tcpConns.n, fieldVarint 6 net.udpConns.n]

def encodeDiskio (diskio : DiskIoInfo) : Bytes := List.flatten
  [fieldF64 1 diskio.readBytesSec, fieldF64 2 diskio.writeBytesSec]

def encodeStat (stat : Stats) : Bytes := List.flatten
  [fieldF64 1 stat.avg, fieldF64 2 stat.max, fieldF64 3 stat.min]

def encodeAggStats (stats : AggStats) : Bytes := List.flatten
  [fieldMessage 1 (encodeStat stats.cpu), fieldMessage 2 (encodeStat stats.mem),
    fieldMessage 3 (encodeStat stats.disk), fieldMessage 4 (encodeStat stats.load),
    fieldMessage 5 (encodeStat stats.netRx), fieldMessage 6 (encodeStat stats.netTx),
    fieldMessage 7 (encodeStat stats.tcpConns), fieldMessage 8 (encodeStat stats.udpConns),
    fieldMessage 9 (encodeStat stats.diskRead), fieldMessage 10 (encodeStat stats.diskWrite)]

def encodeSample (sample : SamplePoint) : Bytes := List.flatten
  [fieldVarint 1 (max sample.ts.sec 0).toNat, fieldF64 2 sample.cpu, fieldF64 3 sample.mem,
    fieldF64 4 sample.disk, fieldF64 5 sample.load, fieldF64 6 sample.netRx,
    fieldF64 7 sample.netTx, fieldVarint 8 sample.tcpConns.n, fieldVarint 18 sample.processCount.n,
    fieldF64 19 sample.load5, fieldF64 20 sample.load15, fieldVarint 9 sample.udpConns.n,
    fieldF64 10 sample.diskRead, fieldF64 11 sample.diskWrite,
    fieldSome sample.cpuTemp (fieldF64 12), fieldSome sample.gpuTemp (fieldF64 13),
    fieldSome sample.gpuUtil (fieldF64 14), fieldSome sample.motherboardTemp (fieldF64 15),
    fieldSome sample.diskTemp (fieldF64 16), fieldSome sample.chipsetTemp (fieldF64 17)]

def encodeSensor (sensor : TemperatureSensor) : Bytes := List.flatten
  [fieldString 1 sensor.id, fieldString 2 sensor.label, fieldString 3 sensor.kind,
    fieldF64 4 sensor.tempC]

def encodeDiskEntry (entry : DiskEntry) : Bytes := List.flatten
  [fieldString 1 entry.device, fieldString 2 entry.mount, fieldF64 3 entry.totalGb,
    fieldF64 4 entry.usedGb]

def encodeVpsInfo (info : VpsInfo) : Bytes := List.flatten
  [fieldString 1 info.cpuModel, fieldVarint 2 info.cpuCores.n, fieldVarint 3 info.physicalCores.n,
    fieldString 4 info.arch, fieldVarint 5 info.totalMemMb.n, fieldVarint 6 info.totalSwapMb.n,
    fieldF64 7 info.totalDiskGb, fieldString 8 info.os, fieldString 9 info.kernel,
    fieldString 10 info.virtualization,
    if info.gpuName ≠ "" then fieldString 11 info.gpuName else [],
    if 0 < info.gpuCount.n then fieldVarint 12 info.gpuCount.n else [],
    if info.gpuAccessible then fieldVarint 13 1 else [],
    fieldSome info.cpuTempC (fieldF64 14), fieldSome info.gpuTempC (fieldF64 15),
    fieldSome info.gpuUtil (fieldF64 16), fieldSome info.motherboardTempC (fieldF64 17),
    fieldSome info.diskTempC (fieldF64 18), fieldSome info.chipsetTempC (fieldF64 19),
    info.temperatureSensors.flatMap fun sensor => fieldMessage 20 (encodeSensor sensor),
    info.diskList.flatMap fun entry => fieldMessage 21 (encodeDiskEntry entry)]

def encodePingPoint (t0 : Int) (point : PingResult) : Bytes := List.flatten
  [fieldVarint 1 (max (point.ts.sec - t0) 0).toNat,
    fieldSome point.latencyMs fun latency => fieldF64 2 (.ofInt latency.n),
    fieldVarint 3 point.ok.toNat]

def encodePings (targetId : String) (points : List PingResult) : Bytes :=
  let t0 := max (firstTs points) 0
  List.flatten
    [fieldString 1 targetId, fieldVarint 2 t0.toNat,
      points.flatMap fun point => fieldMessage 3 (encodePingPoint t0 point)]

def encodePingSeries (pings : List PingResult) : List Bytes :=
  (groupPings pings).map fun group => encodePings group.1 group.2

/-- A duration is a count, below the `u64::MAX` that the Agent bounds it by. -/
def encodeProxyCheck (check : ProxyCheckResult) : Bytes := List.flatten
  [fieldString 1 check.targetId, fieldString 2 check.name, fieldString 3 check.protocol,
    fieldVarint 4 (max check.ts.sec 0).toNat,
    fieldSome check.latencyMs fun latency => fieldF64 5 (.ofInt latency.n),
    fieldVarint 6 check.ok.toNat, fieldString 7 check.stage,
    fieldSome check.error (fieldString 8),
    fieldSome check.handshakeMs fun handshake => fieldVarint 9 handshake.n,
    fieldSome check.firstByteMs fun firstByte => fieldVarint 10 firstByte.n,
    fieldSome check.totalMs fun total => fieldVarint 11 total.n]

def encodeMetrics (metrics : Metrics) : Bytes := List.flatten
  [fieldString 1 metrics.hostname, fieldVarint 2 metrics.processCount.n,
    fieldVarint 3 metrics.threadCount.n, fieldF64 4 metrics.cpuPercent,
    fieldMessage 5 (encodeMemory metrics.memory), fieldMessage 6 (encodeLoad metrics.load),
    fieldMessage 7 (encodeDisk metrics.disk), fieldMessage 8 (encodeNet metrics.net),
    fieldMessage 9 (encodeDiskio metrics.diskio), fieldVarint 10 metrics.uptimeSec.n,
    fieldSome metrics.stats fun stats => fieldMessage 11 (encodeAggStats stats),
    metrics.samples.flatMap fun sample => fieldMessage 12 (encodeSample sample),
    fieldSome metrics.vpsInfo fun info => fieldMessage 13 (encodeVpsInfo info),
    (encodePingSeries metrics.pings).flatMap fun series => fieldMessage 14 series,
    metrics.proxyChecks.flatMap fun check => fieldMessage 15 (encodeProxyCheck check)]

structure Payload where
  agentId : String
  agentLabel : String
  agentVersion : String
  capabilities : Json
  metrics : Metrics

/-- `toVec` is `serde_json::to_vec`. -/
def encodePayload (toVec : Json → Option Bytes) (payload : Payload) : Bytes := List.flatten
  [fieldVarint 1 1, fieldString 2 payload.agentId, fieldString 3 payload.agentLabel,
    fieldString 4 payload.agentVersion, fieldSome (toVec payload.capabilities) (fieldBytes 5),
    fieldMessage 6 (encodeMetrics payload.metrics)]

end Binary

section Text

def swapJson (swap : SwapInfo) : Object := object
  [("total_mb", .int swap.totalMb.n), ("used_mb", .int swap.usedMb.n), ("percent", .num swap.percent)]

def memJson (memory : MemInfo) : Object :=
  (object [("total_mb", .int memory.totalMb.n), ("used_mb", .int memory.usedMb.n),
    ("percent", .num memory.percent)]).setSome "swap" (memory.swap.map fun swap => .obj (swapJson swap))

def loadJson (load : LoadInfo) : Object := object
  [("load1", .num load.load1), ("load5", .num load.load5), ("load15", .num load.load15)]

def diskJson (disk : DiskInfo) : Object := object
  [("total_gb", .num disk.totalGb), ("used_gb", .num disk.usedGb), ("avail_gb", .num disk.availGb),
    ("percent", .num disk.percent)]

def netJson (net : NetInfo) : Object := object
  [("rx_bytes_sec", .num net.rxBytesSec), ("tx_bytes_sec", .num net.txBytesSec),
    ("rx_bytes", .int net.rxBytes.n), ("tx_bytes", .int net.txBytes.n),
    ("tcp_conns", .int net.tcpConns.n), ("udp_conns", .int net.udpConns.n)]

def diskioJson (diskio : DiskIoInfo) : Object := object
  [("read_bytes_sec", .num diskio.readBytesSec), ("write_bytes_sec", .num diskio.writeBytesSec)]

def statJson (stat : Stats) : Object := object
  [("avg", .num stat.avg), ("max", .num stat.max), ("min", .num stat.min)]

def aggStatsJson (stats : AggStats) : Object := object
  [("cpu", .obj (statJson stats.cpu)), ("mem", .obj (statJson stats.mem)),
    ("disk", .obj (statJson stats.disk)), ("load", .obj (statJson stats.load)),
    ("net_rx", .obj (statJson stats.netRx)), ("net_tx", .obj (statJson stats.netTx)),
    ("tcp_conns", .obj (statJson stats.tcpConns)), ("udp_conns", .obj (statJson stats.udpConns)),
    ("disk_read", .obj (statJson stats.diskRead)), ("disk_write", .obj (statJson stats.diskWrite))]

def sampleJson (sample : SamplePoint) : Object :=
  (object [("ts", .int sample.ts.sec), ("cpu", .num sample.cpu), ("mem", .num sample.mem),
    ("disk", .num sample.disk), ("load", .num sample.load), ("load5", .num sample.load5),
    ("load15", .num sample.load15), ("process_count", .int sample.processCount.n),
    ("net_rx", .num sample.netRx), ("net_tx", .num sample.netTx),
    ("tcp_conns", .int sample.tcpConns.n), ("udp_conns", .int sample.udpConns.n),
    ("disk_read", .num sample.diskRead), ("disk_write", .num sample.diskWrite)])
    |>.setSome "cpu_temp" (sample.cpuTemp.map .num)
    |>.setSome "gpu_temp" (sample.gpuTemp.map .num)
    |>.setSome "gpu_util" (sample.gpuUtil.map .num)
    |>.setSome "motherboard_temp" (sample.motherboardTemp.map .num)
    |>.setSome "disk_temp" (sample.diskTemp.map .num)
    |>.setSome "chipset_temp" (sample.chipsetTemp.map .num)

def sensorJson (sensor : TemperatureSensor) : Object := object
  [("id", .str sensor.id), ("label", .str sensor.label), ("kind", .str sensor.kind),
    ("temp_c", .num sensor.tempC)]

def diskEntryJson (entry : DiskEntry) : Object := object
  [("device", .str entry.device), ("mount", .str entry.mount), ("total_gb", .num entry.totalGb),
    ("used_gb", .num entry.usedGb)]

/-- The array of a list that is written when it is not empty. -/
def listJson {α : Type} (item : α → Json) (items : List α) : Option Json :=
  if items.isEmpty then none else some (.arr (items.map item))

def vpsInfoJson (info : VpsInfo) : Object :=
  (object [("cpu_model", .str info.cpuModel), ("cpu_cores", .int info.cpuCores.n),
    ("physical_cores", .int info.physicalCores.n), ("arch", .str info.arch),
    ("total_mem_mb", .int info.totalMemMb.n), ("total_swap_mb", .int info.totalSwapMb.n),
    ("total_disk_gb", .num info.totalDiskGb), ("os", .str info.os), ("kernel", .str info.kernel),
    ("virtualization", .str info.virtualization)])
    |>.setSome "gpu_name" (if info.gpuName ≠ "" then some (.str info.gpuName) else none)
    |>.setSome "gpu_count" (if 0 < info.gpuCount.n then some (.int info.gpuCount.n) else none)
    |>.setSome "gpu_accessible" (if info.gpuAccessible then some (.bool true) else none)
    |>.setSome "disk_list" (listJson (fun entry => .obj (diskEntryJson entry)) info.diskList)
    |>.setSome "cpu_temp_c" (info.cpuTempC.map .num)
    |>.setSome "gpu_temp_c" (info.gpuTempC.map .num)
    |>.setSome "gpu_util" (info.gpuUtil.map .num)
    |>.setSome "motherboard_temp_c" (info.motherboardTempC.map .num)
    |>.setSome "disk_temp_c" (info.diskTempC.map .num)
    |>.setSome "chipset_temp_c" (info.chipsetTempC.map .num)
    |>.setSome "temperature_sensors"
      (listJson (fun sensor => .obj (sensorJson sensor)) info.temperatureSensors)

def pingsJson (targetId : String) (points : List PingResult) : Object :=
  let t0 := firstTs points
  object
    [("target_id", .str targetId), ("t0", .int t0),
      ("dt", .arr (points.map fun point => .int (point.ts.sec - t0))),
      ("latency_ms", .arr (points.map fun point =>
        (point.latencyMs.map fun latency => .int latency.n).getD .null)),
      ("ok", .arr (points.map fun point => .int point.ok.toNat))]

def pingSeriesJson (pings : List PingResult) : Json :=
  .arr ((groupPings pings).map fun group => .obj (pingsJson group.1 group.2))

def proxyCheckJson (check : ProxyCheckResult) : Object :=
  (object [("target_id", .str check.targetId), ("name", .str check.name),
    ("protocol", .str check.protocol), ("ts", .int check.ts.sec), ("ok", .bool check.ok),
    ("stage", .str check.stage)])
    |>.setSome "latency_ms" (check.latencyMs.map fun latency => .int latency.n)
    |>.setSome "handshake_ms" (check.handshakeMs.map fun handshake => .int handshake.n)
    |>.setSome "first_byte_ms" (check.firstByteMs.map fun firstByte => .int firstByte.n)
    |>.setSome "total_ms" (check.totalMs.map fun total => .int total.n)
    |>.setSome "error" (check.error.map .str)

def metricsJson (metrics : Metrics) : Object :=
  (object [("hostname", .str metrics.hostname), ("process_count", .int metrics.processCount.n),
    ("thread_count", .int metrics.threadCount.n), ("cpu_percent", .num metrics.cpuPercent),
    ("memory", .obj (memJson metrics.memory)), ("load", .obj (loadJson metrics.load)),
    ("disk", .obj (diskJson metrics.disk)), ("net", .obj (netJson metrics.net)),
    ("diskio", .obj (diskioJson metrics.diskio)), ("uptime_sec", .int metrics.uptimeSec.n)])
    |>.setSome "stats" (metrics.stats.map fun stats => .obj (aggStatsJson stats))
    |>.setSome "samples" (listJson (fun sample => .obj (sampleJson sample)) metrics.samples)
    |>.setSome "vps_info" (metrics.vpsInfo.map fun info => .obj (vpsInfoJson info))
    |>.setSome "ping_series"
      (if metrics.pings.isEmpty then none else some (pingSeriesJson metrics.pings))
    |>.setSome "proxy_checks" (listJson (fun check => .obj (proxyCheckJson check)) metrics.proxyChecks)

/-- The fields of the JSON body that the binary message has too. -/
def bodyJson (payload : Payload) : Object := object
  [("agent_id", .str payload.agentId), ("agent_label", .str payload.agentLabel),
    ("agent_version", .str payload.agentVersion), ("capabilities", payload.capabilities),
    ("metrics", .obj (metricsJson payload.metrics))]

end Text

end NieSla.Protobuf
