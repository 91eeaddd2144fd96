import NieSla.Protobuf.Agreement

/-! What the Worker reads of the binary message of a report, beside the JSON body of it. -/
namespace NieSla.Protobuf

/-- A clock before 1970 is 1970 to the binary message. -/
def Stamp.floor (stamp : Stamp) : Stamp where
  sec := max stamp.sec 0
  safe := by
    have safe := stamp.safe
    omega

/-- Pings whose times are those that the binary message has. -/
def floorPings (points : List PingResult) : List PingResult :=
  points.map fun point => { point with ts := point.ts.floor }

/-- The JSON of a check, with the flag as the number that the binary message has. -/
def receivedProxyCheck (check : ProxyCheckResult) : Object :=
  (proxyCheckJson check).set "ts" (.int (max check.ts.sec 0)) |>.set "ok" (.int check.ok.toNat)

def receivedPings (group : String × List PingResult) : Object :=
  pingsJson group.1 (floorPings group.2)

/-- The JSON of a report, but for the times before 1970 and the flags of the checks. -/
def receivedMetrics (metrics : Metrics) : Object :=
  (metricsJson metrics)
    |>.setSome "samples" (listJson (fun sample => .obj (receivedSample sample)) metrics.samples)
    |>.setSome "ping_series"
      (listJson (fun group => .obj (receivedPings group)) (groupPings metrics.pings))
    |>.setSome "proxy_checks"
      (listJson (fun check => .obj (receivedProxyCheck check)) metrics.proxyChecks)

def receivedBody (payload : Payload) : Object :=
  (bodyJson payload).set "metrics" (.obj (receivedMetrics payload.metrics))

section Pings

/-- The flag of the Worker, read from the flag of the Agent. -/
theorem flag_toNat (ok : Bool) : (if ok.toNat = 1 then 1 else 0 : Int) = (ok.toNat : Int) := by
  cases ok <;> rfl

def pingPointJson (t0 : Int) (point : PingResult) : Object := object
  [("dt", .int (max (point.ts.sec - t0) 0)),
    ("latency_ms", (point.latencyMs.map fun latency => Json.int latency.n).getD .null),
    ("ok", .int point.ok.toNat)]

theorem decodes_pingPoint {t0 : Int} (point : PingResult) (after : 0 ≤ t0) :
    Decodes pingPointField pingPointDefault (encodePingPoint t0 point) (pingPointJson t0 point) := by
  have safe := point.ts.safe
  have since : (((max (point.ts.sec - t0) 0).toNat : Nat) : Int) = max (point.ts.sec - t0) 0 :=
    Int.toNat_of_nonneg (le_max_right ..)
  apply Decodes.varint rfl (by decide) (by omega)
  apply Decodes.someLatency rfl (by decide)
  apply Decodes.varint rfl (by decide) (by cases point.ok <;> decide)
  apply Decodes.done
  rw [flag_toNat, since]
  funext name
  simp only [pingPointDefault, pingPointJson, object, Object.set_apply, Object.setSome_apply,
    List.foldl]
  grind

/-- The points of a series in three columns. -/
theorem foldl_pushPoint {fields : Object} {dt latency ok : List Json} (points : List Object)
    (dts : fields "dt" = .arr dt) (latencies : fields "latency_ms" = .arr latency)
    (oks : fields "ok" = .arr ok) :
    points.foldl pushPoint fields = (fields.set "dt" (.arr (dt ++ points.map fun point => point "dt"))
      |>.set "latency_ms" (.arr (latency ++ points.map fun point => point "latency_ms"))
      |>.set "ok" (.arr (ok ++ points.map fun point => point "ok"))) := by
  induction points generalizing fields dt latency ok with
  | nil =>
      funext name
      simp only [List.foldl_nil, List.map_nil, List.append_nil, Object.set_apply]
      grind
  | cons point points ih =>
      have pushed : pushPoint fields point = (fields.set "dt" (.arr (dt ++ [point "dt"]))
          |>.set "latency_ms" (.arr (latency ++ [point "latency_ms"]))
          |>.set "ok" (.arr (ok ++ [point "ok"]))) := by
        unfold pushPoint
        rw [push_arr dts, push_arr ((Object.set_other (by decide) _).trans latencies), push_arr]
        rw [Object.set_other (by decide), Object.set_other (by decide)]
        exact oks
      have dts : pushPoint fields point "dt" = .arr (dt ++ [point "dt"]) := by
        rw [pushed, Object.set_other (by decide), Object.set_other (by decide), Object.set_self]
      have latencies : pushPoint fields point "latency_ms" =
          .arr (latency ++ [point "latency_ms"]) := by
        rw [pushed, Object.set_other (by decide), Object.set_self]
      have oks : pushPoint fields point "ok" = .arr (ok ++ [point "ok"]) := by
        rw [pushed, Object.set_self]
      rw [List.foldl_cons, ih dts latencies oks, pushed]
      funext name
      simp only [Object.set_apply, List.map_cons, List.append_assoc, List.singleton_append]
      grind

theorem firstTs_le (points : List PingResult) : (max (firstTs points) 0).toNat ≤ maxSafeInteger := by
  cases points with
  | nil => decide
  | cons point points => exact point.ts.toNat_le

theorem firstTs_floorPings (points : List PingResult) :
    firstTs (floorPings points) = max (firstTs points) 0 := by
  cases points <;> rfl

/-- The times of the pings of a target, in their order. -/
def InOrder (points : List PingResult) : Prop :=
  points.Pairwise fun first second => first.ts.sec ≤ second.ts.sec

theorem InOrder.firstTs_le {points : List PingResult} (sorted : InOrder points) :
    ∀ point ∈ points, firstTs points ≤ point.ts.sec := by
  cases sorted with
  | nil => nofun
  | cons earlier _ =>
      rintro point (_ | ⟨_, member⟩)
      · exact le_rfl
      · exact earlier point member

theorem inOrder_groupPings {pings : List PingResult} {group : String × List PingResult}
    (member : group ∈ groupPings pings) : InOrder group.2 := by
  obtain ⟨targetId, _, rfl⟩ := List.mem_map.mp member
  have sorted := @List.pairwise_mergeSort PingResult
    (fun first second => decide (first.ts.sec ≤ second.ts.sec))
    (fun first second third => by simpa using le_trans)
    (fun first second => by simpa using le_total first.ts.sec second.ts.sec)
    (pings.filter fun ping => ping.targetId = targetId)
  exact sorted.imp of_decide_eq_true

/-- The points since the first of them, as the columns of the JSON. -/
theorem received_columns {points : List PingResult} (sorted : InOrder points) (targetId : String) :
    receivedPings (targetId, points) =
      let columns := points.map (pingPointJson (max (firstTs points) 0))
      object [("target_id", .str targetId), ("t0", .int (max (firstTs points) 0)),
        ("dt", .arr (columns.map fun point => point "dt")),
        ("latency_ms", .arr (columns.map fun point => point "latency_ms")),
        ("ok", .arr (columns.map fun point => point "ok"))] := by
  have since : ∀ point ∈ points, max point.ts.sec 0 - max (firstTs points) 0 =
      max (point.ts.sec - max (firstTs points) 0) 0 := by
    intro point member
    have earlier := sorted.firstTs_le point member
    omega
  have dts : (points.map fun point =>
      Json.int (max point.ts.sec 0 - max (firstTs points) 0)) =
      points.map fun point => Json.int (max (point.ts.sec - max (firstTs points) 0) 0) :=
    List.map_congr_left fun point member => congrArg Json.int (since point member)
  simp only [receivedPings, pingsJson, firstTs_floorPings]
  simp only [floorPings, List.map_map, Function.comp_def, Stamp.floor]
  rw [dts]
  rfl

theorem decodes_pings {targetId : String} {points : List PingResult} (plain : Plain targetId)
    (sorted : InOrder points) :
    Decodes pingSeriesField pingSeriesDefault (encodePings targetId points)
      (receivedPings (targetId, points)) := by
  have after : 0 ≤ max (firstTs points) 0 := le_max_right ..
  have t0 : (((max (firstTs points) 0).toNat : Nat) : Int) = max (firstTs points) 0 :=
    Int.toNat_of_nonneg after
  apply Decodes.text rfl (by decide) plain
  apply Decodes.varint rfl (by decide) (firstTs_le points)
  apply Decodes.repeated
    fun value point => pushPoint value (pingPointJson (max (firstTs points) 0) point)
  · intro state point _ rest
    exact Decodes.content rfl (by decide) (decodes_pingPoint point after)
  apply Decodes.done
  rw [received_columns sorted, t0, ← List.foldl_map, foldl_pushPoint _ rfl rfl rfl]
  funext name
  simp only [pingSeriesDefault, object, Object.set_apply, List.foldl, List.nil_append]
  grind

end Pings

section Reports

theorem decodes_proxyCheck (check : ProxyCheckResult) (plain : ∀ text ∈ check.texts, Plain text) :
    Decodes proxyCheckField proxyCheckDefault (encodeProxyCheck check) (receivedProxyCheck check) := by
  simp only [ProxyCheckResult.texts, List.forall_mem_append, List.forall_mem_cons] at plain
  obtain ⟨⟨id, called, protocol, stage, _⟩, error⟩ := plain
  apply Decodes.text rfl (by decide) id
  apply Decodes.text rfl (by decide) called
  apply Decodes.text rfl (by decide) protocol
  apply Decodes.varint rfl (by decide) check.ts.toNat_le
  apply Decodes.someLatency rfl (by decide)
  apply Decodes.varint rfl (by decide) (by cases check.ok <;> decide)
  apply Decodes.text rfl (by decide) stage
  apply Decodes.someText rfl (by decide) error
  apply Decodes.someVarint rfl (by decide)
  apply Decodes.someVarint rfl (by decide)
  apply Decodes.someVarint rfl (by decide)
  apply Decodes.done
  rw [flag_toNat]
  apply Object.ext_on ["target_id", "name", "protocol", "ts", "latency_ms", "ok", "stage", "error",
    "handshake_ms", "first_byte_ms", "total_ms"]
  · simp [proxyCheckDefault, receivedProxyCheck, proxyCheckJson, object, Object.set_apply,
      Object.setSome_apply]
  · intro name absent
    simp only [List.mem_cons, List.not_mem_nil, or_false, not_or] at absent
    simp only [proxyCheckDefault, receivedProxyCheck, proxyCheckJson, object, Object.set_apply,
      Object.setSome_apply, List.foldl, absent, if_false]

/-- An optional message of an object that is a part of the state. -/
theorem Decodes.partOf {σ α : Type} {field : σ → Nat → Action σ} {last : σ} {rest : Bytes}
    {fields : Object} {name : String} {value : Option α} {write : α → Bytes} {wrap : α → Json}
    (put : Object → σ)
    (present : ∀ x, value = some x → Decodes field (put (fields.set name (wrap x))) rest last →
      Decodes field (put fields) (write x ++ rest) last)
    (others : Decodes field (put (fields.setSome name (value.map wrap))) rest last) :
    Decodes field (put fields) (fieldSome value write ++ rest) last := by
  cases value with
  | none => exact others
  | some x => exact present x rfl others

def metricsValue (metrics : Metrics) : Object := object
  [("hostname", .str metrics.hostname), ("process_count", .int metrics.processCount.n),
    ("thread_count", .int metrics.threadCount.n), ("cpu_percent", .num metrics.cpuPercent),
    ("memory", .obj (memJson metrics.memory)), ("load", .obj (loadJson metrics.load)),
    ("disk", .obj (diskJson metrics.disk)), ("net", .obj (netJson metrics.net)),
    ("diskio", .obj (diskioJson metrics.diskio)), ("uptime_sec", .int metrics.uptimeSec.n)]
    |>.setSome "stats" (metrics.stats.map fun stats => .obj (aggStatsJson stats))
    |>.setSome "vps_info" (metrics.vpsInfo.map fun info => .obj (vpsInfoJson info))

def metricsState (metrics : Metrics) : MetricsState where
  value := metricsValue metrics
  samples := metrics.samples.map fun sample => .obj (receivedSample sample)
  pingSeries := (groupPings metrics.pings).map fun group => .obj (receivedPings group)
  proxyChecks := metrics.proxyChecks.map fun check => .obj (receivedProxyCheck check)

theorem targetId_of_groupPings {pings : List PingResult} {group : String × List PingResult}
    (member : group ∈ groupPings pings) : group.1 ∈ pings.map PingResult.targetId := by
  obtain ⟨targetId, known, rfl⟩ := List.mem_map.mp member
  exact List.mem_dedup.mp (List.mem_mergeSort.mp known)

def metricsKeys : List String :=
  ["hostname", "process_count", "thread_count", "cpu_percent", "memory", "load", "disk", "net",
    "diskio", "uptime_sec", "stats", "samples", "vps_info", "ping_series", "proxy_checks"]

theorem decodes_metrics (metrics : Metrics) (plain : ∀ text ∈ metrics.texts, Plain text) :
    Decodes metricsField { value := metricsDefault } (encodeMetrics metrics) (metricsState metrics) := by
  simp only [Metrics.texts, List.forall_mem_append, List.forall_mem_cons] at plain
  obtain ⟨⟨⟨⟨hostname, _⟩, infos⟩, targets⟩, checks⟩ := plain
  apply Decodes.mapped rfl (by decide) (fun _ => textDecode_utf8 hostname)
  apply Decodes.varint rfl (by decide) metrics.processCount.safe
  apply Decodes.varint rfl (by decide) metrics.threadCount.safe
  apply Decodes.f64 rfl (by decide)
  apply Decodes.mapped rfl (by decide) (decodes_memory metrics.memory)
  apply Decodes.mapped rfl (by decide) (decodes_load metrics.load)
  apply Decodes.mapped rfl (by decide) (decodes_disk metrics.disk)
  apply Decodes.mapped rfl (by decide) (decodes_net metrics.net)
  apply Decodes.mapped rfl (by decide) (decodes_diskio metrics.diskio)
  apply Decodes.varint rfl (by decide) metrics.uptimeSec.safe
  dsimp only
  apply Decodes.partOf (MetricsState.mk · [] [] [])
  · intro stats _ others
    exact Decodes.mapped rfl (by decide) (decodes_aggStats stats) others
  apply Decodes.collected (MetricsState.mk _ · [] [])
  · intro before sample _ rest others
    exact Decodes.content rfl (by decide) (decodes_sample sample) others
  apply Decodes.partOf (MetricsState.mk · _ [] [])
  · intro info held others
    exact Decodes.mapped rfl (by decide) (decodes_vpsInfo info fun text inside =>
      infos text (List.mem_flatMap.mpr ⟨info, Option.mem_toList.mpr held, inside⟩)) others
  generalize read : Object.setSome _ "vps_info" _ = value
  unfold encodePingSeries
  rw [List.flatMap_map]
  apply Decodes.collected (MetricsState.mk value (metricsState metrics).samples · [])
  · intro before group member rest others
    exact Decodes.content rfl (by decide) (decodes_pings
      (targets group.1 (targetId_of_groupPings member)) (inOrder_groupPings member)) others
  apply Decodes.collected (MetricsState.mk value (metricsState metrics).samples
    (metricsState metrics).pingSeries ·)
  · intro before check member rest others
    exact Decodes.content rfl (by decide) (decodes_proxyCheck check fun text inside =>
      checks text (List.mem_flatMap.mpr ⟨check, member, inside⟩)) others
  apply Decodes.done
  have complete : value = metricsValue metrics := by
    rw [← read]
    apply Object.ext_on metricsKeys
    · simp [metricsKeys, metricsDefault, metricsValue, object, Object.set_apply, Object.setSome_apply]
    · intro name absent
      simp only [metricsKeys, List.mem_cons, List.not_mem_nil, or_false, not_or] at absent
      simp only [metricsDefault, metricsValue, object, Object.set_apply, Object.setSome_apply,
        List.foldl, absent, if_false]
  rw [complete]
  rfl

/-- What is collected into the list of a key that the JSON has under the same condition. -/
theorem listJson_getD {α β : Type} {items : List α} {others : List β}
    (both : items.isEmpty = others.isEmpty) (first : α → Json) (second : β → Json) (value : Json) :
    (listJson first items).getD ((listJson second others).getD value) =
      (listJson first items).getD value := by
  unfold listJson
  rw [← both]
  split <;> rfl

theorem setList_map {α : Type} (fields : Object) (name : String) (item : α → Json) (items : List α) :
    fields.setList name (items.map item) = fields.setSome name (listJson item items) := by
  unfold Object.setList listJson
  rw [List.isEmpty_map]

theorem isEmpty_groupPings (pings : List PingResult) :
    (groupPings pings).isEmpty = pings.isEmpty := by
  cases pings with
  | nil => simp [groupPings]
  | cons ping pings =>
      have known : ping.targetId ∈ ((ping :: pings).map PingResult.targetId).dedup.mergeSort
          fun first second => first ≤ second :=
        List.mem_mergeSort.mpr (List.mem_dedup.mpr List.mem_cons_self)
      have grouped := List.mem_map_of_mem (f := fun targetId => (targetId,
        ((ping :: pings).filter fun other => other.targetId = targetId).mergeSort
          fun first second => first.ts.sec ≤ second.ts.sec)) known
      exact List.isEmpty_eq_false_iff.mpr (List.ne_nil_of_mem grouped)

theorem pingSeries_listJson (pings : List PingResult) :
    (if pings.isEmpty then none else some (pingSeriesJson pings)) =
      listJson (fun group => .obj (pingsJson group.1 group.2)) (groupPings pings) := by
  unfold listJson pingSeriesJson
  rw [isEmpty_groupPings]

theorem finish_metricsState (metrics : Metrics) :
    (metricsState metrics).finish = receivedMetrics metrics := by
  unfold MetricsState.finish metricsState receivedMetrics metricsJson
  rw [setList_map, setList_map, setList_map, pingSeries_listJson]
  apply Object.ext_on metricsKeys
  · simp [metricsKeys, metricsValue, object, Object.set_apply, Object.setSome_apply, listJson_getD]
  · intro name absent
    simp only [metricsKeys, List.mem_cons, List.not_mem_nil, or_false, not_or] at absent
    simp only [metricsValue, object, Object.set_apply, Object.setSome_apply, List.foldl, absent,
      if_false]

theorem decodeMetrics_encodeMetrics (metrics : Metrics) (plain : ∀ text ∈ metrics.texts, Plain text)
    (short : (encodeMetrics metrics).length ≤ maxSafeInteger) :
    decodeMetrics (encodeMetrics metrics) = .ok (receivedMetrics metrics) := by
  unfold decodeMetrics
  rw [decodes_metrics metrics plain short, ← finish_metricsState]
  rfl

end Reports

section Bodies

variable {toVec : Json → Option Bytes} {parse : Bytes → Option Json} {payload : Payload}
  {text : Bytes} {capabilities value : Object}

/-- A message that is read up to the label and the report, whatever these two are read as. -/
theorem decodes_payload {label : String} (given : payload.capabilities = .obj capabilities)
    (written : toVec payload.capabilities = some text)
    (read : parse text = some payload.capabilities) (agentId : Plain payload.agentId)
    (agentLabel : textDecode (utf8 payload.agentLabel) = .ok label)
    (agentVersion : Plain payload.agentVersion)
    (metrics : (encodeMetrics payload.metrics).length ≤ maxSafeInteger →
      decodeMetrics (encodeMetrics payload.metrics) = .ok value) :
    Decodes (bodyField parse) { body := bodyDefault } (encodePayload toVec payload)
      { body := (bodyJson payload).set "agent_label" (.str label) |>.set "metrics" (.obj value),
        version := 1 } := by
  have parsed : parseJson parse text = .ok payload.capabilities := by
    unfold parseJson
    rw [read, given]
  unfold encodePayload
  rw [written]
  apply Decodes.varint rfl (by decide) (by decide)
  apply Decodes.mapped rfl (by decide) (fun _ => textDecode_utf8 agentId)
  apply Decodes.mapped rfl (by decide) (fun _ => agentLabel)
  apply Decodes.mapped rfl (by decide) (fun _ => textDecode_utf8 agentVersion)
  apply Decodes.content rfl (by decide) (fun _ => parsed)
  apply Decodes.mapped rfl (by decide) metrics
  apply Decodes.done
  apply congrArg (BodyState.mk · 1)
  funext name
  simp only [bodyDefault, bodyJson, object, Object.set_apply, List.foldl]
  grind

theorem decode_payload {label : String} (given : payload.capabilities = .obj capabilities)
    (written : toVec payload.capabilities = some text)
    (read : parse text = some payload.capabilities) (agentId : Plain payload.agentId)
    (agentLabel : textDecode (utf8 payload.agentLabel) = .ok label)
    (agentVersion : Plain payload.agentVersion)
    (metrics : (encodeMetrics payload.metrics).length ≤ maxSafeInteger →
      decodeMetrics (encodeMetrics payload.metrics) = .ok value) :
    decodeAgentMetricsProtobuf parse (encodePayload toVec payload) =
      if maxAgentPayloadBytes < (encodePayload toVec payload).length then .error "metrics 数据过大"
      else .ok ((bodyJson payload).set "agent_label" (.str label) |>.set "metrics" (.obj value)) := by
  unfold decodeAgentMetricsProtobuf
  split
  · rfl
  case isFalse fits =>
    have short : (encodePayload toVec payload).length ≤ maxSafeInteger := by
      unfold maxAgentPayloadBytes at fits
      unfold maxSafeInteger
      omega
    rw [decodes_payload given written read agentId agentLabel agentVersion metrics short]
    simp only [bind, Except.bind, ne_eq, not_true, if_false, Object.set_self]

/-- A message of at most `MAX_AGENT_PAYLOAD_BYTES` is read as the JSON body of its report, in which a
check's flag is a number and no time is before 1970. -/
theorem binary_agrees_with_json (given : payload.capabilities = .obj capabilities)
    (written : toVec payload.capabilities = some text)
    (read : parse text = some payload.capabilities) (plain : ∀ text ∈ payload.texts, Plain text) :
    decodeAgentMetricsProtobuf parse (encodePayload toVec payload) =
      if maxAgentPayloadBytes < (encodePayload toVec payload).length then .error "metrics 数据过大"
      else .ok (receivedBody payload) := by
  simp only [Payload.texts, List.forall_mem_append, List.forall_mem_cons] at plain
  obtain ⟨⟨agentId, agentLabel, agentVersion, _⟩, texts⟩ := plain
  have body : (bodyJson payload).set "agent_label" (.str payload.agentLabel) = bodyJson payload := by
    funext name
    simp only [bodyJson, object, Object.set_apply, List.foldl]
    grind
  rw [decode_payload given written read agentId (textDecode_utf8 agentLabel) agentVersion
    (decodeMetrics_encodeMetrics payload.metrics texts), body]
  rfl

section Examples

def noCount : Count := ⟨0, by decide⟩

theorem finiteBits_zero : finiteBits 0 := by decide

def noLoad : F64 := ⟨0, finiteBits_zero⟩

/-- A report of a machine that does nothing. -/
def idleMetrics (ts : Stamp) (samples checks : Nat) : Metrics where
  hostname := "host"
  processCount := noCount
  threadCount := noCount
  cpuPercent := noLoad
  memory := { totalMb := noCount, usedMb := noCount, percent := noLoad, swap := none }
  load := { load1 := noLoad, load5 := noLoad, load15 := noLoad }
  disk := { totalGb := noLoad, usedGb := noLoad, availGb := noLoad, percent := noLoad }
  net :=
    { rxBytesSec := noLoad, txBytesSec := noLoad, rxBytes := noCount, txBytes := noCount,
      tcpConns := noCount, udpConns := noCount }
  diskio := { readBytesSec := noLoad, writeBytesSec := noLoad }
  uptimeSec := noCount
  stats := none
  samples := List.replicate samples
    { ts, cpu := noLoad, mem := noLoad, disk := noLoad, load := noLoad, load5 := noLoad,
      load15 := noLoad, processCount := noCount, netRx := noLoad, netTx := noLoad,
      tcpConns := noCount, udpConns := noCount, diskRead := noLoad, diskWrite := noLoad,
      cpuTemp := none, gpuTemp := none, gpuUtil := none, motherboardTemp := none, diskTemp := none,
      chipsetTemp := none }
  vpsInfo := none
  pings := []
  proxyChecks := List.replicate checks
    { targetId := "target", name := "name", protocol := "socks5", ts, latencyMs := none,
      handshakeMs := none, firstByteMs := none, totalMs := none, ok := true, stage := "connect",
      error := none }

def idlePayload (agentLabel : String) (ts : Stamp) (samples checks : Nat) : Payload where
  agentId := "agent"
  agentLabel
  agentVersion := "v1"
  capabilities := .obj fun _ => .null
  metrics := idleMetrics ts samples checks

/-- `serde_json::to_vec` and `JSON.parse` at the empty object. -/
def emptyToVec (_ : Json) : Option Bytes := some (utf8 "\x7b\x7d")

def emptyParse (_ : Bytes) : Option Json := some (.obj fun _ => .null)

theorem idle_received {label agentLabel : String} {ts : Stamp} {samples checks : Nat}
    (read : textDecode (utf8 agentLabel) = .ok label)
    (texts : ∀ text ∈ (idleMetrics ts samples checks).texts, Plain text)
    (fits : (encodePayload emptyToVec (idlePayload agentLabel ts samples checks)).length ≤
      maxAgentPayloadBytes) :
    decodeAgentMetricsProtobuf emptyParse
        (encodePayload emptyToVec (idlePayload agentLabel ts samples checks)) =
      .ok ((bodyJson (idlePayload agentLabel ts samples checks)).set "agent_label" (.str label)
        |>.set "metrics" (.obj (receivedMetrics (idleMetrics ts samples checks)))) := by
  have agentId : Plain "agent" := by decide
  have agentVersion : Plain "v1" := by decide
  rw [decode_payload rfl rfl rfl agentId read agentVersion
    (decodeMetrics_encodeMetrics (idleMetrics ts samples checks) texts), if_neg (by omega)]

theorem samples_le_length (payload : Payload) (toVec : Json → Option Bytes) :
    payload.metrics.samples.length ≤ (encodePayload toVec payload).length := by
  have each : ∀ samples : List SamplePoint, samples.length ≤
      (samples.flatMap fun sample => fieldMessage 12 (encodeSample sample)).length := by
    intro samples
    induction samples with
    | nil => exact Nat.zero_le _
    | cons sample samples ih =>
        have positive := length_varint_pos (12 * 8 + 2)
        rw [List.flatMap_cons, List.length_append, List.length_cons]
        simp only [fieldMessage, fieldBytes, key, List.length_append] at ih ⊢
        omega
  have metrics : payload.metrics.samples.length ≤ (encodeMetrics payload.metrics).length := by
    have samples := each payload.metrics.samples
    simp only [encodeMetrics, List.length_flatten, List.map_cons, List.sum_cons]
    omega
  simp only [encodePayload, fieldMessage, fieldBytes, List.length_flatten, List.length_append,
    List.map_cons, List.sum_cons]
  omega

/-- The two forms differ in the flag of a check, in a time before 1970, in a message that is too
large for the binary form and in a text that starts with a byte order mark. -/
theorem binary_differs_from_json :
    decodeAgentMetricsProtobuf emptyParse
        (encodePayload emptyToVec (idlePayload "label" ⟨0, by decide⟩ 0 1)) ≠
      .ok (bodyJson (idlePayload "label" ⟨0, by decide⟩ 0 1)) ∧
    decodeAgentMetricsProtobuf emptyParse
        (encodePayload emptyToVec (idlePayload "label" ⟨-1, by decide⟩ 1 0)) ≠
      .ok (bodyJson (idlePayload "label" ⟨-1, by decide⟩ 1 0)) ∧
    decodeAgentMetricsProtobuf emptyParse
        (encodePayload emptyToVec (idlePayload "label" ⟨0, by decide⟩ 1000001 0)) ≠
      .ok (bodyJson (idlePayload "label" ⟨0, by decide⟩ 1000001 0)) ∧
    decodeAgentMetricsProtobuf emptyParse
        (encodePayload emptyToVec (idlePayload "\uFEFFlabel" ⟨0, by decide⟩ 0 0)) ≠
      .ok (bodyJson (idlePayload "\uFEFFlabel" ⟨0, by decide⟩ 0 0)) := by
  refine ⟨?flag, ?time, ?size, ?mark⟩
  case flag =>
    rw [idle_received (textDecode_utf8 (by decide)) (by decide) (by decide +kernel)]
    intro same
    have metrics := Json.obj.inj (congrFun (Except.ok.inj same) "metrics")
    have checks := List.head_eq_of_cons_eq (Json.arr.inj (congrFun metrics "proxy_checks"))
    have flag : Json.int 1 = .bool true := congrFun (Json.obj.inj checks) "ok"
    cases flag
  case time =>
    rw [idle_received (textDecode_utf8 (by decide)) (by decide) (by decide +kernel)]
    intro same
    have metrics := Json.obj.inj (congrFun (Except.ok.inj same) "metrics")
    have samples := congrFun metrics "samples"
    simp only [receivedMetrics, metricsJson, Object.setSome_apply, String.reduceEq, if_false,
      if_true] at samples
    have sample := Json.obj.inj (List.head_eq_of_cons_eq (Json.arr.inj samples))
    have time : F64.ofInt 0 = F64.ofInt (-1) := Json.num.inj (congrFun sample "ts")
    exact absurd time (by decide +kernel)
  case size =>
    have samples := samples_le_length (idlePayload "label" ⟨0, by decide⟩ 1000001 0) emptyToVec
    have large : maxAgentPayloadBytes <
        (encodePayload emptyToVec (idlePayload "label" ⟨0, by decide⟩ 1000001 0)).length := by
      rw [idlePayload, idleMetrics, List.length_replicate] at samples
      exact samples
    unfold decodeAgentMetricsProtobuf
    rw [if_pos large]
    nofun
  case mark =>
    rw [idle_received (show textDecode _ = .ok "label" by decide +kernel) (by decide)
      (by decide +kernel)]
    intro same
    have label : Json.str "label" = .str "\uFEFFlabel" := congrFun (Except.ok.inj same) "agent_label"
    exact absurd (Json.str.inj label) (by decide)

theorem binary_agrees_with_json_idle :
    (idlePayload "label" ⟨0, by decide⟩ 1 1).capabilities = .obj (fun _ => .null) ∧
      emptyToVec (.obj fun _ => .null) = some (utf8 "\x7b\x7d") ∧
      emptyParse (utf8 "\x7b\x7d") = some (.obj fun _ => .null) ∧
      (∀ text ∈ (idlePayload "label" ⟨0, by decide⟩ 1 1).texts, Plain text) ∧
      decodeAgentMetricsProtobuf emptyParse
          (encodePayload emptyToVec (idlePayload "label" ⟨0, by decide⟩ 1 1)) =
        if maxAgentPayloadBytes <
            (encodePayload emptyToVec (idlePayload "label" ⟨0, by decide⟩ 1 1)).length then
          .error "metrics 数据过大"
        else .ok (receivedBody (idlePayload "label" ⟨0, by decide⟩ 1 1)) :=
  ⟨rfl, rfl, rfl, by decide, binary_agrees_with_json rfl rfl rfl (by decide)⟩

end Examples

end Bodies

end NieSla.Protobuf
