import NieSla.Protobuf.Decoder
import NieSla.Protobuf.Metrics

/-! The two forms of a report mean the same: each message is decoded to the object that the JSON body
has for it. -/
namespace NieSla.Protobuf

section Rules

variable {σ : Type} {field : σ → Nat → Action σ} {state last : σ} {rest : Bytes} {number : Nat}

/-- A field whose content is decoded by another decoder. -/
theorem Decodes.content {α : Type} {content : Bytes} {decode : Bytes → Except String α}
    {set : α → σ} {value : α}
    (action : field state number = .bytes fun content => do return set (← decode content))
    (numbered : 0 < number ∧ number < 100)
    (inner : content.length ≤ maxSafeInteger → decode content = .ok value)
    (others : Decodes field (set value) rest last) :
    Decodes field state (fieldBytes number content ++ rest) last := by
  refine Decodes.bytes action numbered (fun short => ?_) others
  rw [inner short]
  rfl

theorem Decodes.optional {α : Type} {value : Option α} {write : α → Bytes} {next : α → σ}
    (present : ∀ x, value = some x → Decodes field (next x) rest last →
      Decodes field state (write x ++ rest) last)
    (others : Decodes field (value.elim state next) rest last) :
    Decodes field state (fieldSome value write ++ rest) last := by
  cases value with
  | none => exact others
  | some x => exact present x rfl others

theorem Decodes.repeated {α : Type} {items : List α} {write : α → Bytes} (next : σ → α → σ)
    (each : ∀ state, ∀ x ∈ items, ∀ rest, Decodes field (next state x) rest last →
      Decodes field state (write x ++ rest) last)
    (others : Decodes field (items.foldl next state) rest last) :
    Decodes field state (items.flatMap write ++ rest) last := by
  induction items generalizing state with
  | nil => exact others
  | cons x items ih =>
      rw [List.flatMap_cons, List.append_assoc]
      apply each state x List.mem_cons_self
      exact ih (fun state y member => each state y (List.mem_cons_of_mem x member)) others

/-- Messages that are collected in a list. -/
theorem Decodes.collected {α : Type} {items : List α} {write : α → Bytes} {wrap : α → Json}
    {before : List Json} (put : List Json → σ)
    (each : ∀ before, ∀ x ∈ items, ∀ rest, Decodes field (put (before ++ [wrap x])) rest last →
      Decodes field (put before) (write x ++ rest) last)
    (others : Decodes field (put (before ++ items.map wrap)) rest last) :
    Decodes field (put before) (items.flatMap write ++ rest) last := by
  induction items generalizing before with
  | nil =>
      rw [List.map_nil, List.append_nil] at others
      exact others
  | cons x items ih =>
      rw [List.flatMap_cons, List.append_assoc]
      apply each before x List.mem_cons_self
      apply ih fun before y member => each before y (List.mem_cons_of_mem x member)
      rw [List.append_assoc]
      exact others

/-- The content of a field of an object that is a part of the state. -/
theorem Decodes.mapped {τ α : Type} {content : Bytes} {decode : Bytes → Except String α}
    {set : α → τ} {wrap : τ → σ} {value : α}
    (action : field state number = (Action.bytes fun content => do return set (← decode content)).map wrap)
    (numbered : 0 < number ∧ number < 100)
    (inner : content.length ≤ maxSafeInteger → decode content = .ok value)
    (others : Decodes field (wrap (set value)) rest last) :
    Decodes field state (fieldBytes number content ++ rest) last := by
  refine Decodes.bytes action numbered (fun short => ?_) others
  beta_reduce
  rw [inner short]
  rfl

end Rules

section Objects

variable {fields : Object} {name : String}

theorem Object.setSome_apply (fields : Object) (name other : String) (value : Option Json) :
    fields.setSome name value other =
      if other = name then value.getD (fields name) else fields other := by
  cases value with
  | none =>
      by_cases same : other = name
      · rw [same, if_pos rfl]
        rfl
      · rw [if_neg same]
        rfl
  | some value => exact Object.set_apply fields name other value

theorem Object.set_other {other : String} (different : other ≠ name) (value : Json) :
    fields.set name value other = fields other := by
  rw [Object.set_apply, if_neg different]

/-- A key that is set when there is a value. -/
theorem elim_set {α : Type} (value : Option α) (wrap : α → Json) :
    value.elim fields (fun x => fields.set name (wrap x)) = fields.setSome name (value.map wrap) := by
  cases value <;> rfl

/-- Objects are compared at the names that occur in them. -/
theorem Object.ext_on (names : List String) {first second : Object}
    (inside : ∀ name ∈ names, first name = second name)
    (outside : ∀ name, name ∉ names → first name = second name) : first = second := by
  funext name
  by_cases member : name ∈ names
  · exact inside name member
  · exact outside name member

theorem push_arr {items : List Json} (listed : fields name = .arr items) (item : Json) :
    fields.push name item = fields.set name (.arr (items ++ [item])) := by
  unfold Object.push
  rw [listed]

theorem foldl_push_arr {α : Type} (wrap : α → Json) (items : List α) {before : List Json}
    (listed : fields name = .arr before) :
    items.foldl (fun fields x => fields.push name (wrap x)) fields =
      fields.set name (.arr (before ++ items.map wrap)) := by
  induction items generalizing fields before with
  | nil =>
      rw [List.map_nil, List.append_nil, ← listed]
      exact (Function.update_eq_self name fields).symm
  | cons x items ih =>
      rw [List.foldl_cons, push_arr listed, ih (Object.set_self ..), Object.set_set,
        List.append_assoc]
      rfl

/-- The items that are pushed to an absent key. -/
theorem foldl_push {α : Type} (wrap : α → Json) (items : List α) (absent : fields name = .null) :
    items.foldl (fun fields x => fields.push name (wrap x)) fields =
      fields.setSome name (listJson wrap items) := by
  cases items with
  | nil => rfl
  | cons x items =>
      have first : fields.push name (wrap x) = fields.set name (.arr [wrap x]) := by
        unfold Object.push
        rw [absent]
      rw [List.foldl_cons, first, foldl_push_arr wrap items (Object.set_self ..),
        Object.set_set]
      rfl

end Objects

section Fields

variable {field : Object → Nat → Action Object} {fields last : Object} {rest : Bytes} {number : Nat}
  {name : String}

theorem Decodes.text {text : String} (action : field fields number = setString fields name)
    (numbered : 0 < number ∧ number < 100) (plain : Plain text)
    (others : Decodes field (fields.set name (.str text)) rest last) :
    Decodes field fields (fieldString number text ++ rest) last :=
  Decodes.content action numbered (fun _ => textDecode_utf8 plain) others

/-- An optional measurement. -/
theorem Decodes.someF64 {value : Option F64} (action : field fields number = setFixed64 fields name)
    (numbered : 0 < number ∧ number < 100)
    (others : Decodes field (fields.setSome name (value.map .num)) rest last) :
    Decodes field fields (fieldSome value (fieldF64 number) ++ rest) last := by
  apply Decodes.optional (fun x _ => Decodes.f64 action numbered)
  rwa [elim_set]

/-- An optional count, as a double. -/
theorem Decodes.someLatency {value : Option Count}
    (action : field fields number = setFixed64 fields name) (numbered : 0 < number ∧ number < 100)
    (others : Decodes field (fields.setSome name (value.map fun count => .int count.n)) rest last) :
    Decodes field fields
      ((fieldSome value fun count => fieldF64 number (.ofInt count.n)) ++ rest) last := by
  apply Decodes.optional (fun x _ => Decodes.f64 action numbered)
  rw [← elim_set] at others
  exact others

theorem Decodes.someVarint {value : Option Count}
    (action : field fields number = setVarint fields name) (numbered : 0 < number ∧ number < 100)
    (others : Decodes field (fields.setSome name (value.map fun count => .int count.n)) rest last) :
    Decodes field fields ((fieldSome value fun count => fieldVarint number count.n) ++ rest) last := by
  apply Decodes.optional (fun x _ => Decodes.varint action numbered x.safe)
  rwa [elim_set value fun count => Json.int count.n]

theorem Decodes.someText {value : Option String}
    (action : field fields number = setString fields name) (numbered : 0 < number ∧ number < 100)
    (plain : ∀ text ∈ value.toList, Plain text)
    (others : Decodes field (fields.setSome name (value.map .str)) rest last) :
    Decodes field fields (fieldSome value (fieldString number) ++ rest) last := by
  apply Decodes.optional
  · intro text held
    exact Decodes.text action numbered (plain text (Option.mem_toList.mpr held))
  · rwa [elim_set]

/-- A field that is written under a condition. -/
theorem Decodes.when {present : Prop} [Decidable present] {bytes : Bytes} {value : Json}
    (written : present → Decodes field (fields.set name value) rest last →
      Decodes field fields (bytes ++ rest) last)
    (others : Decodes field (fields.setSome name (if present then some value else none)) rest last) :
    Decodes field fields ((if present then bytes else []) ++ rest) last := by
  by_cases holds : present
  · rw [if_pos holds] at others ⊢
    exact written holds others
  · rw [if_neg holds] at others ⊢
    exact others

/-- The items of a list, each in a message of its own. -/
theorem Decodes.list {α : Type} {items : List α} {encode : α → Bytes} {json : α → Object}
    {decode : Bytes → Except String Object}
    (action : ∀ fields, field fields number = pushMessage fields name decode)
    (numbered : 0 < number ∧ number < 100)
    (each : ∀ x ∈ items, (encode x).length ≤ maxSafeInteger → decode (encode x) = .ok (json x))
    (absent : fields name = .null)
    (others : Decodes field (fields.setSome name (listJson (fun x => .obj (json x)) items)) rest last) :
    Decodes field fields ((items.flatMap fun x => fieldMessage number (encode x)) ++ rest) last := by
  apply Decodes.repeated _
  · intro fields x member rest
    exact Decodes.content (action fields) numbered (each x member)
  · rwa [foldl_push (fun x => Json.obj (json x)) items absent]

end Fields

section Texts

def TemperatureSensor.texts (sensor : TemperatureSensor) : List String :=
  [sensor.id, sensor.label, sensor.kind]

def DiskEntry.texts (entry : DiskEntry) : List String := [entry.device, entry.mount]

def VpsInfo.texts (info : VpsInfo) : List String :=
  [info.cpuModel, info.arch, info.os, info.kernel, info.virtualization, info.gpuName] ++
    info.temperatureSensors.flatMap TemperatureSensor.texts ++
    info.diskList.flatMap DiskEntry.texts

def ProxyCheckResult.texts (check : ProxyCheckResult) : List String :=
  [check.targetId, check.name, check.protocol, check.stage] ++ check.error.toList

def Metrics.texts (metrics : Metrics) : List String :=
  [metrics.hostname] ++ metrics.vpsInfo.toList.flatMap VpsInfo.texts ++
    metrics.pings.map PingResult.targetId ++ metrics.proxyChecks.flatMap ProxyCheckResult.texts

def Payload.texts (payload : Payload) : List String :=
  [payload.agentId, payload.agentLabel, payload.agentVersion] ++ payload.metrics.texts

end Texts

section Messages

theorem decodes_swap (swap : SwapInfo) :
    Decodes swapField swapDefault (encodeSwap swap) (swapJson swap) := by
  apply Decodes.varint rfl (by decide) swap.totalMb.safe
  apply Decodes.varint rfl (by decide) swap.usedMb.safe
  apply Decodes.f64 rfl (by decide)
  apply Decodes.done
  funext name
  simp only [swapDefault, swapJson, object, Object.set_apply, List.foldl]
  grind

theorem decodes_memory (memory : MemInfo) :
    Decodes memoryField swapDefault (encodeMemory memory) (memJson memory) := by
  apply Decodes.varint rfl (by decide) memory.totalMb.safe
  apply Decodes.varint rfl (by decide) memory.usedMb.safe
  apply Decodes.f64 rfl (by decide)
  apply Decodes.optional
  · intro swap _
    exact Decodes.content rfl (by decide) (decodes_swap swap)
  apply Decodes.done
  rw [elim_set memory.swap fun swap => Json.obj (swapJson swap)]
  funext name
  simp only [swapDefault, memJson, object, Object.set_apply, Object.setSome_apply, List.foldl]
  grind

theorem decodes_load (load : LoadInfo) :
    Decodes loadField loadDefault (encodeLoad load) (loadJson load) := by
  apply Decodes.f64 rfl (by decide)
  apply Decodes.f64 rfl (by decide)
  apply Decodes.f64 rfl (by decide)
  apply Decodes.done
  funext name
  simp only [loadDefault, loadJson, object, Object.set_apply, List.foldl]
  grind

theorem decodes_disk (disk : DiskInfo) :
    Decodes diskField diskDefault (encodeDisk disk) (diskJson disk) := by
  apply Decodes.f64 rfl (by decide)
  apply Decodes.f64 rfl (by decide)
  apply Decodes.f64 rfl (by decide)
  apply Decodes.f64 rfl (by decide)
  apply Decodes.done
  funext name
  simp only [diskDefault, diskJson, object, Object.set_apply, List.foldl]
  grind

theorem decodes_net (net : NetInfo) :
    Decodes netField netDefault (encodeNet net) (netJson net) := by
  apply Decodes.f64 rfl (by decide)
  apply Decodes.f64 rfl (by decide)
  apply Decodes.varint rfl (by decide) net.rxBytes.safe
  apply Decodes.varint rfl (by decide) net.txBytes.safe
  apply Decodes.varint rfl (by decide) net.tcpConns.safe
  apply Decodes.varint rfl (by decide) net.udpConns.safe
  apply Decodes.done
  funext name
  simp only [netDefault, netJson, object, Object.set_apply, List.foldl]
  grind

theorem decodes_diskio (diskio : DiskIoInfo) :
    Decodes diskioField diskioDefault (encodeDiskio diskio) (diskioJson diskio) := by
  apply Decodes.f64 rfl (by decide)
  apply Decodes.f64 rfl (by decide)
  apply Decodes.done
  funext name
  simp only [diskioDefault, diskioJson, object, Object.set_apply, List.foldl]
  grind

theorem decodes_stat (stat : Stats) :
    Decodes statField statDefault (encodeStat stat) (statJson stat) := by
  apply Decodes.f64 rfl (by decide)
  apply Decodes.f64 rfl (by decide)
  apply Decodes.f64 rfl (by decide)
  apply Decodes.done
  funext name
  simp only [statDefault, statJson, object, Object.set_apply, List.foldl]
  grind

theorem decodes_aggStats (stats : AggStats) :
    Decodes aggStatsField (object []) (encodeAggStats stats) (aggStatsJson stats) := by
  apply Decodes.content rfl (by decide) (decodes_stat stats.cpu)
  apply Decodes.content rfl (by decide) (decodes_stat stats.mem)
  apply Decodes.content rfl (by decide) (decodes_stat stats.disk)
  apply Decodes.content rfl (by decide) (decodes_stat stats.load)
  apply Decodes.content rfl (by decide) (decodes_stat stats.netRx)
  apply Decodes.content rfl (by decide) (decodes_stat stats.netTx)
  apply Decodes.content rfl (by decide) (decodes_stat stats.tcpConns)
  apply Decodes.content rfl (by decide) (decodes_stat stats.udpConns)
  apply Decodes.content rfl (by decide) (decodes_stat stats.diskRead)
  apply Decodes.content rfl (by decide) (decodes_stat stats.diskWrite)
  apply Decodes.done
  rfl

theorem Stamp.toNat_le (stamp : Stamp) : (max stamp.sec 0).toNat ≤ maxSafeInteger := by
  have safe := stamp.safe
  omega

/-- The JSON of a sample, but for a time before 1970, which the binary message has as 0. -/
def receivedSample (sample : SamplePoint) : Object :=
  (sampleJson sample).set "ts" (.int (max sample.ts.sec 0))

def sampleKeys : List String :=
  ["ts", "cpu", "mem", "disk", "load", "load5", "load15", "process_count", "net_rx", "net_tx",
    "tcp_conns", "udp_conns", "disk_read", "disk_write", "cpu_temp", "gpu_temp", "gpu_util",
    "motherboard_temp", "disk_temp", "chipset_temp"]

theorem decodes_sample (sample : SamplePoint) :
    Decodes sampleField sampleDefault (encodeSample sample) (receivedSample sample) := by
  apply Decodes.varint rfl (by decide) sample.ts.toNat_le
  apply Decodes.f64 rfl (by decide)
  apply Decodes.f64 rfl (by decide)
  apply Decodes.f64 rfl (by decide)
  apply Decodes.f64 rfl (by decide)
  apply Decodes.f64 rfl (by decide)
  apply Decodes.f64 rfl (by decide)
  apply Decodes.varint rfl (by decide) sample.tcpConns.safe
  apply Decodes.varint rfl (by decide) sample.processCount.safe
  apply Decodes.f64 rfl (by decide)
  apply Decodes.f64 rfl (by decide)
  apply Decodes.varint rfl (by decide) sample.udpConns.safe
  apply Decodes.f64 rfl (by decide)
  apply Decodes.f64 rfl (by decide)
  apply Decodes.someF64 rfl (by decide)
  apply Decodes.someF64 rfl (by decide)
  apply Decodes.someF64 rfl (by decide)
  apply Decodes.someF64 rfl (by decide)
  apply Decodes.someF64 rfl (by decide)
  apply Decodes.someF64 rfl (by decide)
  apply Decodes.done
  apply Object.ext_on sampleKeys
  · simp [sampleKeys, sampleDefault, receivedSample, sampleJson, object, Object.set_apply,
      Object.setSome_apply]
  · intro name absent
    simp only [sampleKeys, List.mem_cons, List.not_mem_nil, or_false, not_or] at absent
    simp only [sampleDefault, receivedSample, sampleJson, object, Object.set_apply,
      Object.setSome_apply, List.foldl, absent, if_false]

theorem decodes_sensor (sensor : TemperatureSensor) (plain : ∀ text ∈ sensor.texts, Plain text) :
    Decodes sensorField sensorDefault (encodeSensor sensor) (sensorJson sensor) := by
  simp only [TemperatureSensor.texts, List.forall_mem_cons] at plain
  obtain ⟨id, label, kind, _⟩ := plain
  apply Decodes.text rfl (by decide) id
  apply Decodes.text rfl (by decide) label
  apply Decodes.text rfl (by decide) kind
  apply Decodes.f64 rfl (by decide)
  apply Decodes.done
  funext name
  simp only [sensorDefault, sensorJson, object, Object.set_apply, List.foldl]
  grind

theorem decodes_diskEntry (entry : DiskEntry) (plain : ∀ text ∈ entry.texts, Plain text) :
    Decodes diskEntryField diskEntryDefault (encodeDiskEntry entry) (diskEntryJson entry) := by
  simp only [DiskEntry.texts, List.forall_mem_cons] at plain
  obtain ⟨device, mount, _⟩ := plain
  apply Decodes.text rfl (by decide) device
  apply Decodes.text rfl (by decide) mount
  apply Decodes.f64 rfl (by decide)
  apply Decodes.f64 rfl (by decide)
  apply Decodes.done
  funext name
  simp only [diskEntryDefault, diskEntryJson, object, Object.set_apply, List.foldl]
  grind

def vpsInfoKeys : List String :=
  ["cpu_model", "cpu_cores", "physical_cores", "arch", "total_mem_mb", "total_swap_mb",
    "total_disk_gb", "os", "kernel", "virtualization", "gpu_name", "gpu_count", "gpu_accessible",
    "disk_list", "cpu_temp_c", "gpu_temp_c", "gpu_util", "motherboard_temp_c", "disk_temp_c",
    "chipset_temp_c", "temperature_sensors"]

theorem decodes_vpsInfo (info : VpsInfo) (plain : ∀ text ∈ info.texts, Plain text) :
    Decodes vpsInfoField vpsInfoDefault (encodeVpsInfo info) (vpsInfoJson info) := by
  simp only [VpsInfo.texts, List.forall_mem_append, List.forall_mem_cons] at plain
  obtain ⟨⟨⟨model, arch, os, kernel, virtualization, gpu, _⟩, sensors⟩, disks⟩ := plain
  apply Decodes.text rfl (by decide) model
  apply Decodes.varint rfl (by decide) info.cpuCores.safe
  apply Decodes.varint rfl (by decide) info.physicalCores.safe
  apply Decodes.text rfl (by decide) arch
  apply Decodes.varint rfl (by decide) info.totalMemMb.safe
  apply Decodes.varint rfl (by decide) info.totalSwapMb.safe
  apply Decodes.f64 rfl (by decide)
  apply Decodes.text rfl (by decide) os
  apply Decodes.text rfl (by decide) kernel
  apply Decodes.text rfl (by decide) virtualization
  apply Decodes.when
  · exact fun _ others => Decodes.text rfl (by decide) gpu others
  apply Decodes.when
  · exact fun _ others => Decodes.varint rfl (by decide) info.gpuCount.safe others
  apply Decodes.when
  · exact fun _ others => Decodes.varint rfl (by decide) (by decide) others
  apply Decodes.someF64 rfl (by decide)
  apply Decodes.someF64 rfl (by decide)
  apply Decodes.someF64 rfl (by decide)
  apply Decodes.someF64 rfl (by decide)
  apply Decodes.someF64 rfl (by decide)
  apply Decodes.someF64 rfl (by decide)
  apply Decodes.list (fun _ => rfl) (by decide)
  · intro sensor member
    exact decodes_sensor sensor fun text inside =>
      sensors text (List.mem_flatMap.mpr ⟨sensor, member, inside⟩)
  · simp [vpsInfoDefault, object, Object.set_apply, Object.setSome_apply]
  apply Decodes.list (fun _ => rfl) (by decide)
  · intro entry member
    exact decodes_diskEntry entry fun text inside =>
      disks text (List.mem_flatMap.mpr ⟨entry, member, inside⟩)
  · simp [vpsInfoDefault, object, Object.set_apply, Object.setSome_apply]
  apply Decodes.done
  apply Object.ext_on vpsInfoKeys
  · simp [vpsInfoKeys, vpsInfoDefault, vpsInfoJson, object, Object.set_apply, Object.setSome_apply]
  · intro name absent
    simp only [vpsInfoKeys, List.mem_cons, List.not_mem_nil, or_false, not_or] at absent
    simp only [vpsInfoDefault, vpsInfoJson, object, Object.set_apply, Object.setSome_apply,
      List.foldl, absent, if_false]

end Messages

end NieSla.Protobuf
