import NieSla.Protobuf.Cursor

/-! The messages of a frame, each with its decoder and the fields that are messages again; a decoder that opens a
reader over its own view for each of them gives what the decoders of the bytes give. -/
namespace NieSla.Protobuf

inductive MessageKind where
  | body | metrics | memory | swap | load | disk | net | diskio | aggStats | stat | sample | vpsInfo | sensor
  | diskEntry | pingSeries | pingPoint | proxyCheck
deriving DecidableEq

namespace MessageKind

/-- The known fields are numbered from one up to this. -/
def known : MessageKind → Nat
  | .body => 6
  | .metrics => 15
  | .memory | .disk | .sensor | .diskEntry => 4
  | .swap | .load | .stat | .pingSeries | .pingPoint => 3
  | .net => 6
  | .diskio => 2
  | .aggStats => 10
  | .sample => 20
  | .vpsInfo => 21
  | .proxyCheck => 11

/-- The kind of message that a field is. -/
def nested : MessageKind → Nat → Option MessageKind
  | .body, 6 => some .metrics
  | .metrics, 5 => some .memory
  | .metrics, 6 => some .load
  | .metrics, 7 => some .disk
  | .metrics, 8 => some .net
  | .metrics, 9 => some .diskio
  | .metrics, 11 => some .aggStats
  | .metrics, 12 => some .sample
  | .metrics, 13 => some .vpsInfo
  | .metrics, 14 => some .pingSeries
  | .metrics, 15 => some .proxyCheck
  | .memory, 4 => some .swap
  | .aggStats, field => if 1 ≤ field ∧ field ≤ 10 then some .stat else none
  | .vpsInfo, 20 => some .sensor
  | .vpsInfo, 21 => some .diskEntry
  | .pingSeries, 3 => some .pingPoint
  | _, _ => none

/-- The levels of messages from one of this kind on. -/
def height : MessageKind → Nat
  | .body => 4
  | .metrics => 3
  | .memory | .aggStats | .vpsInfo | .pingSeries => 2
  | _ => 1

theorem height_of_nested {kind inner : MessageKind} {number : Nat} (found : kind.nested number = some inner) :
    inner.height < kind.height := by
  unfold nested at found
  split at found
  case h_13 =>
      obtain ⟨-, found⟩ := Option.ite_none_right_eq_some.mp found
      cases found
      decide
  all_goals
    cases found
    try decide

end MessageKind

/-- A field that is a message: its kind, and the state that the decoder goes on with. -/
structure Child (σ : Type) where
  kind : MessageKind
  attach : Object → σ

/-- A decoder: what it starts from, what it does with a field, and what it returns. -/
structure Message where
  State : Type
  initial : State
  field : State → Nat → Action State
  finish : State → Except String Object
  child : State → Nat → Option (Child State)

/-- A decoder that returns the object it fills, and that reads no message. -/
def Message.plain (initial : Object) (field : Object → Nat → Action Object) : Message where
  State := Object
  initial
  field
  finish := .ok
  child := fun _ _ => none

def Message.decode (message : Message) (bytes : Bytes) : Except String Object := do
  message.finish (← readFields message.field message.initial bytes)

/-- `value[key] = decode(reader.message())` -/
def Child.set (value : Object) (key : String) (kind : MessageKind) : Option (Child Object) :=
  some ⟨kind, fun child => value.set key (.obj child)⟩

def Child.map {σ τ : Type} (wrap : σ → τ) (child : Child σ) : Child τ := ⟨child.kind, fun value => wrap (child.attach value)⟩

def metricsValueChild (value : Object) : Nat → Option (Child Object)
  | 5 => Child.set value "memory" .memory
  | 6 => Child.set value "load" .load
  | 7 => Child.set value "disk" .disk
  | 8 => Child.set value "net" .net
  | 9 => Child.set value "diskio" .diskio
  | 11 => Child.set value "stats" .aggStats
  | 13 => Child.set value "vps_info" .vpsInfo
  | _ => none

def metricsChild (state : MetricsState) : Nat → Option (Child MetricsState)
  | 12 => some ⟨.sample, fun sample => { state with samples := state.samples ++ [.obj sample] }⟩
  | 14 => some ⟨.pingSeries, fun series => { state with pingSeries := state.pingSeries ++ [.obj series] }⟩
  | 15 => some ⟨.proxyCheck, fun check => { state with proxyChecks := state.proxyChecks ++ [.obj check] }⟩
  | field => (metricsValueChild state.value field).map (Child.map fun value => { state with value })

def aggStatsChild (value : Object) (field : Nat) : Option (Child Object) :=
  if 1 ≤ field ∧ field ≤ statKeys.length then Child.set value (statKeys.getD (field - 1) "") .stat else none

def vpsInfoChild (value : Object) : Nat → Option (Child Object)
  | 20 => some ⟨.sensor, fun sensor => value.push "temperature_sensors" (.obj sensor)⟩
  | 21 => some ⟨.diskEntry, fun entry => value.push "disk_list" (.obj entry)⟩
  | _ => none

/-- The checks behind the loop of `decodeAgentMetricsProtobuf`. -/
def BodyState.finish (state : BodyState) : Except String Object :=
  if state.version ≠ 1 then .error "不支持的 Agent Protobuf 协议版本"
  else match state.body "metrics" with
    | .obj _ => .ok state.body
    | _ => .error "缺少 metrics 对象"

section Messages

variable (parse : Bytes → Option Json)

def MessageKind.message : MessageKind → Message
  | .body =>
      { State := BodyState, initial := { body := bodyDefault }, field := bodyField parse, finish := BodyState.finish,
        child := fun state number =>
          if number = 6 then
            (Child.set state.body "metrics" .metrics).map (Child.map fun body => { state with body })
          else none }
  | .metrics =>
      { State := MetricsState, initial := { value := metricsDefault }, field := metricsField,
        finish := fun state => .ok state.finish, child := metricsChild }
  | .memory =>
      { Message.plain swapDefault memoryField with
        child := fun value number => if number = 4 then Child.set value "swap" .swap else none }
  | .swap => .plain swapDefault swapField
  | .load => .plain loadDefault loadField
  | .disk => .plain diskDefault diskField
  | .net => .plain netDefault netField
  | .diskio => .plain diskioDefault diskioField
  | .aggStats => { Message.plain (object []) aggStatsField with child := aggStatsChild }
  | .stat => .plain statDefault statField
  | .sample => .plain sampleDefault sampleField
  | .vpsInfo => { Message.plain vpsInfoDefault vpsInfoField with child := vpsInfoChild }
  | .sensor => .plain sensorDefault sensorField
  | .diskEntry => .plain diskEntryDefault diskEntryField
  | .pingSeries =>
      { Message.plain pingSeriesDefault pingSeriesField with
        child := fun value number => if number = 3 then some ⟨.pingPoint, pushPoint value⟩ else none }
  | .pingPoint => .plain pingPointDefault pingPointField
  | .proxyCheck => .plain proxyCheckDefault proxyCheckField

variable {parse}

theorem bind_ok {ε α : Type} (result : Except ε α) : (result >>= fun value => .ok value) = result := by
  cases result <;> rfl

/-- A decoder that returns what its loop ends with, in an action that goes on with what is read. -/
theorem decoded_eq {σ : Type} {decode : Bytes → Except String Object} {kind : MessageKind}
    (returns : ∀ content, (kind.message parse).decode content = decode content >>= .ok) (attach : Object → σ) :
    (Action.bytes fun content => do return attach (← decode content)) =
      .bytes fun content => do return attach (← (kind.message parse).decode content) := by
  congr
  funext content
  rw [returns, bind_ok]

theorem map_bytes {σ τ : Type} (wrap : σ → τ) (attach : Object → σ) (decode : Bytes → Except String Object) :
    (Action.bytes fun content => do return attach (← decode content)).map wrap =
      .bytes fun content => do return wrap (attach (← decode content)) := by
  apply congrArg Action.bytes
  funext content
  simp only [bind_assoc, pure_bind]

theorem metricsValueField_of_child {value : Object} {number : Nat} {child : Child Object}
    (found : metricsValueChild value number = some child) :
    metricsValueField value number =
      .bytes fun content => do return child.attach (← (child.kind.message parse).decode content) := by
  unfold metricsValueChild at found
  split at found <;> cases found <;> exact decoded_eq (fun _ => rfl) _

theorem metricsField_of_child {state : MetricsState} {number : Nat} {child : Child MetricsState}
    (found : metricsChild state number = some child) :
    metricsField state number =
      .bytes fun content => do return child.attach (← (child.kind.message parse).decode content) := by
  unfold metricsChild at found
  split at found
  case h_4 =>
      obtain ⟨inner, value, rfl⟩ := Option.map_eq_some_iff.mp found
      rw [metricsField, metricsValueField_of_child value, map_bytes]
      · rfl
      all_goals assumption
  all_goals
    cases found
    exact decoded_eq (fun _ => rfl) _

/-- A field that is a message is read by the decoder of its kind. -/
theorem field_of_child {kind : MessageKind} {state : (kind.message parse).State} {number : Nat}
    {child : Child (kind.message parse).State} (found : (kind.message parse).child state number = some child) :
    (kind.message parse).field state number =
      .bytes fun content => do return child.attach (← (child.kind.message parse).decode content) := by
  cases kind with
  | metrics => exact metricsField_of_child found
  | body =>
      obtain ⟨rfl, found⟩ := Option.ite_none_right_eq_some.mp found
      cases found
      exact map_bytes _ (fun body => state.body.set "metrics" (.obj body)) decodeMetrics
  | memory =>
      obtain ⟨rfl, found⟩ := Option.ite_none_right_eq_some.mp found
      cases found
      exact decoded_eq (fun _ => rfl) _
  | aggStats =>
      obtain ⟨known, found⟩ := Option.ite_none_right_eq_some.mp found
      cases found
      exact (if_pos known).trans (decoded_eq (fun _ => rfl) _)
  | vpsInfo =>
      change vpsInfoChild state number = _ at found
      unfold vpsInfoChild at found
      split at found <;> cases found <;> exact decoded_eq (fun _ => rfl) _
  | pingSeries =>
      obtain ⟨rfl, found⟩ := Option.ite_none_right_eq_some.mp found
      cases found
      exact decoded_eq (fun _ => rfl) _
  | _ => cases found

/-- A field whose number is not among the known ones is skipped. -/
theorem skips_unknown {kind : MessageKind} {number : Nat} (unknown : kind.known < number)
    (state : (kind.message parse).State) : (kind.message parse).field state number = .skip := by
  cases kind <;> dsimp only [MessageKind.message, Message.plain, MessageKind.known] at unknown state ⊢
  case body => rw [bodyField] <;> omega
  case metrics =>
    rw [metricsField, metricsValueField]
    · rfl
    all_goals omega
  case memory => rw [memoryField] <;> omega
  case swap => rw [swapField] <;> omega
  case load => rw [loadField] <;> omega
  case disk => rw [diskField] <;> omega
  case net => rw [netField] <;> omega
  case diskio => rw [diskioField] <;> omega
  case aggStats => exact if_neg fun inside => absurd (inside.2.trans_lt unknown) (lt_irrefl _)
  case stat => rw [statField] <;> omega
  case sample => rw [sampleField] <;> omega
  case vpsInfo => rw [vpsInfoField] <;> omega
  case sensor => rw [sensorField] <;> omega
  case diskEntry => rw [diskEntryField] <;> omega
  case pingSeries => rw [pingSeriesField] <;> omega
  case pingPoint => rw [pingPointField] <;> omega
  case proxyCheck => rw [proxyCheckField] <;> omega

/-- The known fields of a message are numbered without a gap. -/
theorem reads_known {kind : MessageKind} {number : Nat} (known : number ≤ kind.known)
    (positive : 0 < number) (state : (kind.message parse).State) : (kind.message parse).field state number ≠ .skip := by
  cases kind <;> dsimp only [MessageKind.message, Message.plain, MessageKind.known] at known state ⊢ <;> interval_cases number <;> exact nofun

end Messages

section Views

variable (parse : Bytes → Option Json)

/-- An action that opens no reader of its own. -/
def Action.overViews {σ : Type} : Action σ → ActionAt σ
  | .varint next => .varint next
  | .fixed64 next => .fixed64 next
  | .bytes next => .bytes fun content => throwing (next content.bytes)
  | .skip => .skip

/-- What a decoder does with a field, where a message is read by a reader over its own view. -/
def Message.fieldAt (message : Message) (decode : MessageKind → View → Except Fault Object) (state : message.State)
    (number : Nat) : ActionAt message.State :=
  match message.child state number with
  | some child => .bytes fun content => do return child.attach (← decode child.kind content)
  | none => (message.field state number).overViews

/-- The decoder of a kind of message over a view; it gives up below `depth` levels of messages. -/
def decodeAt : Nat → MessageKind → View → Except Fault Object
  | 0, _, _ => .error .endless
  | depth + 1, kind, view => do
      let message := kind.message parse
      let state ← readFieldsAt view (message.fieldAt (decodeAt depth)) (view.length + 1) message.initial 0
      throwing (message.finish state)

/-- `decodeAgentMetricsProtobuf(input)` for the view that `toBytes` makes. -/
def decodeAgentMetricsProtobufAt (view : View) : Except Fault Object :=
  if maxAgentPayloadBytes < view.length then .error (.thrown "metrics 数据过大")
  else decodeAt parse MessageKind.body.height .body view

variable {parse}

theorem metricsChild_kind (state : MetricsState) (number : Nat) :
    (metricsChild state number).map Child.kind = MessageKind.metrics.nested number := by
  unfold metricsChild
  split
  case h_4 =>
      unfold metricsValueChild
      split
      case h_8 => rw [MessageKind.nested] <;> first | rfl | exact fun _ => ‹_› | nofun
      all_goals rfl
  all_goals rfl

/-- Whether a field is a message, and of which kind, is told by its number. -/
theorem child_kind (parse : Bytes → Option Json) (kind : MessageKind) (state : (kind.message parse).State) (number : Nat) :
    ((kind.message parse).child state number).map Child.kind = kind.nested number := by
  cases kind with
  | metrics => exact metricsChild_kind state number
  | vpsInfo =>
      change (vpsInfoChild state number).map Child.kind = _
      unfold vpsInfoChild
      split
      case h_3 => rw [MessageKind.nested] <;> first | rfl | exact fun _ => ‹_› | nofun
      all_goals rfl
  | aggStats => exact apply_ite (Option.map Child.kind) _ _ _
  | body | memory | pingSeries =>
      refine (apply_ite (Option.map Child.kind) _ _ _).trans ?_
      split_ifs with same
      · subst same
        rfl
      · rw [MessageKind.nested] <;> first | rfl | exact fun _ => same | nofun
  | _ => rfl

theorem overViews_mirrors {σ : Type} (action : Action σ) : Mirrors action.overViews action := by
  cases action with
  | varint next => exact .varint next
  | fixed64 next => exact .fixed64 next
  | bytes next => exact .bytes fun _ => rfl
  | skip => exact .skip

theorem throwing_bind {α β : Type} (result : Except String α) (next : α → Except String β) :
    throwing (result >>= next) = throwing result >>= fun value => throwing (next value) := by
  cases result <;> rfl

/-- The decoder over a view, down to the last message in it, gives what the one of its bytes gives. -/
theorem decodeAt_eq {depth : Nat} {kind : MessageKind} (deep : kind.height ≤ depth) (view : View) :
    decodeAt parse depth kind view = throwing ((kind.message parse).decode view.bytes) := by
  induction depth generalizing kind view with
  | zero => cases kind <;> cases deep
  | succ depth ih =>
      have mirrors (state : (kind.message parse).State) (number : Nat) :
          Mirrors ((kind.message parse).fieldAt (decodeAt parse depth) state number)
            ((kind.message parse).field state number) := by
        unfold Message.fieldAt
        cases found : (kind.message parse).child state number with
        | none => exact overViews_mirrors _
        | some child =>
            have kinds : kind.nested number = some child.kind := by
              rw [← child_kind parse kind state, found]
              rfl
            rw [field_of_child found]
            refine .bytes fun content => ?_
            rw [ih (Nat.le_of_lt_succ ((MessageKind.height_of_nested kinds).trans_le deep)), throwing_bind]
            rfl
      have all : view.rest 0 = view.bytes := rfl
      rw [decodeAt, readFieldsAt_eq mirrors _ (Nat.zero_le _) (by omega), all, Message.decode, throwing_bind]

theorem decodeAgentMetricsProtobuf_eq (bytes : Bytes) :
    decodeAgentMetricsProtobuf parse bytes =
      if maxAgentPayloadBytes < bytes.length then .error "metrics 数据过大"
      else (MessageKind.body.message parse).decode bytes := rfl

/-- The decoder of a frame ends with a value or with the error that it throws, and reads no byte outside the frame or
outside a message that it is in. -/
theorem decodeAgentMetricsProtobufAt_eq (view : View) :
    decodeAgentMetricsProtobufAt parse view = throwing (decodeAgentMetricsProtobuf parse view.bytes) := by
  rw [decodeAgentMetricsProtobufAt, decodeAgentMetricsProtobuf_eq, length_bytes]
  split_ifs
  · rfl
  · exact decodeAt_eq le_rfl view

end Views

end NieSla.Protobuf
