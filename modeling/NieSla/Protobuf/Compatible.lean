import NieSla.Protobuf.Messages

/-! Fields that a decoder does not know, put between those of a message or of a message in it: a frame that stays
within the limit is decoded as it was, as long as their numbers are safe integers. -/
namespace NieSla.Protobuf

/-- The bytes of a number in groups of seven bits, the lowest first; each but the last says that one more follows. -/
inductive Groups : Nat → Bytes → Prop where
  | last {byte : UInt8} (ends : byte.toNat < 128) : Groups byte.toNat [byte]
  | more {byte : UInt8} {value : Nat} {rest : Bytes} (continues : 128 ≤ byte.toNat) (others : Groups value rest) :
      Groups (byte.toNat % 128 + 128 * value) (byte :: rest)

/-- A number of 64 bits as the wire format writes it, in its shortest form or in a longer one. -/
structure Varint (value : Nat) (bytes : Bytes) : Prop where
  groups : Groups value bytes
  short : bytes.length ≤ 10
  fits : value < 2 ^ 64

/-- What stands behind a key of a wire type, where a varint is a number below `bound`. -/
inductive WireValue (bound : Nat) : Nat → Bytes → Prop where
  | varint {value : Nat} {bytes : Bytes} (written : Varint value bytes) (below : value < bound) : WireValue bound 0 bytes
  | fixed64 {bytes : Bytes} (all : bytes.length = 8) : WireValue bound 1 bytes
  | bytes {header content : Bytes} (written : Varint content.length header) : WireValue bound 2 (header ++ content)
  | fixed32 {bytes : Bytes} (all : bytes.length = 4) : WireValue bound 5 bytes

inductive WireField (bound number : Nat) : Bytes → Prop where
  | mk {wire : Nat} {key payload : Bytes} (written : Varint (number * 8 + wire) key)
      (carried : WireValue bound wire payload) : WireField bound number (key ++ payload)

/-- Whole fields, one behind the other. -/
inductive Fields : Bytes → Prop where
  | nil : Fields []
  | cons {number : Nat} {field rest : Bytes} (first : WireField (2 ^ 64) number field) (others : Fields rest) :
      Fields (field ++ rest)

/-- A message with an unknown field between two of its fields, or between two of a message that it has as a field. -/
inductive Inserted (bound : Nat) : MessageKind → Bytes → Bytes → Prop where
  | here {kind : MessageKind} {number : Nat} {before field : Bytes} (boundary : Fields before)
      (unknown : kind.known < number) (numbered : number < 2 ^ 29) (wellFormed : WireField bound number field)
      (after : Bytes) : Inserted bound kind (before ++ after) (before ++ (field ++ after))
  | inside {kind inner : MessageKind} {number : Nat} {before key header header' content content' : Bytes}
      (boundary : Fields before) (nested : kind.nested number = some inner) (keyed : Varint (number * 8 + 2) key)
      (counted : Varint content.length header) (recounted : Varint content'.length header')
      (deeper : Inserted bound inner content content') (after : Bytes) :
      Inserted bound kind (before ++ (key ++ (header ++ content) ++ after))
        (before ++ (key ++ (header' ++ content') ++ after))

section Reads

variable {bound number value : Nat} {bytes : Bytes}

theorem rawVarintFrom_groups {index low : Nat} (written : Groups value bytes) (short : index + bytes.length ≤ 10)
    (below : low < 2 ^ (7 * index)) (rest : Bytes) :
    rawVarintFrom index low (bytes ++ rest) =
      if maxSafeInteger < low + value * 2 ^ (7 * index) then .error "Agent Protobuf 数值过大"
      else .ok (low + value * 2 ^ (7 * index), rest) := by
  induction written generalizing index low with
  | @last byte ends =>
      rw [List.singleton_append, rawVarintFrom, if_neg (by simp at short; omega)]
      simp only [or_shiftLeft below, Nat.mod_eq_of_lt ends]
      rw [if_pos ends]
  | @more byte value others continues written ih =>
      rw [List.length_cons] at short
      have power : 2 ^ (7 * (index + 1)) = 128 * 2 ^ (7 * index) := by
        rw [Nat.mul_add, Nat.pow_add, Nat.mul_comm]
      have low_ : byte.toNat % 128 * 2 ^ (7 * index) ≤ 127 * 2 ^ (7 * index) := Nat.mul_le_mul_right _ (by omega)
      have parts : low + byte.toNat % 128 * 2 ^ (7 * index) + value * (128 * 2 ^ (7 * index)) =
          low + (byte.toNat % 128 + 128 * value) * 2 ^ (7 * index) := by ring
      rw [List.cons_append, rawVarintFrom, if_neg (by omega)]
      simp only [or_shiftLeft below]
      rw [if_neg (by omega), ih (by omega) (by rw [power]; omega), power, parts]

theorem rawVarint_of_varint (written : Varint value bytes) (rest : Bytes) :
    rawVarint (bytes ++ rest) =
      if maxSafeInteger < value then .error "Agent Protobuf 数值过大" else .ok (value, rest) := by
  have read : rawVarintFrom 0 0 (bytes ++ rest) = _ :=
    rawVarintFrom_groups written.groups (by simpa using written.short) (by decide) rest
  simpa [rawVarint] using read

/-- The read takes these bytes and no other, whatever stands behind them. -/
def Takes {α : Type} (read : Bytes → Except String (α × Bytes)) (bytes : Bytes) : Prop :=
  ∃ result : Except String α, ∀ rest, read (bytes ++ rest) = result >>= fun value => .ok (value, rest)

theorem takes_rawVarint (written : Varint value bytes) : Takes rawVarint bytes := by
  refine ⟨if maxSafeInteger < value then .error "Agent Protobuf 数值过大" else .ok value, fun rest => ?_⟩
  rw [rawVarint_of_varint written]
  split_ifs <;> rfl

theorem takes_fixed64 (all : bytes.length = 8) : Takes fixed64 bytes := by
  refine ⟨if finite : finiteBits (fromLeBytes bytes) then .ok ⟨fromLeBytes bytes, finite⟩
    else .error "Agent Protobuf 浮点数无效", fun rest => ?_⟩
  rw [fixed64, ensure_append all]
  simp only [bind, Except.bind]
  split_ifs <;> rfl

theorem takes_lengthDelimited {header content : Bytes} (written : Varint content.length header) :
    Takes lengthDelimited (header ++ content) := by
  refine ⟨if maxSafeInteger < content.length then .error "Agent Protobuf 数值过大" else .ok content, fun rest => ?_⟩
  rw [lengthDelimited, List.append_assoc, rawVarint_of_varint written]
  split_ifs
  · rfl
  · exact ensure_append rfl

section Values

variable {σ : Type}

theorem Takes.readValue_skip {α : Type} {wire : Nat} {read : Bytes → Except String (α × Bytes)}
    (takes : Takes read bytes) (skips : ∀ bytes, skip wire bytes = do return (← read bytes).2) (state : σ) :
    Takes (readValue .skip state wire) bytes := by
  obtain ⟨result, reads⟩ := takes
  refine ⟨result >>= fun _ => .ok state, fun rest => ?_⟩
  rw [readValue, skips, reads]
  cases result <;> rfl

/-- What stands behind a key is read to its end, or not at all. -/
theorem takes_readValue {wire : Nat} (carried : WireValue bound wire bytes) (action : Action σ) (state : σ) :
    Takes (readValue action state wire) bytes := by
  cases carried with
  | varint written below =>
      cases action with
      | varint next =>
          obtain ⟨result, reads⟩ := takes_rawVarint written
          refine ⟨result >>= fun value => .ok (next value), fun rest => ?_⟩
          show rawVarint (bytes ++ rest) >>= _ = _
          rw [reads]
          cases result <;> rfl
      | skip => exact (takes_rawVarint written).readValue_skip (fun _ => rfl) state
      | _ => exact ⟨.error _, fun _ => rfl⟩
  | fixed64 all =>
      cases action with
      | fixed64 next =>
          obtain ⟨result, reads⟩ := takes_fixed64 all
          refine ⟨result >>= fun value => .ok (next value), fun rest => ?_⟩
          show fixed64 (bytes ++ rest) >>= _ = _
          rw [reads]
          cases result <;> rfl
      | skip => exact Takes.readValue_skip ⟨.ok bytes, fun _ => ensure_append all⟩ (fun _ => rfl) state
      | _ => exact ⟨.error _, fun _ => rfl⟩
  | @bytes header content written =>
      cases action with
      | bytes next =>
          obtain ⟨result, reads⟩ := takes_lengthDelimited written
          refine ⟨result >>= next, fun rest => ?_⟩
          show lengthDelimited ((header ++ content) ++ rest) >>= _ = _
          rw [reads]
          cases result <;> rfl
      | skip => exact (takes_lengthDelimited written).readValue_skip (fun _ => rfl) state
      | _ => exact ⟨.error _, fun _ => rfl⟩
  | fixed32 all =>
      cases action with
      | skip => exact Takes.readValue_skip ⟨.ok bytes, fun _ => ensure_append all⟩ (fun _ => rfl) state
      | _ => exact ⟨.error _, fun _ => rfl⟩

theorem Groups.cons_of {value : Nat} (written : Groups value bytes) : ∃ byte rest, bytes = byte :: rest := by
  cases written with
  | last ends => exact ⟨_, _, rfl⟩
  | more continues others => exact ⟨_, _, rfl⟩

/-- A key that the reader refuses, or one behind which it reads a value. -/
theorem readFields_varint (field : σ → Nat → Action σ) (state : σ) (written : Varint value bytes) (rest : Bytes) :
    readFields field state (bytes ++ rest) =
      if maxSafeInteger < value then .error "Agent Protobuf 数值过大"
      else if value / 8 = 0 then .error "Agent Protobuf 字段无效"
      else readValue (field state (value / 8)) state (value % 8) rest >>= fun next => readFields field next.1 next.2 := by
  obtain ⟨byte, others, rfl⟩ := written.groups.cons_of
  rw [readFields_eq, rawVarint_of_varint written, if_neg (by simp)]
  by_cases large : maxSafeInteger < value
  · rw [if_pos large, if_pos large]
    rfl
  · rw [if_neg large, if_neg large]
    rfl

theorem WireValue.wire_lt {wire : Nat} (carried : WireValue bound wire bytes) : wire < 8 := by
  cases carried <;> decide

/-- The loop takes a field as a whole. -/
theorem WireField.splits (wellFormed : WireField bound number bytes) (field : σ → Nat → Action σ) (state : σ) :
    ∃ result : Except String σ, ∀ rest,
      readFields field state (bytes ++ rest) = result >>= fun next => readFields field next rest := by
  obtain ⟨written, carried⟩ := wellFormed
  rename_i wire key payload
  have small := carried.wire_lt
  have quotient : (number * 8 + wire) / 8 = number := by omega
  have remainder : (number * 8 + wire) % 8 = wire := by omega
  obtain ⟨result, reads⟩ := takes_readValue carried (field state number) state
  refine ⟨if maxSafeInteger < number * 8 + wire then .error "Agent Protobuf 数值过大"
    else if number = 0 then .error "Agent Protobuf 字段无效" else result, fun rest => ?_⟩
  rw [List.append_assoc, readFields_varint field state written, quotient, remainder, reads]
  split_ifs
  · rfl
  · rfl
  · cases result <;> rfl

theorem Fields.splits (fields : Fields bytes) (field : σ → Nat → Action σ) (state : σ) :
    ∃ result : Except String σ, ∀ rest,
      readFields field state (bytes ++ rest) = result >>= fun next => readFields field next rest := by
  induction fields generalizing state with
  | nil => exact ⟨.ok state, fun _ => rfl⟩
  | cons first others ih =>
      obtain ⟨result, reads⟩ := first.splits field state
      choose later laters using fun state => ih state
      refine ⟨result >>= later, fun rest => ?_⟩
      rw [List.append_assoc, reads]
      cases result with
      | error message => rfl
      | ok next => exact laters next rest

theorem WireValue.skipped {wire : Nat} (carried : WireValue (maxSafeInteger + 1) wire bytes)
    (short : bytes.length ≤ maxSafeInteger) (state : σ) (rest : Bytes) :
    readValue .skip state wire (bytes ++ rest) = .ok (state, rest) := by
  cases carried with
  | varint written below => rw [readValue, skip, rawVarint_of_varint written, if_neg (by omega)]; rfl
  | fixed64 all => rw [readValue, skip, ensure_append all]; rfl
  | bytes written =>
      rw [List.length_append] at short
      rw [readValue, skip, lengthDelimited, List.append_assoc, rawVarint_of_varint written, if_neg (by omega)]
      show (do return (state, ← (do return (← ensure _ (_ ++ rest)).2))) = _
      rw [ensure_append rfl]
      rfl
  | fixed32 all => rw [readValue, skip, ensure_append all]; rfl

/-- A field that is skipped leaves the state as it is. -/
theorem WireField.skipped (wellFormed : WireField (maxSafeInteger + 1) number bytes) (numbered : number < 2 ^ 29)
    (positive : 0 < number) (short : bytes.length ≤ maxSafeInteger) {field : σ → Nat → Action σ} {state : σ}
    (skips : field state number = .skip) (rest : Bytes) :
    readFields field state (bytes ++ rest) = readFields field state rest := by
  obtain ⟨written, carried⟩ := wellFormed
  rename_i wire key payload
  have small := carried.wire_lt
  have quotient : (number * 8 + wire) / 8 = number := by omega
  have remainder : (number * 8 + wire) % 8 = wire := by omega
  have safe : ¬ maxSafeInteger < number * 8 + wire := by
    unfold maxSafeInteger
    omega
  rw [List.length_append] at short
  rw [List.append_assoc, readFields_varint field state written, if_neg safe, quotient, remainder, if_neg (by omega),
    skips, carried.skipped (by omega)]
  rfl

/-- A message that is a field is read by its decoder, however its length is written. -/
theorem readFields_message {use : Bytes → Except String σ} {key header content : Bytes}
    (keyed : Varint (number * 8 + 2) key) (numbered : 0 < number ∧ number < 2 ^ 29)
    (counted : Varint content.length header) (short : content.length ≤ maxSafeInteger)
    {field : σ → Nat → Action σ} {state : σ} (reads : field state number = .bytes use) (rest : Bytes) :
    readFields field state (key ++ (header ++ content) ++ rest) =
      use content >>= fun next => readFields field next rest := by
  have quotient : (number * 8 + 2) / 8 = number := by omega
  have remainder : (number * 8 + 2) % 8 = 2 := by omega
  have safe : ¬ maxSafeInteger < number * 8 + 2 := by
    unfold maxSafeInteger
    omega
  have read : lengthDelimited ((header ++ content) ++ rest) = .ok (content, rest) := by
    rw [lengthDelimited, List.append_assoc, rawVarint_of_varint counted, if_neg (by omega)]
    exact ensure_append rfl
  rw [List.append_assoc, readFields_varint field state keyed, if_neg safe, quotient, remainder, if_neg (by omega),
    reads]
  show (lengthDelimited ((header ++ content) ++ rest) >>= _) >>= _ = _
  rw [read]
  show (use content >>= fun next => .ok (next, rest)) >>= _ = _
  cases use content <;> rfl

end Values

end Reads

theorem MessageKind.nested_numbered {kind inner : MessageKind} {number : Nat} (found : kind.nested number = some inner) :
    0 < number ∧ number < 2 ^ 29 := by
  unfold nested at found
  split at found
  case h_13 =>
      obtain ⟨inside, -⟩ := Option.ite_none_right_eq_some.mp found
      omega
  all_goals
    cases found
    try decide

variable (parse : Bytes → Option Json)

/-- A field that is a message, as an action of its decoder. -/
theorem field_of_nested {kind inner : MessageKind} {number : Nat} (found : kind.nested number = some inner)
    (state : (kind.message parse).State) : ∃ attach : Object → (kind.message parse).State,
      (kind.message parse).field state number =
        .bytes fun content => do return attach (← (inner.message parse).decode content) := by
  rw [← child_kind parse kind state] at found
  obtain ⟨child, opened, rfl⟩ := Option.map_eq_some_iff.mp found
  exact ⟨child.attach, field_of_child opened⟩

variable {parse}

/-- What is decoded does not change with unknown fields. -/
theorem decode_inserted {kind : MessageKind} {message extended : Bytes}
    (inserted : Inserted (maxSafeInteger + 1) kind message extended) (short : message.length ≤ maxSafeInteger)
    (short' : extended.length ≤ maxSafeInteger) :
    (kind.message parse).decode extended = (kind.message parse).decode message := by
  induction inserted with
  | @here kind number before field boundary unknown numbered wellFormed after =>
      obtain ⟨result, reads⟩ := boundary.splits (kind.message parse).field (kind.message parse).initial
      simp only [List.length_append] at short short'
      rw [Message.decode, Message.decode, reads, reads]
      congr 1
      cases result with
      | error problem => rfl
      | ok next => exact wellFormed.skipped numbered (by omega) (by omega) (skips_unknown unknown next) after
  | @inside kind inner number before key header header' content content' boundary nested keyed counted recounted deeper
      after ih =>
      obtain ⟨result, reads⟩ := boundary.splits (kind.message parse).field (kind.message parse).initial
      simp only [List.length_append] at short short'
      rw [Message.decode, Message.decode, reads, reads]
      congr 1
      cases result with
      | error problem => rfl
      | ok next =>
          obtain ⟨attach, opens⟩ := field_of_nested parse nested next
          have numbered := MessageKind.nested_numbered nested
          show readFields (kind.message parse).field next _ = readFields (kind.message parse).field next _
          rw [readFields_message keyed numbered recounted (by omega) opens,
            readFields_message keyed numbered counted (by omega) opens, ih (by omega) (by omega)]

/-- An unknown field that a frame takes within its limit, with a safe integer where its value is a varint, does not
change what the frame decodes to; and no decoder reads a byte outside its message. -/
theorem frames_are_compatible (parse : Bytes → Option Json) :
    (∀ view, decodeAgentMetricsProtobufAt parse view = throwing (decodeAgentMetricsProtobuf parse view.bytes)) ∧
    ∀ message extended value, decodeAgentMetricsProtobuf parse message = .ok value →
      Inserted (maxSafeInteger + 1) .body message extended → extended.length ≤ maxAgentPayloadBytes →
      decodeAgentMetricsProtobuf parse extended = .ok value := by
  refine ⟨decodeAgentMetricsProtobufAt_eq, fun message extended value accepted inserted short => ?_⟩
  rw [decodeAgentMetricsProtobuf_eq] at accepted ⊢
  split_ifs at accepted with long
  have safe : maxAgentPayloadBytes ≤ maxSafeInteger := by decide
  rw [if_neg (by omega), ← accepted]
  exact decode_inserted inserted (by omega) (by omega)

/-- The number of a protocol version, and an empty `metrics` message. -/
def smallFrame : Bytes := [8, 1, 50, 0]

/-- A field with the number seven and the varint 2⁵³. -/
def largeVarint : Bytes := [56, 128, 128, 128, 128, 128, 128, 128, 16]

/-- A byte that is the whole of a varint. -/
theorem varint_byte {value : Nat} {byte : UInt8} (same : byte.toNat = value) (ends : value < 128) :
    Varint value [byte] := by
  subst same
  exact ⟨.last ends, Nat.le_of_ble_eq_true rfl, by omega⟩

theorem decode_smallFrame (parse : Bytes → Option Json) :
    ∃ value, decodeAgentMetricsProtobuf parse smallFrame = .ok value := by
  have metrics : ∃ value, decodeMetrics [] = .ok value := ⟨_, by unfold decodeMetrics; rw [readFields_eq]; rfl⟩
  obtain ⟨value, read⟩ := metrics
  have version : readFields (bodyField parse) { body := bodyDefault } smallFrame =
      readFields (bodyField parse) { body := bodyDefault, version := 1 } [50, 0] := by
    rw [readFields_eq]
    rfl
  have message : readFields (bodyField parse) { body := bodyDefault, version := 1 } [50, 0] =
      .ok { body := bodyDefault.set "metrics" (.obj value), version := 1 } := by
    have key : Varint (6 * 8 + 2) [50] := varint_byte rfl (by decide)
    have counted : Varint ([] : Bytes).length [0] := varint_byte rfl (by decide)
    refine (readFields_message key (by decide) counted (by decide) (map_bytes _ _ decodeMetrics) []).trans ?_
    rw [read]
    show readFields _ _ [] = _
    rw [readFields_eq]
    rfl
  refine ⟨bodyDefault.set "metrics" (.obj value), ?_⟩
  rw [decodeAgentMetricsProtobuf_eq, if_neg (by decide)]
  show readFields (bodyField parse) { body := bodyDefault } smallFrame >>= BodyState.finish = _
  rw [version, message]
  rfl

/-- The number 16 is unknown to a `metrics` message. -/
theorem smallFrame_extended : ∃ value, decodeAgentMetricsProtobuf (fun _ => none) smallFrame = .ok value ∧
    decodeAgentMetricsProtobuf (fun _ => none) [8, 1, 50, 3, 128, 1, 5] = .ok value := by
  obtain ⟨value, accepted⟩ := decode_smallFrame fun _ => none
  have one : Varint 1 [1] := varint_byte rfl (by decide)
  have groups : Groups (16 * 8 + 0) [128, 1] := @Groups.more 128 1 [1] (by decide) one.groups
  have five : Varint 5 [5] := varint_byte rfl (by decide)
  have unknown : WireField (maxSafeInteger + 1) 16 [128, 1, 5] :=
    .mk ⟨groups, by decide, by decide⟩ (.varint five (by decide))
  have number : Varint (1 * 8 + 0) [8] := varint_byte rfl (by decide)
  have version : Fields [8, 1] := .cons (.mk number (.varint one (by decide))) .nil
  have deeper : Inserted (maxSafeInteger + 1) .metrics [] [128, 1, 5] := .here .nil (by decide) (by decide) unknown []
  have key : Varint (6 * 8 + 2) [50] := varint_byte rfl (by decide)
  have counted : Varint ([] : Bytes).length [0] := varint_byte rfl (by decide)
  have recounted : Varint ([128, 1, 5] : Bytes).length [3] := varint_byte rfl (by decide)
  have inserted : Inserted (maxSafeInteger + 1) .body smallFrame [8, 1, 50, 3, 128, 1, 5] :=
    .inside version rfl key counted recounted deeper []
  exact ⟨value, accepted, (frames_are_compatible fun _ => none).2 _ _ _ accepted inserted (by decide)⟩

theorem largeVarint_field : WireField (2 ^ 64) 7 largeVarint := by
  have key : Varint (7 * 8 + 0) [56] := varint_byte rfl (by decide)
  have groups : Groups (2 ^ 53) [128, 128, 128, 128, 128, 128, 128, 16] := by
    have last : Groups 16 [16] := @Groups.last 16 (by decide)
    have more {value : Nat} {rest : Bytes} (others : Groups value rest) : Groups (128 * value) (128 :: rest) := by
      have next := @Groups.more 128 value rest (by decide) others
      rwa [show (128 : UInt8).toNat % 128 = 0 from rfl, Nat.zero_add] at next
    exact more (more (more (more (more (more (more last))))))
  exact .mk key (.varint ⟨groups, by decide, by decide⟩ (by decide))

/-- An unknown field ends the decoding when its varint is 2⁵³, or when the frame with it has more than a million
bytes. -/
theorem unknown_field_refused : ∃ message value, decodeAgentMetricsProtobuf (fun _ => none) message = .ok value ∧
    (∃ extended, Inserted (2 ^ 64) .body message extended ∧ extended.length ≤ maxAgentPayloadBytes ∧
      decodeAgentMetricsProtobuf (fun _ => none) extended = .error "Agent Protobuf 数值过大") ∧
    ∃ extended, Inserted (maxSafeInteger + 1) .body message extended ∧
      decodeAgentMetricsProtobuf (fun _ => none) extended = .error "metrics 数据过大" := by
  obtain ⟨value, accepted⟩ := decode_smallFrame fun _ => none
  refine ⟨smallFrame, value, accepted, ⟨largeVarint ++ smallFrame, ?_, by decide, ?_⟩, ?_⟩
  · exact .here .nil (by decide) (by decide) largeVarint_field smallFrame
  · rw [decodeAgentMetricsProtobuf_eq, if_neg (by decide), Message.decode]
    have refused : readFields (bodyField fun _ => none) { body := bodyDefault } (largeVarint ++ smallFrame) =
        .error "Agent Protobuf 数值过大" := by
      rw [readFields_eq]
      rfl
    show readFields (bodyField fun _ => none) { body := bodyDefault } _ >>= BodyState.finish = _
    rw [refused]
    rfl
  · have key : Varint (7 * 8 + 2) [58] := varint_byte rfl (by decide)
    have content : (List.replicate 1000000 (0 : UInt8)).length = 1000000 := List.length_replicate
    have groups : Groups 1000000 [192, 132, 61] :=
      @Groups.more 192 7812 _ (by decide) (@Groups.more 132 61 _ (by decide) (@Groups.last 61 (by decide)))
    have header : Varint 1000000 [192, 132, 61] := ⟨groups, by decide, by decide⟩
    rw [← content] at header
    refine ⟨([58] ++ ([192, 132, 61] ++ List.replicate 1000000 0)) ++ smallFrame, ?_, ?_⟩
    · exact .here .nil (by decide) (by decide) (.mk key (.bytes header)) smallFrame
    · rw [decodeAgentMetricsProtobuf_eq, if_pos]
      simp only [List.length_append, content]
      decide

end NieSla.Protobuf
