import NieSla.Protobuf.Json

/-! The wire format: the fields as the Agent writes them, the reader of the Worker, and the rules by
which a message that is read field by field gives the value it was written from. -/
namespace NieSla.Protobuf

abbrev Bytes := List UInt8

section Writer

def varint (value : Nat) : Bytes :=
  if value < 0x80 then [UInt8.ofNat value] else UInt8.ofNat (value % 128 + 128) :: varint (value / 128)
termination_by value
decreasing_by omega

def key (field wireType : Nat) : Bytes := varint (field * 8 + wireType)

def fieldVarint (field value : Nat) : Bytes := key field 0 ++ varint value

/-- The low bytes of a number, the lowest first. -/
def leBytes : Nat → Nat → Bytes
  | 0, _ => []
  | count + 1, value => UInt8.ofNat (value % 256) :: leBytes count (value / 256)

def fieldF64 (field : Nat) (value : F64) : Bytes := key field 1 ++ leBytes 8 value.bits

def fieldBytes (field : Nat) (value : Bytes) : Bytes := key field 2 ++ (varint value.length ++ value)

def fieldMessage (field : Nat) (value : Bytes) : Bytes := fieldBytes field value

def utf8 (text : String) : Bytes := text.toByteArray.data.toList

def fieldString (field : Nat) (value : String) : Bytes := fieldBytes field (utf8 value)

/-- `if let Some(value) = value { field(out, number, value) }` -/
def fieldSome {α : Type} (value : Option α) (write : α → Bytes) : Bytes := value.elim [] write

end Writer

section Reader

/-- The loop of `rawVarint`, from the byte with this index on. -/
def rawVarintFrom (index value : Nat) : Bytes → Except String (Nat × Bytes)
  | [] => .error (if index < 10 then "Agent Protobuf 数据截断" else "Agent Protobuf varint 无效")
  | byte :: rest =>
      if 10 ≤ index then .error "Agent Protobuf varint 无效"
      else
        let value := value ||| (byte.toNat % 128) <<< (7 * index)
        if byte.toNat < 128 then
          if maxSafeInteger < value then .error "Agent Protobuf 数值过大" else .ok (value, rest)
        else rawVarintFrom (index + 1) value rest

def rawVarint (bytes : Bytes) : Except String (Nat × Bytes) := rawVarintFrom 0 0 bytes

/-- `ensure`, and the bytes that it has made sure of. -/
def ensure (length : Nat) (bytes : Bytes) : Except String (Bytes × Bytes) :=
  if bytes.length < length then .error "Agent Protobuf 数据截断"
  else .ok (bytes.take length, bytes.drop length)

def fromLeBytes : Bytes → Nat
  | [] => 0
  | byte :: rest => byte.toNat + 256 * fromLeBytes rest

def fixed64 (bytes : Bytes) : Except String (F64 × Bytes) := do
  let (content, rest) ← ensure 8 bytes
  if finite : finiteBits (fromLeBytes content) then .ok (⟨fromLeBytes content, finite⟩, rest)
  else .error "Agent Protobuf 浮点数无效"

def lengthDelimited (bytes : Bytes) : Except String (Bytes × Bytes) := do
  let (length, rest) ← rawVarint bytes
  ensure length rest

def skip (wire : Nat) (bytes : Bytes) : Except String Bytes :=
  match wire with
  | 0 => do return (← rawVarint bytes).2
  | 1 => do return (← ensure 8 bytes).2
  | 2 => do return (← lengthDelimited bytes).2
  | 5 => do return (← ensure 4 bytes).2
  | _ => .error "Agent Protobuf wire type 无效"

def expectWire (expected wire : Nat) : Except String Unit :=
  if wire = expected then .ok () else .error "Agent Protobuf wire type 不匹配"

def byteOrderMark : Char := Char.ofNat 0xFEFF

/-- `new TextDecoder('utf-8', { fatal: true }).decode(bytes)`, which drops one byte order mark. -/
def textDecode (bytes : Bytes) : Except String String :=
  match String.fromUTF8? ⟨bytes.toArray⟩ with
  | none => .error "The encoded data was not valid for encoding utf-8"
  | some text =>
      .ok (if text.toList.head? = some byteOrderMark then String.ofList text.toList.tail else text)

/-- What a `case` of a decoder does with a field: the kind of value it reads, and the state it goes
on with. -/
inductive Action (σ : Type) where
  | varint (next : Nat → σ)
  | fixed64 (next : F64 → σ)
  | bytes (next : Bytes → Except String σ)
  | skip

def readValue {σ : Type} (action : Action σ) (state : σ) (wire : Nat) (bytes : Bytes) :
    Except String (σ × Bytes) :=
  match action with
  | .varint next => do
      expectWire 0 wire
      let (value, rest) ← rawVarint bytes
      return (next value, rest)
  | .fixed64 next => do
      expectWire 1 wire
      let (value, rest) ← fixed64 bytes
      return (next value, rest)
  | .bytes next => do
      expectWire 2 wire
      let (value, rest) ← lengthDelimited bytes
      return (← next value, rest)
  | .skip => do return (state, ← skip wire bytes)

section Lengths

variable {bytes rest : Bytes}

theorem bind_eq_ok {ε α β : Type} {first : Except ε α} {next : α → Except ε β} {result : β} :
    (first >>= next) = .ok result ↔ ∃ value, first = .ok value ∧ next value = .ok result := by
  cases first with
  | error problem => exact ⟨nofun, nofun⟩
  | ok value =>
      constructor
      · exact fun same => ⟨value, rfl, same⟩
      · rintro ⟨_, found, same⟩
        cases found
        exact same

theorem rawVarintFrom_shortens {index value number : Nat}
    (read : rawVarintFrom index value bytes = .ok (number, rest)) : rest.length < bytes.length := by
  induction bytes generalizing index value with
  | nil => cases read
  | cons byte others ih =>
      unfold rawVarintFrom at read
      split at read
      · cases read
      · simp only at read
        split at read
        · split at read
          · cases read
          · cases read
            exact Nat.lt_succ_self _
        · exact (ih read).trans (Nat.lt_succ_self _)

theorem ensure_shortens {length : Nat} {content : Bytes}
    (read : ensure length bytes = .ok (content, rest)) : rest.length ≤ bytes.length := by
  unfold ensure at read
  split at read
  · cases read
  · cases read
    exact (List.drop_sublist _ _).length_le

theorem lengthDelimited_shortens {content : Bytes}
    (read : lengthDelimited bytes = .ok (content, rest)) : rest.length ≤ bytes.length := by
  obtain ⟨⟨length, after⟩, first, second⟩ := bind_eq_ok.mp read
  exact (ensure_shortens second).trans (rawVarintFrom_shortens first).le

theorem fixed64_shortens {value : F64} (read : fixed64 bytes = .ok (value, rest)) :
    rest.length ≤ bytes.length := by
  obtain ⟨⟨content, after⟩, first, second⟩ := bind_eq_ok.mp read
  simp only at second
  split at second
  · cases second
    exact ensure_shortens first
  · cases second

theorem skip_shortens {wire : Nat} (read : skip wire bytes = .ok rest) :
    rest.length ≤ bytes.length := by
  unfold skip at read
  split at read
  case h_5 => cases read
  all_goals
    obtain ⟨⟨value, after⟩, first, second⟩ := bind_eq_ok.mp read
    cases second
  · exact (rawVarintFrom_shortens first).le
  · exact ensure_shortens first
  · exact lengthDelimited_shortens first
  · exact ensure_shortens first

theorem readValue_shortens {σ : Type} {action : Action σ} {state next : σ} {wire : Nat}
    (read : readValue action state wire bytes = .ok (next, rest)) : rest.length ≤ bytes.length := by
  cases action with
  | varint use =>
      obtain ⟨_, _, value⟩ := bind_eq_ok.mp read
      obtain ⟨⟨number, after⟩, first, second⟩ := bind_eq_ok.mp value
      cases second
      exact (rawVarintFrom_shortens first).le
  | fixed64 use =>
      obtain ⟨_, _, value⟩ := bind_eq_ok.mp read
      obtain ⟨⟨number, after⟩, first, second⟩ := bind_eq_ok.mp value
      cases second
      exact fixed64_shortens first
  | bytes use =>
      obtain ⟨_, _, value⟩ := bind_eq_ok.mp read
      obtain ⟨⟨content, after⟩, first, second⟩ := bind_eq_ok.mp value
      obtain ⟨state, _, last⟩ := bind_eq_ok.mp second
      cases last
      exact lengthDelimited_shortens first
  | skip =>
      obtain ⟨after, first, second⟩ := bind_eq_ok.mp read
      cases second
      exact skip_shortens first

end Lengths

/-- The loop of a decoder over the fields of a message. -/
def readFields {σ : Type} (field : σ → Nat → Action σ) (state : σ) (bytes : Bytes) : Except String σ :=
  if bytes.isEmpty then .ok state
  else match _first : rawVarint bytes with
    | .error problem => .error problem
    | .ok (value, rest) =>
        if value / 8 = 0 then .error "Agent Protobuf 字段无效"
        else match _second : readValue (field state (value / 8)) state (value % 8) rest with
          | .error problem => .error problem
          | .ok (next, left) => readFields field next left
termination_by bytes.length
decreasing_by exact (readValue_shortens _second).trans_lt (rawVarintFrom_shortens _first)

end Reader

section RoundTrip

variable {rest : Bytes}

theorem toNat_ofNat {n : Nat} (small : n < 256) : (UInt8.ofNat n).toNat = n := by
  rw [UInt8.toNat_ofNat']
  exact Nat.mod_eq_of_lt small

/-- Seven more bits above those that are read already. -/
theorem or_shiftLeft {value index low : Nat} (below : value < 2 ^ (7 * index)) :
    value ||| low <<< (7 * index) = value + low * 2 ^ (7 * index) := by
  rw [Nat.or_comm, ← Nat.shiftLeft_add_eq_or_of_lt below, Nat.shiftLeft_eq, Nat.add_comm]

/-- A safe integer ends before its eighth byte. -/
theorem index_lt_nine {value index n : Nat} (more : 128 ≤ n)
    (safe : value + n * 2 ^ (7 * index) ≤ maxSafeInteger) : index < 9 := by
  by_contra large
  have power : 2 ^ 63 ≤ 2 ^ (7 * index) := Nat.pow_le_pow_right (by decide) (by omega)
  have product : 128 * 2 ^ 63 ≤ n * 2 ^ (7 * index) := Nat.mul_le_mul more power
  unfold maxSafeInteger at safe
  omega

theorem rawVarintFrom_varint {index value : Nat} (n : Nat) (reached : index < 10)
    (below : value < 2 ^ (7 * index)) (safe : value + n * 2 ^ (7 * index) ≤ maxSafeInteger) :
    rawVarintFrom index value (varint n ++ rest) = .ok (value + n * 2 ^ (7 * index), rest) := by
  induction n using Nat.strongRecOn generalizing index value with
  | ind n ih =>
      rw [varint]
      split
      case isTrue last =>
        rw [List.singleton_append, rawVarintFrom, if_neg (by omega)]
        simp only [toNat_ofNat (show n < 256 by omega), Nat.mod_eq_of_lt last, or_shiftLeft below]
        rw [if_pos last, if_neg (by omega)]
      case isFalse more =>
        have next := index_lt_nine (by omega) safe
        have power : 2 ^ (7 * (index + 1)) = 128 * 2 ^ (7 * index) := by
          rw [Nat.mul_add, Nat.pow_add, Nat.mul_comm]
        have parts : n % 128 * 2 ^ (7 * index) + n / 128 * (128 * 2 ^ (7 * index)) =
            n * 2 ^ (7 * index) := by
          rw [← Nat.mul_assoc, ← Nat.add_mul]
          congr 1
          omega
        have low : n % 128 * 2 ^ (7 * index) ≤ 127 * 2 ^ (7 * index) :=
          Nat.mul_le_mul_right _ (by omega)
        rw [List.cons_append, rawVarintFrom, if_neg (by omega)]
        simp only [toNat_ofNat (show n % 128 + 128 < 256 by omega)]
        rw [if_neg (by omega), Nat.add_mod_right, Nat.mod_mod, or_shiftLeft below,
          ih (n / 128) (by omega) (by omega) (by omega) (by rw [power]; omega), power,
          Nat.add_assoc, parts]

/-- What `varint` writes is read back, whatever follows it. -/
theorem rawVarint_varint {n : Nat} (safe : n ≤ maxSafeInteger) :
    rawVarint (varint n ++ rest) = .ok (n, rest) := by
  have read : rawVarintFrom 0 0 (varint n ++ rest) = .ok (0 + n * 2 ^ (7 * 0), rest) :=
    rawVarintFrom_varint n (by decide) (by decide) (by simpa using safe)
  simpa [rawVarint] using read

theorem length_leBytes (count value : Nat) : (leBytes count value).length = count := by
  induction count generalizing value with
  | zero => rfl
  | succ count ih => rw [leBytes, List.length_cons, ih]

theorem fromLeBytes_leBytes (count value : Nat) :
    fromLeBytes (leBytes count value) = value % 256 ^ count := by
  induction count generalizing value with
  | zero => rw [Nat.pow_zero, Nat.mod_one]; rfl
  | succ count ih =>
      rw [leBytes, fromLeBytes, ih, toNat_ofNat (Nat.mod_lt _ (by decide)), Nat.pow_succ,
        Nat.mul_comm _ 256, Nat.mod_mul]

theorem ensure_append {content : Bytes} {length : Nat} (all : content.length = length) :
    ensure length (content ++ rest) = .ok (content, rest) := by
  subst all
  rw [ensure, if_neg (by simp), List.take_left, List.drop_left]

theorem fixed64_of_bits {bytes content : Bytes} {value : F64}
    (read : ensure 8 bytes = .ok (content, rest)) (bits : fromLeBytes content = value.bits) :
    fixed64 bytes = .ok (value, rest) := by
  obtain ⟨number, finite⟩ := value
  subst bits
  unfold fixed64
  rw [read]
  exact dif_pos finite

theorem fixed64_leBytes (value : F64) : fixed64 (leBytes 8 value.bits ++ rest) = .ok (value, rest) := by
  apply fixed64_of_bits (ensure_append (length_leBytes 8 value.bits))
  rw [fromLeBytes_leBytes]
  exact Nat.mod_eq_of_lt (value.finite.1.trans_eq (by decide))

theorem lengthDelimited_varint {content : Bytes} (safe : content.length ≤ maxSafeInteger) :
    lengthDelimited (varint content.length ++ (content ++ rest)) = .ok (content, rest) := by
  unfold lengthDelimited
  rw [rawVarint_varint safe]
  exact ensure_append rfl

def Plain (text : String) : Prop := text.toList.head? ≠ some byteOrderMark

instance (text : String) : Decidable (Plain text) := inferInstanceAs (Decidable (_ ≠ _))

theorem textDecode_utf8 {text : String} (plain : Plain text) : textDecode (utf8 text) = .ok text := by
  have read : String.fromUTF8? ⟨(utf8 text).toArray⟩ = some text := by
    unfold utf8
    rw [Array.toArray_toList]
    exact dif_pos text.isValidUTF8
  unfold textDecode
  rw [read]
  show Except.ok (if text.toList.head? = some byteOrderMark then _ else text) = _
  rw [if_neg plain]

end RoundTrip

/-- A message of any length that the reader accepts gives the state `last`. -/
def Decodes {σ : Type} (field : σ → Nat → Action σ) (state : σ) (bytes : Bytes) (last : σ) : Prop :=
  bytes.length ≤ maxSafeInteger → readFields field state bytes = .ok last

section Rules

variable {σ : Type} {field : σ → Nat → Action σ} {state last : σ} {rest : Bytes}
  {number : Nat}

theorem length_varint_pos (n : Nat) : 0 < (varint n).length := by
  unfold varint
  split <;> exact Nat.succ_pos _

/-- A field that is read to its end, and then the rest of the message. -/
theorem readFields_key {wire : Nat} {value : Bytes} {next : σ}
    (numbered : 0 < number ∧ number < 100) (wired : wire < 8)
    (read : readValue (field state number) state wire (value ++ rest) = .ok (next, rest)) :
    readFields field state (key number wire ++ (value ++ rest)) = readFields field next rest := by
  have safe : number * 8 + wire ≤ maxSafeInteger := by
    unfold maxSafeInteger
    omega
  have some_ : (key number wire ++ (value ++ rest)).isEmpty = false := by
    have positive := length_varint_pos (number * 8 + wire)
    cases written : key number wire with
    | nil =>
        unfold key at written
        rw [written] at positive
        cases positive
    | cons byte others => rfl
  have quotient : (number * 8 + wire) / 8 = number := by omega
  have remainder : (number * 8 + wire) % 8 = wire := by omega
  have head : rawVarint (key number wire ++ (value ++ rest)) =
      .ok (number * 8 + wire, value ++ rest) := rawVarint_varint safe
  rw [readFields, some_, if_neg (by decide)]
  split
  case h_1 problem failed => rw [head] at failed; cases failed
  case h_2 value_ rest_ found =>
    rw [head] at found
    cases found
    have inner : readValue (field state ((number * 8 + wire) / 8)) state
        ((number * 8 + wire) % 8) (value ++ rest) = .ok (next, rest) := by
      rw [quotient, remainder]
      exact read
    rw [if_neg (by omega)]
    split
    case h_1 problem failed => rw [inner] at failed; cases failed
    case h_2 next_ left found => rw [inner] at found; cases found; rfl

theorem Decodes.done (equal : state = last) : Decodes field state [] last := by
  intro _
  rw [readFields, equal]
  rfl

theorem Decodes.varint {n : Nat} {use : Nat → σ} (action : field state number = .varint use)
    (numbered : 0 < number ∧ number < 100) (safe : n ≤ maxSafeInteger)
    (others : Decodes field (use n) rest last) :
    Decodes field state (fieldVarint number n ++ rest) last := by
  intro short
  have read : readValue (field state number) state 0 (Protobuf.varint n ++ rest) =
      .ok (use n, rest) := by
    rw [action, readValue, rawVarint_varint safe]
    rfl
  rw [fieldVarint, List.append_assoc, readFields_key numbered (by decide) read]
  rw [List.length_append] at short
  exact others (by omega)

theorem Decodes.f64 {value : F64} {use : F64 → σ} (action : field state number = .fixed64 use)
    (numbered : 0 < number ∧ number < 100) (others : Decodes field (use value) rest last) :
    Decodes field state (fieldF64 number value ++ rest) last := by
  intro short
  have read : readValue (field state number) state 1 (leBytes 8 value.bits ++ rest) =
      .ok (use value, rest) := by
    rw [action, readValue, fixed64_leBytes]
    rfl
  rw [fieldF64, List.append_assoc, readFields_key numbered (by decide) read]
  rw [List.length_append] at short
  exact others (by omega)

theorem Decodes.bytes {content : Bytes} {next : σ} {use : Bytes → Except String σ}
    (action : field state number = .bytes use) (numbered : 0 < number ∧ number < 100)
    (inner : content.length ≤ maxSafeInteger → use content = .ok next)
    (others : Decodes field next rest last) :
    Decodes field state (fieldBytes number content ++ rest) last := by
  intro short
  simp only [fieldBytes, List.length_append] at short
  have read : readValue (field state number) state 2
      ((Protobuf.varint content.length ++ content) ++ rest) = .ok (next, rest) := by
    rw [action, readValue, List.append_assoc, lengthDelimited_varint (by omega)]
    show (do return (← use content, rest)) = _
    rw [inner (by omega)]
    rfl
  rw [fieldBytes, List.append_assoc, readFields_key numbered (by decide) read]
  exact others (by omega)

end Rules

end NieSla.Protobuf
