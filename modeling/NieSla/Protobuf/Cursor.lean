import NieSla.Protobuf.Decoder

/-! The reader as it is run: an offset into a view of the bytes of a frame. A byte that is not of the view is never
read, and the run ends in what the reader of the remaining bytes gives. -/
namespace NieSla.Protobuf

/-- What ends a run: a byte is read that the view does not have, the loop does not end, or an error is thrown. -/
inductive Fault where
  | outside
  | endless
  | thrown (message : String)
deriving DecidableEq

/-- `new Uint8Array(buffer, byteOffset, length)` -/
structure View where
  buffer : Bytes
  byteOffset : Nat
  length : Nat
  within : byteOffset + length ≤ buffer.length

namespace View

def bytes (view : View) : Bytes := (view.buffer.drop view.byteOffset).take view.length

/-- `data[offset]` -/
def byteAt (view : View) (offset : Nat) : Except Fault UInt8 :=
  if view.length ≤ offset then .error .outside
  else match view.buffer[view.byteOffset + offset]? with
    | some byte => .ok byte
    | none => .error .outside

/-- `data.subarray(offset, offset + length)` -/
def subarray (view : View) (offset length : Nat) : Except Fault View :=
  if inside : offset + length ≤ view.length then
    .ok ⟨view.buffer, view.byteOffset + offset, length, by have := view.within; omega⟩
  else .error .outside

/-- The bytes of `new DataView(data.buffer, data.byteOffset + offset, 8)`. -/
def dataView (view : View) (offset : Nat) : Except Fault Bytes := do
  return (← view.subarray offset 8).bytes

end View

/-- What a `case` of a decoder does with a field, where `bytes()` gives it a view. -/
inductive ActionAt (σ : Type) where
  | varint (next : Nat → σ)
  | fixed64 (next : F64 → σ)
  | bytes (next : View → Except Fault σ)
  | skip

section Reader

variable (view : View)

/-- `rawVarint` from the byte with this index on. -/
def rawVarintAt : Nat → Nat → Nat → Nat → Except Fault (Nat × Nat)
  | 0, _, _, _ => .error (.thrown "Agent Protobuf varint 无效")
  | more + 1, index, value, offset =>
      if view.length ≤ offset then .error (.thrown "Agent Protobuf 数据截断")
      else do
        let byte ← view.byteAt offset
        let value := value ||| (byte.toNat % 128) <<< (7 * index)
        if byte.toNat < 128 then
          if maxSafeInteger < value then .error (.thrown "Agent Protobuf 数值过大") else .ok (value, offset + 1)
        else rawVarintAt more (index + 1) value (offset + 1)

def ensureAt (offset length : Nat) : Except Fault Unit :=
  if maxSafeInteger < length ∨ view.length < offset + length then .error (.thrown "Agent Protobuf 数据截断")
  else .ok ()

def fixed64At (offset : Nat) : Except Fault (F64 × Nat) := do
  ensureAt view offset 8
  let content ← view.dataView offset
  if finite : finiteBits (fromLeBytes content) then .ok (⟨fromLeBytes content, finite⟩, offset + 8)
  else .error (.thrown "Agent Protobuf 浮点数无效")

/-- `bytes()`, after `expectWire` -/
def bytesAt (offset : Nat) : Except Fault (View × Nat) := do
  let (length, offset) ← rawVarintAt view 10 0 0 offset
  ensureAt view offset length
  return (← view.subarray offset length, offset + length)

def skipAt (wire offset : Nat) : Except Fault Nat :=
  match wire with
  | 0 => do return (← rawVarintAt view 10 0 0 offset).2
  | 1 => do
      ensureAt view offset 8
      return offset + 8
  | 2 => do
      let (length, offset) ← rawVarintAt view 10 0 0 offset
      ensureAt view offset length
      return offset + length
  | 5 => do
      ensureAt view offset 4
      return offset + 4
  | _ => .error (.thrown "Agent Protobuf wire type 无效")

/-- An error of a step that reads no byte of the view. -/
def throwing {α : Type} : Except String α → Except Fault α
  | .ok value => .ok value
  | .error message => .error (.thrown message)

def readValueAt {σ : Type} (action : ActionAt σ) (state : σ) (wire offset : Nat) : Except Fault (σ × Nat) :=
  match action with
  | .varint next => do
      throwing (expectWire 0 wire)
      let (value, offset) ← rawVarintAt view 10 0 0 offset
      return (next value, offset)
  | .fixed64 next => do
      throwing (expectWire 1 wire)
      let (value, offset) ← fixed64At view offset
      return (next value, offset)
  | .bytes next => do
      throwing (expectWire 2 wire)
      let (content, offset) ← bytesAt view offset
      return (← next content, offset)
  | .skip => do return (state, ← skipAt view wire offset)

/-- The loop of a decoder; it gives up after `fuel` fields. -/
def readFieldsAt {σ : Type} (field : σ → Nat → ActionAt σ) : Nat → σ → Nat → Except Fault σ
  | 0, _, _ => .error .endless
  | fuel + 1, state, offset =>
      if view.length ≤ offset then .ok state
      else do
        let (value, offset) ← rawVarintAt view 10 0 0 offset
        if value / 8 = 0 then .error (.thrown "Agent Protobuf 字段无效")
        else
          let (next, offset) ← readValueAt view (field state (value / 8)) state (value % 8) offset
          readFieldsAt field fuel next offset

end Reader

/-! The bytes that remain behind an offset. -/

def View.rest (view : View) (offset : Nat) : Bytes := view.bytes.drop offset

/-- A read of the view and one of the remaining bytes: the same value, and the offset behind which the bytes remain
that are left. -/
inductive Agrees (view : View) {α β : Type} (same : α → β → Prop) :
    Except Fault (α × Nat) → Except String (β × Bytes) → Prop where
  | ok {value : α} {other : β} {offset : Nat} (equal : same value other) (inside : offset ≤ view.length) :
      Agrees view same (.ok (value, offset)) (.ok (other, view.rest offset))
  | error (message : String) : Agrees view same (.error (.thrown message)) (.error message)

section Refinement

variable {view : View} {offset : Nat}

theorem length_bytes (view : View) : view.bytes.length = view.length := by
  have within := view.within
  simp [View.bytes]
  omega

theorem length_rest : (view.rest offset).length = view.length - offset := by
  rw [View.rest, List.length_drop, length_bytes]

theorem rest_eq_cons (inside : offset < view.length) :
    ∃ byte, view.byteAt offset = .ok byte ∧ view.rest offset = byte :: view.rest (offset + 1) := by
  have bound : offset < view.bytes.length := by rwa [length_bytes]
  have within := view.within
  refine ⟨view.bytes[offset], ?_, List.drop_eq_getElem_cons bound⟩
  have found : view.buffer[view.byteOffset + offset]? = some view.bytes[offset] := by
    rw [List.getElem?_eq_getElem (by omega)]
    simp [View.bytes]
  rw [View.byteAt, if_neg (by omega), found]

theorem subarray_spec {length : Nat} (inside : offset + length ≤ view.length) :
    ∃ sub, view.subarray offset length = .ok sub ∧ sub.bytes = (view.rest offset).take length := by
  refine ⟨_, dif_pos inside, ?_⟩
  rw [View.bytes, View.rest, View.bytes, List.drop_take, List.take_take, List.drop_drop, min_eq_left (by omega)]

theorem rest_drop (length : Nat) : (view.rest offset).drop length = view.rest (offset + length) := by
  rw [View.rest, View.rest, List.drop_drop]

theorem rawVarintAt_agrees {more index value : Nat} (count : more + index = 10) (inside : offset ≤ view.length) :
    Agrees view Eq (rawVarintAt view more index value offset) (rawVarintFrom index value (view.rest offset)) := by
  induction more generalizing index value offset with
  | zero =>
      have last : index = 10 := by omega
      subst last
      cases remaining : view.rest offset with
      | nil => exact .error _
      | cons byte rest => exact .error _
  | succ more ih =>
      by_cases past : view.length ≤ offset
      · have none_ : view.rest offset = [] := List.length_eq_zero_iff.mp (by rw [length_rest]; omega)
        rw [rawVarintAt, if_pos past, none_, rawVarintFrom, if_pos (by omega)]
        exact .error _
      · obtain ⟨byte, read, remaining⟩ := rest_eq_cons (Nat.lt_of_not_le past)
        rw [rawVarintAt, if_neg past, read, remaining, rawVarintFrom, if_neg (by omega)]
        simp only [bind, Except.bind]
        split_ifs
        · exact .error _
        · exact .ok rfl (by omega)
        · exact ih (by omega) (by omega)

theorem safe_of_rawVarintFrom {index value number : Nat} {bytes rest : Bytes}
    (read : rawVarintFrom index value bytes = .ok (number, rest)) : number ≤ maxSafeInteger := by
  induction bytes generalizing index value with
  | nil => cases read
  | cons byte others ih =>
      unfold rawVarintFrom at read
      split at read
      · cases read
      · simp only at read
        split at read
        · split at read
          · cases read
          · rename_i fits
            cases read
            exact not_lt.mp fits
        · exact ih read

/-- `ensure` lets the same reads pass. -/
theorem ensureAt_spec {length : Nat} (safe : length ≤ maxSafeInteger) (inside : offset ≤ view.length) :
    (ensureAt view offset length = .ok () ∧ offset + length ≤ view.length ∧
      ensure length (view.rest offset) = .ok ((view.rest offset).take length, view.rest (offset + length))) ∨
    (ensureAt view offset length = .error (.thrown "Agent Protobuf 数据截断") ∧
      ensure length (view.rest offset) = .error "Agent Protobuf 数据截断") := by
  unfold ensureAt ensure
  rw [length_rest, rest_drop]
  by_cases room : offset + length ≤ view.length
  · exact .inl ⟨if_neg (by omega), room, if_neg (by omega)⟩
  · exact .inr ⟨if_pos (by omega), if_pos (by omega)⟩

/-- Reads that agree go on with steps that agree. -/
theorem Agrees.bind {α β γ δ : Type} {same : α → β → Prop} {also : γ → δ → Prop}
    {first : Except Fault (α × Nat)} {second : Except String (β × Bytes)}
    {next : α × Nat → Except Fault (γ × Nat)} {then_ : β × Bytes → Except String (δ × Bytes)}
    (agree : Agrees view same first second)
    (step : ∀ value other offset, same value other → offset ≤ view.length →
      Agrees view also (next (value, offset)) (then_ (other, view.rest offset))) :
    Agrees view also (first >>= next) (second >>= then_) := by
  cases agree with
  | ok equal inside => exact step _ _ _ equal inside
  | error message => exact .error message

theorem fixed64At_agrees (inside : offset ≤ view.length) :
    Agrees view Eq (fixed64At view offset) (fixed64 (view.rest offset)) := by
  unfold fixed64At fixed64
  have safe : 8 ≤ maxSafeInteger := by decide
  rcases ensureAt_spec safe inside with ⟨passed, room, read⟩ | ⟨thrown, failed⟩
  · obtain ⟨sub, taken, content⟩ := subarray_spec room
    rw [passed, read, View.dataView, taken]
    simp only [bind, Except.bind, pure, Except.pure, content]
    split_ifs
    · exact .ok rfl room
    · exact .error _
  · rw [thrown, failed]
    exact .error _

theorem rawVarint_agrees (inside : offset ≤ view.length) :
    Agrees view (fun value other => value = other ∧ value ≤ maxSafeInteger) (rawVarintAt view 10 0 0 offset)
      (rawVarint (view.rest offset)) := by
  have agree : Agrees view Eq (rawVarintAt view 10 0 0 offset) (rawVarintFrom 0 0 (view.rest offset)) :=
    rawVarintAt_agrees rfl inside
  unfold rawVarint
  cases read : rawVarintFrom 0 0 (view.rest offset) with
  | error message =>
      rw [read] at agree
      generalize rawVarintAt view 10 0 0 offset = run at agree
      cases agree
      exact .error _
  | ok result =>
      obtain ⟨number, rest⟩ := result
      have safe := safe_of_rawVarintFrom read
      rw [read] at agree
      generalize rawVarintAt view 10 0 0 offset = run at agree
      cases agree with
      | ok equal after => exact .ok ⟨equal, equal ▸ safe⟩ after

theorem bytesAt_agrees (inside : offset ≤ view.length) :
    Agrees view (fun content bytes => content.bytes = bytes) (bytesAt view offset)
      (lengthDelimited (view.rest offset)) := by
  refine (rawVarint_agrees inside).bind fun length other after equal reached => ?_
  obtain ⟨rfl, safe⟩ := equal
  rcases ensureAt_spec safe reached with ⟨passed, room, read⟩ | ⟨thrown, failed⟩
  · obtain ⟨sub, taken, content⟩ := subarray_spec room
    simp only [passed, read, taken, bind, Except.bind, pure, Except.pure]
    exact .ok content room
  · simp only [thrown, failed, bind, Except.bind]
    exact .error _

theorem skipAt_agrees {σ : Type} (state : σ) (wire : Nat) (inside : offset ≤ view.length) :
    Agrees view Eq (do return (state, ← skipAt view wire offset))
      (do return (state, ← skip wire (view.rest offset))) := by
  have fixed (length : Nat) (safe : length ≤ maxSafeInteger) :
      Agrees view Eq (do return (state, ← (do ensureAt view offset length; return offset + length)))
        (do return (state, ← (do return (← ensure length (view.rest offset)).2))) := by
    rcases ensureAt_spec safe inside with ⟨passed, room, read⟩ | ⟨thrown, failed⟩
    · rw [passed, read]
      exact .ok rfl room
    · rw [thrown, failed]
      exact .error _
  have varint : Agrees view Eq (do return (state, ← (do return (← rawVarintAt view 10 0 0 offset).2)))
      (do return (state, ← (do return (← rawVarint (view.rest offset)).2))) := by
    have agree := rawVarint_agrees inside
    generalize rawVarintAt view 10 0 0 offset = run at agree
    generalize rawVarint (view.rest offset) = other at agree
    cases agree with
    | ok equal after => exact .ok rfl after
    | error message => exact .error message
  have delimited : Agrees view Eq (do return (state, ← (do
        let (length, offset) ← rawVarintAt view 10 0 0 offset
        ensureAt view offset length
        return offset + length)))
      (do return (state, ← (do return (← lengthDelimited (view.rest offset)).2))) := by
    have agree := rawVarint_agrees inside
    unfold lengthDelimited
    generalize rawVarintAt view 10 0 0 offset = run at agree
    generalize rawVarint (view.rest offset) = other at agree
    cases agree with
    | error message => exact .error message
    | ok equal after =>
        obtain ⟨rfl, safe⟩ := equal
        rcases ensureAt_spec safe after with ⟨passed, room, read⟩ | ⟨thrown, failed⟩
        · simp only [bind, Except.bind, pure, Except.pure, passed, read]
          exact .ok rfl room
        · simp only [bind, Except.bind, thrown, failed]
          exact .error _
  match wire with
  | 0 => exact varint
  | 1 => exact fixed 8 (by decide)
  | 2 => exact delimited
  | 5 => exact fixed 4 (by decide)
  | 3 => exact .error _
  | 4 => exact .error _
  | _ + 6 => exact .error _

/-- An action over views and the one over their bytes. -/
inductive Mirrors {σ : Type} : ActionAt σ → Action σ → Prop where
  | varint (next : Nat → σ) : Mirrors (.varint next) (.varint next)
  | fixed64 (next : F64 → σ) : Mirrors (.fixed64 next) (.fixed64 next)
  | bytes {next : View → Except Fault σ} {use : Bytes → Except String σ}
      (same : ∀ content, next content = throwing (use content.bytes)) : Mirrors (.bytes next) (.bytes use)
  | skip : Mirrors .skip .skip

section Loop

variable {σ : Type}

theorem expectWire_agrees {expected wire : Nat} {read : Except Fault (σ × Nat)} {other : Except String (σ × Bytes)}
    (agree : Agrees view Eq read other) :
    Agrees view Eq (do throwing (expectWire expected wire); read) (do expectWire expected wire; other) := by
  unfold expectWire
  split_ifs
  · exact agree
  · exact .error _

theorem readValueAt_agrees {action : ActionAt σ} {same : Action σ} (mirrors : Mirrors action same) (state : σ)
    (wire : Nat) (inside : offset ≤ view.length) :
    Agrees view Eq (readValueAt view action state wire offset) (readValue same state wire (view.rest offset)) := by
  cases mirrors with
  | varint next =>
      apply expectWire_agrees
      refine (rawVarint_agrees inside).bind fun value other after equal reached => ?_
      exact .ok (congrArg next equal.1) reached
  | fixed64 next =>
      apply expectWire_agrees
      refine (fixed64At_agrees inside).bind fun value other after equal reached => ?_
      exact .ok (congrArg next equal) reached
  | bytes equal =>
      rename_i next use
      apply expectWire_agrees
      refine (bytesAt_agrees inside).bind fun content bytes after taken reached => ?_
      subst taken
      simp only [equal content]
      cases use content.bytes with
      | error message => exact .error message
      | ok result => exact .ok rfl reached
  | skip => exact skipAt_agrees state wire inside

/-- The loop of a decoder as one chain of steps. -/
theorem readFields_eq (field : σ → Nat → Action σ) (state : σ) (bytes : Bytes) :
    readFields field state bytes =
      if bytes.isEmpty then .ok state
      else rawVarint bytes >>= fun read =>
        if read.1 / 8 = 0 then .error "Agent Protobuf 字段无效"
        else readValue (field state (read.1 / 8)) state (read.1 % 8) read.2 >>= fun next =>
          readFields field next.1 next.2 := by
  rw [readFields]
  simp only [bind, Except.bind]
  split_ifs
  · rfl
  · split <;> rename_i read <;> rw [read]
    simp only
    split_ifs
    · rfl
    · split <;> rename_i value <;> rw [value]

/-- With fuel for the bytes that remain the loop ends as the one over the remaining bytes does. -/
theorem readFieldsAt_eq {fieldAt : σ → Nat → ActionAt σ} {field : σ → Nat → Action σ}
    (mirrors : ∀ state number, Mirrors (fieldAt state number) (field state number)) {fuel : Nat} (state : σ)
    (inside : offset ≤ view.length) (enough : view.length - offset < fuel) :
    readFieldsAt view fieldAt fuel state offset = throwing (readFields field state (view.rest offset)) := by
  induction fuel generalizing state offset with
  | zero => omega
  | succ fuel ih =>
      -- What is done behind a key: its value is read, and then the fields that are left.
      have value_step (value : Nat) {after : Nat} (reached : after ≤ view.length) (fewer : view.length - after < fuel) :
          (if value / 8 = 0 then .error (.thrown "Agent Protobuf 字段无效")
            else readValueAt view (fieldAt state (value / 8)) state (value % 8) after >>= fun next =>
              readFieldsAt view fieldAt fuel next.1 next.2) =
          throwing (if value / 8 = 0 then .error "Agent Protobuf 字段无效"
            else readValue (field state (value / 8)) state (value % 8) (view.rest after) >>= fun next =>
              readFields field next.1 next.2) := by
        split_ifs
        · rfl
        · have agree := readValueAt_agrees (mirrors state (value / 8)) state (value % 8) reached
          cases read : readValue (field state (value / 8)) state (value % 8) (view.rest after) with
          | error message =>
              rw [read] at agree
              generalize readValueAt view _ state (value % 8) after = run at agree
              cases agree
              rfl
          | ok next =>
              have shortens := readValue_shortens read
              rw [read] at agree
              generalize readValueAt view _ state (value % 8) after = run at agree
              cases agree with
              | ok equal passed =>
                  rw [length_rest, length_rest] at shortens
                  subst equal
                  exact ih _ passed (by omega)
      rw [readFieldsAt, readFields_eq]
      by_cases past : view.length ≤ offset
      · have none_ : view.rest offset = [] := List.length_eq_zero_iff.mp (by rw [length_rest]; omega)
        rw [if_pos past, none_]
        rfl
      · have some_ : ¬ (view.rest offset).isEmpty := by
          rw [List.isEmpty_iff, ← List.length_eq_zero_iff, length_rest]
          omega
        have agree := rawVarint_agrees inside
        rw [if_neg past, if_neg some_]
        cases found : rawVarint (view.rest offset) with
        | error message =>
            rw [found] at agree
            generalize rawVarintAt view 10 0 0 offset = run at agree
            cases agree
            rfl
        | ok read =>
            obtain ⟨number, rest⟩ := read
            have shorter := rawVarintFrom_shortens found
            rw [found] at agree
            generalize rawVarintAt view 10 0 0 offset = run at agree
            cases agree with
            | ok equal reached =>
                rename_i after
                obtain ⟨rfl, -⟩ := equal
                rw [length_rest, length_rest] at shorter
                exact value_step _ reached (by omega)

end Loop

end Refinement

end NieSla.Protobuf
