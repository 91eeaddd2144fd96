import Mathlib

/-! The numbers of a report and the values that JSON gives them. The Agent counts in integers and
measures in doubles; both are doubles to the Worker. -/
namespace NieSla.Protobuf

/-- `Number.MAX_SAFE_INTEGER` -/
def maxSafeInteger : Nat := 2 ^ 53 - 1

/-- `Number.isFinite`, of the bits of a double. -/
def finiteBits (bits : Nat) : Prop := bits < 2 ^ 64 ∧ bits / 2 ^ 52 % 2 ^ 11 ≠ 2 ^ 11 - 1

instance (bits : Nat) : Decidable (finiteBits bits) := inferInstanceAs (Decidable (_ ∧ _))

/-- A finite double. -/
structure F64 where
  bits : Nat
  finite : finiteBits bits
deriving DecidableEq

/-- The quotient, rounded to the nearest, of two equally near ones to the even one. -/
def roundHalfEvenDiv (n divisor : Nat) : Nat :=
  let low := n / divisor
  if 2 * (n % divisor) < divisor ∨ (2 * (n % divisor) = divisor ∧ low % 2 = 0) then low else low + 1

/-- The bits of the double nearest to a natural number; a mantissa that is rounded up to the next
power of two carries into the exponent. -/
def bitsOfNat (n : Nat) : Nat :=
  if n = 0 then 0
  else
    let exponent := Nat.log 2 n
    let mantissa :=
      if exponent ≤ 52 then n * 2 ^ (52 - exponent) else roundHalfEvenDiv n (2 ^ (exponent - 52))
    (exponent + 1022) * 2 ^ 52 + mantissa

def bitsOfInt (n : Int) : Nat := (if n < 0 then 2 ^ 63 else 0) + bitsOfNat n.natAbs

/-- `Number(n)`, and `n as f64` of the Agent; no integer of a report is near the largest double. -/
def F64.ofInt (n : Int) : F64 :=
  if finite : finiteBits (bitsOfInt n) then ⟨bitsOfInt n, finite⟩ else ⟨0, by decide⟩

example : (F64.ofInt 1).bits = 0x3FF0000000000000 := by decide +kernel

example : (F64.ofInt (-43)).bits = 0xC045800000000000 := by decide +kernel

/-- A value of JSON. An object is what its keys are mapped to; the value of an absent key is
`null`. -/
inductive Json where
  | null
  | bool (value : Bool)
  | num (value : F64)
  | str (value : String)
  | arr (items : List Json)
  | obj (fields : String → Json)

abbrev Object := String → Json

def Json.int (n : Int) : Json := .num (.ofInt n)

/-- `object[key] = value` -/
def Object.set (fields : Object) (key : String) (value : Json) : Object := Function.update fields key value

theorem Object.set_apply (fields : Object) (key other : String) (value : Json) :
    fields.set key value other = if other = key then value else fields other :=
  Function.update_apply fields key value other

@[simp] theorem Object.set_self (fields : Object) (key : String) (value : Json) :
    fields.set key value key = value :=
  Function.update_self ..

@[simp] theorem Object.set_set (fields : Object) (key : String) (first second : Json) :
    (fields.set key first).set key second = fields.set key second :=
  Function.update_idem ..

/-- `if let Some(value) = value { object.insert(key, value) }` -/
def Object.setSome (fields : Object) (key : String) (value : Option Json) : Object :=
  value.elim fields (fields.set key)

/-- `(object[key] ||= []).push(item)` -/
def Object.push (fields : Object) (key : String) (item : Json) : Object :=
  match fields key with
  | .arr items => fields.set key (.arr (items ++ [item]))
  | _ => fields.set key (.arr [item])

/-- `json!({ … })` -/
def object (entries : List (String × Json)) : Object :=
  entries.foldl (fun fields entry => Object.set fields entry.1 entry.2) fun _ => .null

end NieSla.Protobuf
