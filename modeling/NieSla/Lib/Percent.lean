import Mathlib

/-! Percent coding: bytes that are kept stand for themselves as characters, every other byte is written
as two hexadecimal digits after a percent sign. -/
namespace Percent

def hexDigit (value : Nat) : Char :=
  if value < 10 then Char.ofNat (48 + value) else Char.ofNat (55 + value)

def hexValue (c : Char) : Option Nat :=
  if c.isDigit then some (c.toNat - 48)
  else if 'A' ≤ c ∧ c ≤ 'F' then some (c.toNat - 55)
  else if 'a' ≤ c ∧ c ≤ 'f' then some (c.toNat - 87)
  else none

/-- The bytes that `encodeURIComponent` keeps. -/
def isUnreserved (byte : UInt8) : Bool :=
  let c := Char.ofNat byte.toNat
  (byte.toNat < 128 && c.isAlphanum) || "-_.!~*'()".toList.contains c

def encodeByte (byte : UInt8) : List Char :=
  if isUnreserved byte then [Char.ofNat byte.toNat]
  else ['%', hexDigit (byte.toNat / 16), hexDigit (byte.toNat % 16)]

def encode (bytes : List UInt8) : List Char := bytes.flatMap encodeByte

def decode : List Char → Option (List UInt8)
  | [] => some []
  | '%' :: high :: low :: rest => do
      let high ← hexValue high
      let low ← hexValue low
      let bytes ← decode rest
      some (UInt8.ofNat (16 * high + low) :: bytes)
  | '%' :: _ => none
  | c :: rest => do
      let bytes ← decode rest
      some (String.utf8EncodeChar c ++ bytes)

theorem hexValue_hexDigit {value : Nat} (small : value < 16) : hexValue (hexDigit value) = some value := by
  interval_cases value <;> decide

/-- A byte that is kept is one character, other than the percent sign, of one byte. -/
theorem unreserved_spec : ∀ value : Fin 256, isUnreserved (UInt8.ofNat value) = true →
    Char.ofNat (UInt8.ofNat value).toNat ≠ '%' ∧
      String.utf8EncodeChar (Char.ofNat (UInt8.ofNat value).toNat) = [UInt8.ofNat value] := by
  decide +kernel

theorem decode_cons {c : Char} (plain : c ≠ '%') (rest : List Char) :
    decode (c :: rest) = (decode rest).map (String.utf8EncodeChar c ++ ·) := by
  rw [decode.eq_def]
  split
  · contradiction
  · rename_i same
    exact absurd (List.cons.inj same).1 plain
  · rename_i same
    exact absurd (List.cons.inj same).1 plain
  · rename_i same
    obtain ⟨rfl, rfl⟩ := List.cons.inj same
    cases decode rest <;> rfl

theorem decode_encodeByte (byte : UInt8) (rest : List Char) :
    decode (encodeByte byte ++ rest) = (decode rest).map (byte :: ·) := by
  unfold encodeByte
  split
  · have kept := unreserved_spec ⟨byte.toNat, byte.toNat_lt⟩
    simp only [UInt8.ofNat_toNat] at kept
    obtain ⟨plain, bytes⟩ := kept ‹_›
    rw [List.singleton_append, decode_cons plain, bytes]
    rfl
  · have small : byte.toNat < 256 := byte.toNat_lt
    have high := hexValue_hexDigit (show byte.toNat / 16 < 16 by omega)
    have low := hexValue_hexDigit (show byte.toNat % 16 < 16 by omega)
    have whole : 16 * (byte.toNat / 16) + byte.toNat % 16 = byte.toNat := Nat.div_add_mod _ _
    simp only [List.cons_append, List.nil_append, decode, high, low, Option.bind_eq_bind, Option.bind_some,
      whole, UInt8.ofNat_toNat]
    cases decode rest <;> rfl

theorem decode_encode (bytes : List UInt8) : decode (encode bytes) = some bytes := by
  induction bytes with
  | nil => rfl
  | cons byte rest ih =>
      rw [encode, List.flatMap_cons, decode_encodeByte, ← encode, ih]
      rfl

/-! Texts are coded through their UTF-8 bytes. -/

def encodeURIComponent (text : String) : String :=
  String.ofList (encode text.toUTF8.data.toList)

def decodeURIComponent (text : String) : Option String :=
  (decode text.toList).bind fun bytes => String.fromUTF8? ⟨bytes.toArray⟩

theorem fromUTF8?_toUTF8 (text : String) : String.fromUTF8? text.toUTF8 = some text := by
  have valid : text.toUTF8.IsValidUTF8 := text.isValidUTF8
  rw [String.fromUTF8?, dif_pos valid]
  rfl

@[simp] theorem decodeURIComponent_encodeURIComponent (text : String) :
    decodeURIComponent (encodeURIComponent text) = some text := by
  rw [decodeURIComponent, encodeURIComponent, String.toList_ofList, decode_encode, Option.bind_some]
  exact fromUTF8?_toUTF8 text

end Percent
