import Mathlib

/-! JSON over texts of UTF-16 code units: `JSON.parse`, objects with the order of their properties, and
`JSON.stringify` of an object whose values are texts. -/
namespace JsonText

/-- The code units of a text. -/
abbrev Text := List Nat

def units (text : String) : Text := text.toList.map Char.toNat

/-- A value; a number is the text it is written as. -/
inductive Json where
  | null
  | bool (value : Bool)
  | number (written : Text)
  | string (value : Text)
  | array (items : List Json)
  | object (entries : List (Text × Json))

/-! Objects. -/

section Objects

variable {α β : Type*}

/-- An integer key: the digits of a number below 2^32 - 1, without leading zeros. -/
def arrayIndex (key : Text) : Option Nat :=
  if key ≠ [] ∧ key.all (fun unit => 48 ≤ unit && unit ≤ 57) ∧ (key.head? = some 48 → key = [48]) then
    some (key.foldl (fun value unit => value * 10 + (unit - 48)) 0) |>.filter (· < 4294967295)
  else none

/-- The integer keys come first, in ascending order. -/
def comesBefore (first second : Text) : Bool :=
  match arrayIndex first, arrayIndex second with
  | some index, some other => index < other
  | some _, none => true
  | none, _ => false

/-- A new property takes its place in the order. -/
def insertKey (key : Text) (value : α) : List (Text × α) → List (Text × α)
  | [] => [(key, value)]
  | entry :: rest =>
      if comesBefore key entry.1 then (key, value) :: entry :: rest
      else entry :: insertKey key value rest

def keys (entries : List (Text × α)) : List Text := entries.map Prod.fst

/-- `object[key] = value` -/
def put (key : Text) (value : α) (entries : List (Text × α)) : List (Text × α) :=
  if key ∈ keys entries then entries.map fun entry => if entry.1 = key then (key, value) else entry
  else insertKey key value entries

def get? (key : Text) (entries : List (Text × α)) : Option α :=
  (entries.find? fun entry => entry.1 = key).map Prod.snd

/-- `delete object[key]` -/
def erase (key : Text) (entries : List (Text × α)) : List (Text × α) :=
  entries.filter fun entry => entry.1 ≠ key

/-- The object that assigns the members one after the other. -/
def ofMembers (members : List (Text × α)) : List (Text × α) :=
  members.foldl (fun entries member => put member.1 member.2 entries) []

@[simp] theorem get?_nil (key : Text) : get? key ([] : List (Text × α)) = none := rfl

theorem get?_cons (key : Text) (entry : Text × α) (rest : List (Text × α)) :
    get? key (entry :: rest) = if entry.1 = key then some entry.2 else get? key rest := by
  unfold get?
  by_cases same : entry.1 = key <;> simp [same]

theorem get?_eq_none {key : Text} {entries : List (Text × α)} : get? key entries = none ↔ key ∉ keys entries := by
  induction entries with
  | nil => simp [keys]
  | cons entry rest ih =>
      rw [get?_cons]
      split_ifs with same
      · simp [keys, same]
      · rw [ih]
        simp [keys, Ne.symm same]

theorem get?_insertKey {key : Text} (other : Text) (value : α) {entries : List (Text × α)}
    (fresh : key ∉ keys entries) :
    get? other (insertKey key value entries) = if key = other then some value else get? other entries := by
  induction entries with
  | nil => exact get?_cons _ _ _
  | cons entry rest ih =>
      rw [keys, List.map_cons, List.mem_cons, not_or] at fresh
      obtain ⟨different, later⟩ := fresh
      unfold insertKey
      split
      · exact get?_cons _ _ _
      · rw [get?_cons, ih later, get?_cons]
        by_cases here : key = other
        · rw [if_pos here, if_pos here, if_neg (fun same => different (here.trans same.symm))]
        · rw [if_neg here, if_neg here]

theorem get?_put (key other : Text) (value : α) (entries : List (Text × α)) :
    get? other (put key value entries) = if key = other then some value else get? other entries := by
  unfold put
  split_ifs with there here here
  · subst here
    induction entries with
    | nil => cases there
    | cons entry rest ih =>
        rw [List.map_cons, get?_cons]
        by_cases same : entry.1 = key
        · simp [same]
        · have inside := (List.mem_cons.mp there).resolve_left (Ne.symm same)
          rw [if_neg same, if_neg same]
          exact ih inside
  · clear there
    induction entries with
    | nil => rfl
    | cons entry rest ih =>
        rw [List.map_cons, get?_cons, get?_cons, ih]
        by_cases same : entry.1 = key
        · rw [if_pos same, if_neg here, if_neg (same ▸ here)]
        · rw [if_neg same]
  · rw [get?_insertKey other value there, if_pos here]
  · rw [get?_insertKey other value there, if_neg here]

theorem get?_erase (key other : Text) (entries : List (Text × α)) :
    get? other (erase key entries) = if key = other then none else get? other entries := by
  induction entries with
  | nil => simp [erase]
  | cons entry rest ih =>
      unfold erase at ih ⊢
      by_cases same : entry.1 = key
      · rw [List.filter_cons_of_neg (by simpa using same), ih, get?_cons, same]
        split_ifs <;> rfl
      · rw [List.filter_cons_of_pos (by simpa using same), get?_cons, ih, get?_cons]
        split_ifs with one two
        · exact absurd (one.trans two.symm) same
        all_goals rfl

theorem mem_of_get? {key : Text} {value : α} {entries : List (Text × α)}
    (found : get? key entries = some value) : (key, value) ∈ entries := by
  obtain ⟨entry, there, rfl⟩ := Option.map_eq_some_iff.mp found
  have same : entry.1 = key := by simpa using List.find?_some there
  exact same ▸ List.mem_of_find?_eq_some there

theorem get?_of_mem {key : Text} {value : α} {entries : List (Text × α)} (distinct : (keys entries).Nodup)
    (member : (key, value) ∈ entries) : get? key entries = some value := by
  induction entries with
  | nil => cases member
  | cons entry rest ih =>
      obtain ⟨fresh, others⟩ := List.nodup_cons.mp distinct
      rw [get?_cons]
      rcases List.mem_cons.mp member with rfl | inside
      · exact if_pos rfl
      · rw [if_neg, ih others inside]
        intro same
        exact fresh (same ▸ List.mem_map_of_mem inside)

/-- The order of the properties does not matter to a reader. -/
theorem get?_perm {first second : List (Text × α)} (same : first.Perm second) (distinct : (keys first).Nodup)
    (key : Text) : get? key first = get? key second := by
  have distinctSecond : (keys second).Nodup := (same.map Prod.fst).nodup_iff.mp distinct
  cases found : get? key second with
  | none =>
      rw [get?_eq_none] at found ⊢
      exact fun there => found ((same.map Prod.fst).mem_iff.mp there)
  | some value => exact get?_of_mem distinct (same.mem_iff.mpr (mem_of_get? found))

theorem insertKey_perm (key : Text) (value : α) (entries : List (Text × α)) :
    (insertKey key value entries).Perm ((key, value) :: entries) := by
  induction entries with
  | nil => exact List.Perm.refl _
  | cons entry rest ih =>
      unfold insertKey
      split
      · exact List.Perm.refl _
      · exact (ih.cons entry).trans (List.Perm.swap _ _ _)

theorem put_perm {key : Text} (value : α) {entries : List (Text × α)} (fresh : key ∉ keys entries) :
    (put key value entries).Perm ((key, value) :: entries) := by
  rw [put, if_neg fresh]
  exact insertKey_perm key value entries

theorem keys_put (key : Text) (value : α) (entries : List (Text × α)) :
    key ∈ keys entries ∧ keys (put key value entries) = keys entries ∨
      key ∉ keys entries ∧ (keys (put key value entries)).Perm (key :: keys entries) := by
  by_cases there : key ∈ keys entries
  · refine .inl ⟨there, ?_⟩
    rw [put, if_pos there, keys, List.map_map]
    refine List.map_congr_left fun entry _ => ?_
    by_cases same : entry.1 = key <;> simp [same]
  · exact .inr ⟨there, (put_perm value there).map Prod.fst⟩

theorem nodup_keys_put {key : Text} (value : α) {entries : List (Text × α)} (distinct : (keys entries).Nodup) :
    (keys (put key value entries)).Nodup := by
  rcases keys_put key value entries with ⟨-, same⟩ | ⟨fresh, same⟩
  · rw [same]
    exact distinct
  · exact same.nodup_iff.mpr (List.nodup_cons.mpr ⟨fresh, distinct⟩)

theorem mem_keys_put {key other : Text} {value : α} {entries : List (Text × α)} :
    other ∈ keys (put key value entries) ↔ other = key ∨ other ∈ keys entries := by
  rcases keys_put key value entries with ⟨there, same⟩ | ⟨-, same⟩
  · rw [same]
    exact ⟨.inr, fun either => either.elim (fun here => here ▸ there) id⟩
  · rw [same.mem_iff, List.mem_cons]

theorem length_put_le (key : Text) (value : α) (entries : List (Text × α)) :
    (put key value entries).length ≤ entries.length + 1 := by
  rcases keys_put key value entries with ⟨-, same⟩ | ⟨-, same⟩
  · have equal := congrArg List.length same
    simp only [keys, List.length_map] at equal
    omega
  · have equal := same.length_eq
    simp only [keys, List.length_map, List.length_cons] at equal
    omega

/-- Members with distinct keys are assigned as they are, up to their order. -/
theorem ofMembers_perm {members : List (Text × α)} (distinct : (keys members).Nodup) :
    (ofMembers members).Perm members := by
  induction members using List.reverseRecOn with
  | nil => exact List.Perm.refl _
  | append_singleton members member ih =>
      have split : (keys members ++ [member.1]).Nodup := by simpa [keys] using distinct
      obtain ⟨before, -, apart⟩ := List.nodup_append.mp split
      have assigned := ih before
      have fresh : member.1 ∉ keys (ofMembers members) := by
        rw [keys, (assigned.map Prod.fst).mem_iff]
        exact fun there => apart _ there _ List.mem_cons_self rfl
      have last : ofMembers (members ++ [member]) = put member.1 member.2 (ofMembers members) := by
        rw [ofMembers, List.foldl_append]
        rfl
      rw [last]
      exact (put_perm member.2 fresh).trans ((assigned.cons member).trans
        (List.perm_append_singleton member members).symm)

theorem nodup_keys_ofMembers (members : List (Text × α)) : (keys (ofMembers members)).Nodup := by
  induction members using List.reverseRecOn with
  | nil => exact List.nodup_nil
  | append_singleton members member ih =>
      rw [ofMembers, List.foldl_append]
      exact nodup_keys_put member.2 ih

/-- The values of an object, changed one by one. -/
def mapValues (change : α → β) (entries : List (Text × α)) : List (Text × β) :=
  entries.map fun entry => (entry.1, change entry.2)

theorem keys_mapValues (change : α → β) (entries : List (Text × α)) :
    keys (mapValues change entries) = keys entries := by
  simp only [keys, mapValues, List.map_map, Function.comp_def]

theorem get?_mapValues (change : α → β) (key : Text) (entries : List (Text × α)) :
    get? key (mapValues change entries) = (get? key entries).map change := by
  induction entries with
  | nil => rfl
  | cons entry rest ih =>
      rw [mapValues, List.map_cons, get?_cons, get?_cons]
      split_ifs
      · rfl
      · exact ih

theorem insertKey_mapValues (change : α → β) (key : Text) (value : α) (entries : List (Text × α)) :
    insertKey key (change value) (mapValues change entries) = mapValues change (insertKey key value entries) := by
  induction entries with
  | nil => rfl
  | cons entry rest ih =>
      unfold mapValues at ih ⊢
      simp only [List.map_cons, insertKey]
      split_ifs
      · rfl
      · rw [ih]
        rfl

theorem put_mapValues (change : α → β) (key : Text) (value : α) (entries : List (Text × α)) :
    put key (change value) (mapValues change entries) = mapValues change (put key value entries) := by
  unfold put
  rw [keys_mapValues]
  split_ifs
  · simp only [mapValues, List.map_map]
    refine List.map_congr_left fun entry _ => ?_
    by_cases same : entry.1 = key <;> simp [same]
  · exact insertKey_mapValues change key value entries

theorem ofMembers_mapValues (change : α → β) (members : List (Text × α)) :
    ofMembers (mapValues change members) = mapValues change (ofMembers members) := by
  induction members using List.reverseRecOn with
  | nil => rfl
  | append_singleton members member ih =>
      unfold ofMembers at ih ⊢
      rw [mapValues, List.map_append, List.foldl_append, List.foldl_append]
      simp only [mapValues] at ih
      rw [ih]
      exact put_mapValues change member.1 member.2 _

theorem get?_ofMembers {members : List (Text × α)} (distinct : (keys members).Nodup) (key : Text) :
    get? key (ofMembers members) = get? key members :=
  get?_perm (ofMembers_perm distinct) (nodup_keys_ofMembers members) key

end Objects

/-! Writing. -/

def isHighSurrogate (unit : Nat) : Bool := 0xd800 ≤ unit && unit ≤ 0xdbff
def isLowSurrogate (unit : Nat) : Bool := 0xdc00 ≤ unit && unit ≤ 0xdfff

/-- A hexadecimal digit in lower case. -/
def hexDigit (n : Nat) : Nat := if n < 10 then 48 + n else 87 + n

/-- `\uXXXX` -/
def escaped (unit : Nat) : Text :=
  [92, 117, hexDigit (unit / 4096 % 16), hexDigit (unit / 256 % 16), hexDigit (unit / 16 % 16), hexDigit (unit % 16)]

def shortEscape (unit : Nat) : Option Nat :=
  if unit = 34 ∨ unit = 92 then some unit
  else if unit = 8 then some 98
  else if unit = 9 then some 116
  else if unit = 10 then some 110
  else if unit = 12 then some 102
  else if unit = 13 then some 114
  else none

/-- A unit that is no half of a pair. -/
def quoteUnit (unit : Nat) : Text :=
  match shortEscape unit with
  | some letter => [92, letter]
  | none => if unit < 32 || isHighSurrogate unit || isLowSurrogate unit then escaped unit else [unit]

/-- What stands between the quotes. -/
def quoteUnits : Text → Text
  | [] => []
  | [unit] => quoteUnit unit
  | unit :: next :: rest =>
      if isHighSurrogate unit && isLowSurrogate next then unit :: next :: quoteUnits rest
      else quoteUnit unit ++ quoteUnits (next :: rest)

def quote (text : Text) : Text := 34 :: (quoteUnits text ++ [34])

def stringifyMembers : List (Text × Text) → Text
  | [] => []
  | [entry] => quote entry.1 ++ 58 :: quote entry.2
  | entry :: next :: rest => quote entry.1 ++ 58 :: (quote entry.2 ++ 44 :: stringifyMembers (next :: rest))

/-- `JSON.stringify` of an object whose values are texts. -/
def stringify (entries : List (Text × Text)) : Text := 123 :: (stringifyMembers entries ++ [125])

/-! Reading. -/

def isSpace (unit : Nat) : Bool := unit = 32 || unit = 9 || unit = 10 || unit = 13

def skipSpace (text : Text) : Text := text.dropWhile isSpace

def hexValue (unit : Nat) : Option Nat :=
  if 48 ≤ unit ∧ unit ≤ 57 then some (unit - 48)
  else if 97 ≤ unit ∧ unit ≤ 102 then some (unit - 87)
  else if 65 ≤ unit ∧ unit ≤ 70 then some (unit - 55)
  else none

def hexUnit (a b c d : Nat) : Option Nat := do
  let a ← hexValue a
  let b ← hexValue b
  let c ← hexValue c
  let d ← hexValue d
  return a * 4096 + b * 256 + c * 16 + d

def unescape (letter : Nat) : Option Nat :=
  if letter = 34 ∨ letter = 92 ∨ letter = 47 then some letter
  else if letter = 98 then some 8
  else if letter = 102 then some 12
  else if letter = 110 then some 10
  else if letter = 114 then some 13
  else if letter = 116 then some 9
  else none

/-- A string after its opening quote, and what follows it. -/
def parseString : Text → Option (Text × Text)
  | [] => none
  | 34 :: rest => some ([], rest)
  | 92 :: 117 :: a :: b :: c :: d :: rest => do
      let unit ← hexUnit a b c d
      let (value, rest) ← parseString rest
      return (unit :: value, rest)
  | 92 :: letter :: rest => do
      let unit ← unescape letter
      let (value, rest) ← parseString rest
      return (unit :: value, rest)
  | unit :: rest =>
      if unit < 32 ∨ unit = 92 then none
      else do
        let (value, rest) ← parseString rest
        return (unit :: value, rest)

def isDigit (unit : Nat) : Bool := 48 ≤ unit && unit ≤ 57

/-- At least one digit. -/
def parseDigits (text : Text) : Option (Text × Text) :=
  if (text.takeWhile isDigit) = [] then none else some (text.takeWhile isDigit, text.dropWhile isDigit)

def parseFraction (text : Text) : Option (Text × Text) :=
  match text with
  | 46 :: rest => (parseDigits rest).map fun (digits, rest) => (46 :: digits, rest)
  | _ => some ([], text)

def parseExponent (text : Text) : Option (Text × Text) :=
  match text with
  | [] => some ([], [])
  | unit :: rest =>
      if unit = 101 ∨ unit = 69 then
        match rest with
        | [] => none
        | sign :: digits =>
            if sign = 43 ∨ sign = 45 then
              (parseDigits digits).map fun (digits, rest) => (unit :: sign :: digits, rest)
            else (parseDigits rest).map fun (digits, rest) => (unit :: digits, rest)
      else some ([], text)

def parseInteger (text : Text) : Option (Text × Text) := do
  let (digits, rest) ← parseDigits text
  if digits.head? = some 48 ∧ digits ≠ [48] then none else return (digits, rest)

def parseNumber (text : Text) : Option (Json × Text) := do
  let (sign, text) := match text with
    | 45 :: rest => ([45], rest)
    | _ => ([], text)
  let (integer, text) ← parseInteger text
  let (fraction, text) ← parseFraction text
  let (exponent, text) ← parseExponent text
  return (.number (sign ++ integer ++ fraction ++ exponent), text)

/-- A literal, and what follows it. -/
def parseLiteral (literal : Text) (value : Json) (text : Text) : Option (Json × Text) :=
  if literal.isPrefixOf text then some (value, text.drop literal.length) else none

mutual

/-- A value and what follows it, with a bound on the depth. -/
def parseValue : Nat → Text → Option (Json × Text)
  | 0, _ => none
  | depth + 1, text =>
      match skipSpace text with
      | [] => none
      | unit :: rest =>
          if unit = 34 then (parseString rest).map fun (value, rest) => (.string value, rest)
          else if unit = 123 then
            match skipSpace rest with
            | 125 :: rest => some (.object [], rest)
            | _ => (parseMembers depth rest).map fun (members, rest) => (.object (ofMembers members), rest)
          else if unit = 91 then
            match skipSpace rest with
            | 93 :: rest => some (.array [], rest)
            | _ => (parseItems depth rest).map fun (items, rest) => (.array items, rest)
          else if unit = 116 then parseLiteral (units "true") (.bool true) (unit :: rest)
          else if unit = 102 then parseLiteral (units "false") (.bool false) (unit :: rest)
          else if unit = 110 then parseLiteral (units "null") .null (unit :: rest)
          else parseNumber (unit :: rest)

def parseItems : Nat → Text → Option (List Json × Text)
  | 0, _ => none
  | depth + 1, text => do
      let (item, rest) ← parseValue depth text
      match skipSpace rest with
      | 44 :: rest => do
          let (items, rest) ← parseItems depth rest
          return (item :: items, rest)
      | 93 :: rest => return ([item], rest)
      | _ => none

def parseMembers : Nat → Text → Option (List (Text × Json) × Text)
  | 0, _ => none
  | depth + 1, text =>
      match skipSpace text with
      | 34 :: rest => do
          let (key, rest) ← parseString rest
          match skipSpace rest with
          | 58 :: rest => do
              let (value, rest) ← parseValue depth rest
              match skipSpace rest with
              | 44 :: rest => do
                  let (members, rest) ← parseMembers depth rest
                  return ((key, value) :: members, rest)
              | 125 :: rest => return ([(key, value)], rest)
              | _ => none
          | _ => none
      | _ => none

end

/-- `JSON.parse`; `none` is its error. -/
def parse (text : Text) : Option Json :=
  match parseValue (text.length + 1) text with
  | some (value, rest) => if skipSpace rest = [] then some value else none
  | none => none

/-! What is written is read back. -/

theorem hexValue_hexDigit {n : Nat} (digit : n < 16) : hexValue (hexDigit n) = some n := by
  unfold hexValue hexDigit
  split_ifs <;> simp_all <;> omega

theorem hexUnit_escaped {unit : Nat} (bound : unit < 65536) :
    hexUnit (hexDigit (unit / 4096 % 16)) (hexDigit (unit / 256 % 16)) (hexDigit (unit / 16 % 16))
      (hexDigit (unit % 16)) = some unit := by
  unfold hexUnit
  simp only [hexValue_hexDigit (Nat.mod_lt _ (by decide : 0 < 16)), Option.bind_eq_bind, Option.bind_some,
    Option.pure_def, Option.some.injEq]
  omega

theorem unescape_shortEscape {unit letter : Nat} (short : shortEscape unit = some letter) :
    letter ≠ 117 ∧ unescape letter = some unit := by
  unfold shortEscape at short
  split_ifs at short with own back tab line form return_
  all_goals cases short
  · exact ⟨by omega, if_pos (own.imp_right .inl)⟩
  all_goals
    subst unit
    exact ⟨by decide, rfl⟩

theorem parseString_plain {unit : Nat} (plain : 32 ≤ unit) (quote_ : unit ≠ 34) (slash : unit ≠ 92) (rest : Text) :
    parseString (unit :: rest) = (parseString rest).map fun read => (unit :: read.1, read.2) := by
  rw [parseString]
  · rw [if_neg (by omega)]
    cases parseString rest <;> rfl
  all_goals grind

theorem parseString_quoteUnit (unit : Nat) (rest : Text) :
    parseString (quoteUnit unit ++ rest) = (parseString rest).map fun read => (unit :: read.1, read.2) := by
  unfold quoteUnit
  cases short : shortEscape unit with
  | some letter =>
      obtain ⟨other, back⟩ := unescape_shortEscape short
      simp only [List.cons_append, List.nil_append]
      rw [parseString]
      · rw [back]
        cases parseString rest <;> rfl
      · grind
  | none =>
      have ends : unit ≠ 34 ∧ unit ≠ 92 := by
        unfold shortEscape at short
        split_ifs at short
        omega
      dsimp only
      split_ifs with special
      · have bound : unit < 65536 := by
          simp only [isHighSurrogate, isLowSurrogate, Bool.or_eq_true, decide_eq_true_eq,
            Bool.and_eq_true] at special
          omega
        simp only [escaped, List.cons_append, List.nil_append]
        rw [parseString, hexUnit_escaped bound]
        cases parseString rest <;> rfl
      · have plain : 32 ≤ unit := by
          by_contra small
          simp [not_le.mp small] at special
        exact parseString_plain plain ends.1 ends.2 rest

theorem parseString_quoteUnits (text rest : Text) :
    parseString (quoteUnits text ++ 34 :: rest) = some (text, rest) := by
  fun_induction quoteUnits text with
  | case1 => rfl
  | case2 unit =>
      rw [parseString_quoteUnit]
      rfl
  | case3 unit next tail pair ih =>
      simp only [isHighSurrogate, isLowSurrogate, Bool.and_eq_true, decide_eq_true_eq] at pair
      simp only [List.cons_append]
      rw [parseString_plain (by omega) (by omega) (by omega),
        parseString_plain (by omega) (by omega) (by omega), ih]
      rfl
  | case4 unit next tail _ ih =>
      rw [List.append_assoc, parseString_quoteUnit, ih]
      rfl

theorem skipSpace_cons {unit : Nat} (solid : isSpace unit = false) (rest : Text) :
    skipSpace (unit :: rest) = unit :: rest := by
  rw [skipSpace, List.dropWhile_cons_of_neg (by simp [solid])]

theorem parseString_quote (text rest : Text) :
    parseString (quoteUnits text ++ [34] ++ rest) = some (text, rest) := by
  rw [List.append_assoc]
  exact parseString_quoteUnits text rest

theorem parseValue_quote (depth : Nat) (text rest : Text) :
    parseValue (depth + 1) (quote text ++ rest) = some (.string text, rest) := by
  rw [parseValue, quote, List.cons_append, skipSpace_cons rfl]
  simp only [if_true, parseString_quote, Option.map_some]

/-- An object of texts, as it is read. -/
def textEntries (entries : List (Text × Text)) : List (Text × Json) := mapValues .string entries

theorem parseMembers_comma (depth : Nat) (key value rest : Text) :
    parseMembers (depth + 2) (quote key ++ 58 :: (quote value ++ 44 :: rest)) =
      (parseMembers (depth + 1) rest).map fun read => ((key, .string value) :: read.1, read.2) := by
  rw [parseMembers, quote, List.cons_append, skipSpace_cons rfl]
  simp only [parseString_quote, Option.bind_eq_bind, Option.bind_some,
    skipSpace_cons (show isSpace 58 = false from rfl), parseValue_quote,
    skipSpace_cons (show isSpace 44 = false from rfl)]
  exact Option.map_eq_bind.symm

theorem parseMembers_close (depth : Nat) (key value rest : Text) :
    parseMembers (depth + 2) (quote key ++ 58 :: (quote value ++ 125 :: rest)) =
      some ([(key, .string value)], rest) := by
  rw [parseMembers, quote, List.cons_append, skipSpace_cons rfl]
  simp only [parseString_quote, Option.bind_eq_bind, Option.bind_some,
    skipSpace_cons (show isSpace 58 = false from rfl), parseValue_quote,
    skipSpace_cons (show isSpace 125 = false from rfl)]
  rfl

theorem parseMembers_stringifyMembers {entries : List (Text × Text)} (some_ : entries ≠ []) {depth : Nat}
    (deep : entries.length < depth) (rest : Text) :
    parseMembers depth (stringifyMembers entries ++ 125 :: rest) = some (textEntries entries, rest) := by
  induction entries generalizing depth with
  | nil => exact absurd rfl some_
  | cons entry tail ih =>
      obtain ⟨depth, rfl⟩ : ∃ lower, depth = lower + 2 := by
        refine ⟨depth - 2, ?_⟩
        simp only [List.length_cons] at deep
        omega
      cases tail with
      | nil =>
          simp only [stringifyMembers, List.append_assoc, List.cons_append]
          exact parseMembers_close depth entry.1 entry.2 rest
      | cons next tail =>
          have others := @ih (List.cons_ne_nil next tail) (depth + 1) (by simpa using deep)
          have shape : stringifyMembers (entry :: next :: tail) ++ 125 :: rest =
              quote entry.1 ++ 58 :: (quote entry.2 ++ 44 :: (stringifyMembers (next :: tail) ++ 125 :: rest)) := by
            rw [stringifyMembers]
            simp only [List.append_assoc, List.cons_append]
          rw [shape, parseMembers_comma, others]
          rfl

theorem length_stringifyMembers (entries : List (Text × Text)) :
    entries.length ≤ (stringifyMembers entries).length := by
  fun_induction stringifyMembers entries with
  | case1 => exact le_refl _
  | case2 entry => simp [quote]
  | case3 entry next rest ih =>
      simp only [List.length_cons, List.length_append, quote] at ih ⊢
      omega

/-- An object of texts that is written is read back. -/
theorem parse_stringify (entries : List (Text × Text)) :
    parse (stringify entries) = some (.object (textEntries (ofMembers entries))) := by
  rw [textEntries, ← ofMembers_mapValues]
  unfold parse stringify
  rw [parseValue, skipSpace_cons rfl]
  simp only [show (123 : Nat) ≠ 34 by decide, if_false, if_true]
  cases entries with
  | nil => rfl
  | cons entry rest =>
      have deep : (entry :: rest).length < (123 :: (stringifyMembers (entry :: rest) ++ [125])).length := by
        have length := length_stringifyMembers (entry :: rest)
        simp only [List.length_cons, List.length_append] at length ⊢
        omega
      have read := parseMembers_stringifyMembers (List.cons_ne_nil entry rest) deep []
      obtain ⟨tail, opens⟩ : ∃ tail, stringifyMembers (entry :: rest) ++ [125] = 34 :: tail := by
        cases rest <;> exact ⟨_, rfl⟩
      rw [opens] at read ⊢
      rw [skipSpace_cons rfl]
      simp only [read, Option.map_some]
      rfl

theorem parseNumber_is_number {text : Text} {value : Json} {rest : Text}
    (read : parseNumber text = some (value, rest)) : ∃ written, value = .number written := by
  unfold parseNumber at read
  simp only [Option.bind_eq_bind, Option.bind_eq_some_iff] at read
  obtain ⟨_, _, _, _, _, _, made⟩ := read
  cases made
  exact ⟨_, rfl⟩

theorem parseLiteral_is_value {literal text rest : Text} {value found : Json}
    (read : parseLiteral literal value text = some (found, rest)) : found = value := by
  unfold parseLiteral at read
  split at read
  · cases read
    rfl
  · cases read

/-- The keys of an object that is read are distinct. -/
theorem nodup_keys_of_parseValue {depth : Nat} {text rest : Text} {entries : List (Text × Json)}
    (read : parseValue depth text = some (.object entries, rest)) : (keys entries).Nodup := by
  cases depth with
  | zero => cases read
  | succ depth =>
      rw [parseValue] at read
      split at read
      · cases read
      · split_ifs at read
        · obtain ⟨_, -, made⟩ := Option.map_eq_some_iff.mp read
          cases made
        · split at read
          · cases read
            exact List.nodup_nil
          · obtain ⟨_, -, made⟩ := Option.map_eq_some_iff.mp read
            cases made
            exact nodup_keys_ofMembers _
        · split at read
          · cases read
          · obtain ⟨_, -, made⟩ := Option.map_eq_some_iff.mp read
            cases made
        · cases parseLiteral_is_value read
        · cases parseLiteral_is_value read
        · cases parseLiteral_is_value read
        · obtain ⟨_, other⟩ := parseNumber_is_number read
          cases other

theorem nodup_keys_of_parse {text : Text} {entries : List (Text × Json)}
    (read : parse text = some (.object entries)) : (keys entries).Nodup := by
  unfold parse at read
  split at read
  · rename_i value rest found
    split at read
    · cases read
      exact nodup_keys_of_parseValue found
    · cases read
  · cases read

end JsonText
