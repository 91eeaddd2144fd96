import NieSla.Util.Text

/-! Addresses, and the two spellings that the Worker reads by hand: four decimal numbers, and groups
of hexadecimal digits. -/
namespace NieSla.Hosts

structure Ipv4Addr where
  a : Fin 256
  b : Fin 256
  c : Fin 256
  d : Fin 256
deriving DecidableEq

structure Ipv6Addr where
  g0 : Fin 65536
  g1 : Fin 65536
  g2 : Fin 65536
  g3 : Fin 65536
  g4 : Fin 65536
  g5 : Fin 65536
  g6 : Fin 65536
  g7 : Fin 65536
deriving DecidableEq

inductive IpAddr where
  | v4 (ip : Ipv4Addr)
  | v6 (ip : Ipv6Addr)
deriving DecidableEq

section Ipv4

/-- `\d{1,3}` -/
def isOctetText (part : List Char) : Bool :=
  1 ≤ part.length && part.length ≤ 3 && part.all Char.isDigit

/-- `/^\d{1,3}(?:\.\d{1,3}){3}$/`, with the four numbers. -/
def dotted (chars : List Char) : Option (List Nat) :=
  let parts := chars.splitOn '.'
  if parts.length = 4 && parts.all isOctetText then
    some (parts.map fun part => Nat.ofDigitChars 10 part 0)
  else none

/-- The address, unless a number is above 255. -/
def toBytes : List Nat → Option Ipv4Addr
  | [a, b, c, d] =>
      if fits : a < 256 ∧ b < 256 ∧ c < 256 ∧ d < 256 then
        some ⟨⟨a, fits.1⟩, ⟨b, fits.2.1⟩, ⟨c, fits.2.2.1⟩, ⟨d, fits.2.2.2⟩⟩
      else none
  | _ => none

def Ipv4Addr.octets (ip : Ipv4Addr) : List Nat := [ip.a, ip.b, ip.c, ip.d]

def Ipv4Addr.text (ip : Ipv4Addr) : List Char := ['.'].intercalate (ip.octets.map (Nat.toDigits 10))

end Ipv4

section Ipv6

def isHexDigit (c : Char) : Bool := c.isDigit || ('a' ≤ c && c ≤ 'f')

def hexDigit (c : Char) : Nat := if c.isDigit then c.toNat - 48 else c.toNat - 87

/-- `Number.parseInt(part, 16)` -/
def hexValue (part : List Char) : Nat := part.foldl (fun value c => 16 * value + hexDigit c) 0

/-- A group of `/^[0-9a-f]{1,4}$/`, which has no value above 65535. -/
def parseGroup (part : List Char) : Option (Fin 65536) :=
  if 1 ≤ part.length && part.length ≤ 4 && part.all isHexDigit then
    some (Fin.ofNat 65536 (hexValue part))
  else none

/-- `/(\d{1,3}(?:\.\d{1,3}){3})$/`: the first tail that matches, and what is ahead of it. -/
def dottedTail : List Char → Option (List Char × List Nat)
  | [] => none
  | c :: rest =>
      match dotted (c :: rest) with
      | some parts => some ([], parts)
      | none => (dottedTail rest).map fun (ahead, parts) => (c :: ahead, parts)

/-- The two sides of the first `::`. -/
def splitDouble : List Char → Option (List Char × List Char)
  | ':' :: ':' :: rest => some ([], rest)
  | c :: rest => (splitDouble rest).map fun (left, right) => (c :: left, right)
  | [] => none

/-- `side ? side.split(':') : []` -/
def groupsOf (side : List Char) : List (List Char) := if side = [] then [] else side.splitOn ':'

def toGroups : List (Fin 65536) → Option Ipv6Addr
  | [g0, g1, g2, g3, g4, g5, g6, g7] => some ⟨g0, g1, g2, g3, g4, g5, g6, g7⟩
  | _ => none

def parseGroups (groups : List (List Char)) : Option Ipv6Addr := groups.mapM parseGroup >>= toGroups

/-- `expandIpv6` once a dotted tail is rewritten. -/
def expandGroups (input : List Char) : Option Ipv6Addr :=
  match splitDouble input with
  | none =>
      let left := groupsOf input
      if left.length ≠ 8 then none else parseGroups left
  | some (first, second) =>
      if (splitDouble second).isSome then none
      else
        let left := groupsOf first
        let right := groupsOf second
        if 8 < left.length + right.length + 1 then none
        else parseGroups (left ++ List.replicate (8 - left.length - right.length) ['0'] ++ right)

/-- `((high << 8) | low).toString(16)` -/
def pairText (high low : Nat) : List Char := Nat.toDigits 16 (high <<< 8 ||| low)

def expandIpv6 (input : List Char) : Option Ipv6Addr :=
  match dottedTail input with
  | none => expandGroups input
  | some (ahead, parts) =>
      match toBytes parts with
      | none => none
      | some ip => expandGroups (ahead ++ pairText ip.a ip.b ++ ':' :: pairText ip.c ip.d)

def Ipv6Addr.isLoopback (ip : Ipv6Addr) : Bool := ip = ⟨0, 0, 0, 0, 0, 0, 0, 1⟩
def Ipv6Addr.isUnspecified (ip : Ipv6Addr) : Bool := ip = ⟨0, 0, 0, 0, 0, 0, 0, 0⟩

/-- The 6to4 address of the agent's own host. -/
def ownHost : Ipv6Addr := ⟨0x2002, 0x7f00, 1, 0, 0, 0, 0, 0⟩

def Ipv6Addr.segments (ip : Ipv6Addr) : List (Fin 65536) :=
  [ip.g0, ip.g1, ip.g2, ip.g3, ip.g4, ip.g5, ip.g6, ip.g7]

/-- All eight groups, written out. -/
def Ipv6Addr.text (ip : Ipv6Addr) : List Char :=
  [':'].intercalate (ip.segments.map fun group => Nat.toDigits 16 group)

end Ipv6

section Numbers

variable {chars part : List Char} {parts : List Nat} {c : Char}

theorem mem_intercalate {c sep : Char} {parts : List (List Char)}
    (member : c ∈ [sep].intercalate parts) : c = sep ∨ ∃ part ∈ parts, c ∈ part := by
  induction parts with
  | nil => exact absurd member (by simp)
  | cons first rest ih =>
      cases rest with
      | nil => exact .inr ⟨first, List.mem_cons_self, by simpa using member⟩
      | cons second rest =>
          rw [List.intercalate_cons_cons, List.append_assoc, List.mem_append, List.mem_append,
            List.mem_singleton] at member
          rcases member with here | same | later
          · exact .inr ⟨first, List.mem_cons_self, here⟩
          · exact .inl same
          · exact (ih later).imp_right fun ⟨part, listed, inside⟩ =>
              ⟨part, List.mem_cons_of_mem _ listed, inside⟩

/-- A character is the separator or belongs to a part. -/
theorem mem_part (sep : Char) (member : c ∈ chars) : c = sep ∨ ∃ part ∈ chars.splitOn sep, c ∈ part := by
  have whole : [sep].intercalate (chars.splitOn sep) = chars := List.intercalate_splitOn sep
  exact mem_intercalate (whole.symm ▸ member)

theorem digitChar_hex : ∀ d : Fin 16, isHexDigit (Nat.digitChar d) = true ∧
    hexDigit (Nat.digitChar d) = d := by
  decide

theorem isHexDigit_toDigits {n : Nat} (member : c ∈ Nat.toDigits 16 n) : isHexDigit c = true := by
  induction n using Nat.strongRecOn with
  | ind n ih =>
      rw [Nat.toDigits_eq_if (by decide)] at member
      split at member
      next small =>
        rw [List.mem_singleton.mp member]
        exact (digitChar_hex ⟨n, small⟩).1
      next =>
        rcases List.mem_append.mp member with before | last
        · exact ih (n / 16) (by omega) before
        · rw [List.mem_singleton.mp last]
          exact (digitChar_hex ⟨n % 16, by omega⟩).1

theorem hexValue_toDigits (n : Nat) : hexValue (Nat.toDigits 16 n) = n := by
  induction n using Nat.strongRecOn with
  | ind n ih =>
      rw [Nat.toDigits_eq_if (by decide)]
      split
      next small =>
        have digit := (digitChar_hex ⟨n, small⟩).2
        simpa [hexValue] using digit
      next =>
        have digit := (digitChar_hex ⟨n % 16, by omega⟩).2
        have before := ih (n / 16) (by omega)
        rw [hexValue] at before ⊢
        rw [List.foldl_append, before]
        simp only [List.foldl_cons, List.foldl_nil, digit]
        omega

theorem parseGroup_toDigits (group : Fin 65536) : parseGroup (Nat.toDigits 16 group) = some group := by
  have positive : 1 ≤ (Nat.toDigits 16 (group : Nat)).length := Nat.length_toDigits_pos
  have short : (Nat.toDigits 16 (group : Nat)).length ≤ 4 :=
    (Nat.length_toDigits_le_iff (by decide) (by decide)).mpr group.isLt
  have all : (Nat.toDigits 16 (group : Nat)).all isHexDigit = true :=
    List.all_eq_true.mpr fun c => isHexDigit_toDigits
  rw [parseGroup, hexValue_toDigits, all, decide_eq_true positive, decide_eq_true short]
  simp [Fin.ofNat_eq_cast]

theorem isHexDigit_of_parseGroup {group : Fin 65536} (parsed : parseGroup part = some group) :
    ∀ c ∈ part, isHexDigit c = true := by
  unfold parseGroup at parsed
  split at parsed
  next ok =>
    rw [Bool.and_eq_true] at ok
    exact List.all_eq_true.mp ok.2
  next => cases parsed

end Numbers

section Dotted

variable {chars : List Char} {parts : List Nat} {c : Char} {ip : Ipv4Addr}

theorem dotted_eq_some (read : dotted chars = some parts) :
    (chars.splitOn '.').length = 4 ∧ ∀ part ∈ chars.splitOn '.', isOctetText part = true := by
  simp only [dotted] at read
  split at read
  next ok => simpa using ok
  next => cases read

theorem isDigit_of_isOctetText {part : List Char} (text : isOctetText part = true) :
    part ≠ [] ∧ ∀ c ∈ part, c.isDigit = true := by
  simp only [isOctetText, Bool.and_eq_true, decide_eq_true_eq, List.all_eq_true] at text
  exact ⟨List.ne_nil_of_length_pos text.1.1, text.2⟩

theorem dotted_chars (read : dotted chars = some parts) : ∀ c ∈ chars, c.isDigit = true ∨ c = '.' := by
  intro c member
  rcases mem_part '.' member with dot | ⟨part, listed, inside⟩
  · exact .inr dot
  · exact .inl ((isDigit_of_isOctetText ((dotted_eq_some read).2 part listed)).2 c inside)

theorem isDigit_of_dotted_cons {rest : List Char} (read : dotted (c :: rest) = some parts) :
    c.isDigit = true := by
  have texts := (dotted_eq_some read).2
  by_contra other
  have dot : c = '.' := (dotted_chars read c List.mem_cons_self).resolve_left other
  subst dot
  have empty : [] ∈ ('.' :: rest).splitOn '.' := by
    have first := List.splitOn_append_cons_self (a := '.') [] rest
    rw [List.nil_append] at first
    rw [first]
    simp
  exact (isDigit_of_isOctetText (texts [] empty)).1 rfl

theorem octet_text (octet : Fin 256) : isOctetText (Nat.toDigits 10 octet) = true ∧
    Nat.ofDigitChars 10 (Nat.toDigits 10 octet) 0 = octet := by
  have positive : 1 ≤ (Nat.toDigits 10 (octet : Nat)).length := Nat.length_toDigits_pos
  have short : (Nat.toDigits 10 (octet : Nat)).length ≤ 3 :=
    (Nat.length_toDigits_le_iff (by decide) (by decide)).mpr (octet.isLt.trans (by decide))
  have all : (Nat.toDigits 10 (octet : Nat)).all Char.isDigit = true :=
    List.all_eq_true.mpr fun c => Nat.isDigit_of_mem_toDigits (by decide) (by decide)
  rw [isOctetText, all, decide_eq_true positive, decide_eq_true short]
  exact ⟨rfl, Nat.ofDigitChars_ten_toDigits⟩

theorem dotted_text (ip : Ipv4Addr) : dotted ip.text = some ip.octets := by
  have parts : ip.text.splitOn '.' = ip.octets.map (Nat.toDigits 10) := by
    refine List.splitOn_intercalate '.' (fun part member dot => ?_) (by simp [Ipv4Addr.octets])
    obtain ⟨octet, -, rfl⟩ := List.mem_map.mp member
    have digit := Nat.isDigit_of_mem_toDigits (by decide) (by decide) dot
    exact absurd digit (by decide)
  simp [dotted, parts, Ipv4Addr.octets, octet_text]

theorem toBytes_octets (ip : Ipv4Addr) : toBytes ip.octets = some ip := by
  simp [toBytes, Ipv4Addr.octets]

theorem octets_of_toBytes (read : toBytes parts = some ip) : parts = ip.octets := by
  unfold toBytes at read
  split at read
  next =>
    split at read
    · cases read
      rfl
    · cases read
  next => cases read

end Dotted

section Groups

variable {input ahead first second side : List Char} {parts : List Nat} {c : Char} {ip : Ipv6Addr}

theorem dottedTail_eq_some (found : dottedTail input = some (ahead, parts)) :
    ∃ tail, input = ahead ++ tail ∧ dotted tail = some parts := by
  induction input generalizing ahead with
  | nil => cases found
  | cons c rest ih =>
      unfold dottedTail at found
      split at found
      next read =>
        cases found
        exact ⟨c :: rest, rfl, read⟩
      next =>
        obtain ⟨⟨before, more⟩, inner, same⟩ := Option.map_eq_some_iff.mp found
        cases same
        obtain ⟨tail, whole, read⟩ := ih inner
        exact ⟨tail, by rw [whole, List.cons_append], read⟩

theorem dottedTail_append (other : ∀ c ∈ ahead, c.isDigit = false) (read : dotted input = some parts)
    : dottedTail (ahead ++ input) = some (ahead, parts) := by
  induction ahead with
  | nil =>
      cases input with
      | nil => cases read
      | cons c rest => rw [List.nil_append, dottedTail, read]
  | cons c rest ih =>
      obtain ⟨first, others⟩ := List.forall_mem_cons.mp other
      have none_ : dotted (c :: (rest ++ input)) = none := by
        rw [Option.eq_none_iff_forall_ne_some]
        intro parts found
        rw [isDigit_of_dotted_cons found] at first
        cases first
      rw [List.cons_append, dottedTail, none_, ih others]
      rfl

theorem dotted_eq_none (plain : '.' ∉ input) : dotted input = none := by
  rw [Option.eq_none_iff_forall_ne_some]
  intro parts found
  have four := (dotted_eq_some found).1
  rw [List.splitOn_eq_singleton plain] at four
  cases four

theorem dottedTail_eq_none (plain : '.' ∉ input) : dottedTail input = none := by
  rw [Option.eq_none_iff_forall_ne_some]
  rintro ⟨ahead, parts⟩ found
  obtain ⟨tail, rfl, read⟩ := dottedTail_eq_some found
  rw [dotted_eq_none fun dot => plain (List.mem_append_right _ dot)] at read
  cases read

theorem splitDouble_eq_some (found : splitDouble input = some (first, second)) :
    input = first ++ ':' :: ':' :: second := by
  induction input using splitDouble.induct generalizing first with
  | case1 rest =>
      rw [splitDouble] at found
      cases found
      rfl
  | case2 c rest other ih =>
      rw [splitDouble] at found
      · obtain ⟨⟨left, right⟩, inner, same⟩ := Option.map_eq_some_iff.mp found
        cases same
        rw [ih inner, List.cons_append]
      · exact other
  | case3 => cases found

/-- Between two colons in a row there is an empty group. -/
theorem splitDouble_eq_none (groups : [] ∉ input.splitOn ':') : splitDouble input = none := by
  rw [Option.eq_none_iff_forall_ne_some]
  rintro ⟨first, second⟩ found
  refine groups ?_
  rw [splitDouble_eq_some found, List.splitOn_append_cons_self,
    ← List.nil_append (':' :: second), List.splitOn_append_cons_self]
  simp

theorem mem_groupsOf (member : c ∈ side) : c = ':' ∨ ∃ part ∈ groupsOf side, c ∈ part := by
  rw [groupsOf, if_neg (List.ne_nil_of_mem member)]
  exact mem_part ':' member

theorem isHexDigit_of_mapM {groups : List (List Char)} {values : List (Fin 65536)}
    (read : groups.mapM parseGroup = some values) :
    ∀ part ∈ groups, ∀ c ∈ part, isHexDigit c = true := by
  induction groups generalizing values with
  | nil => exact fun part member => absurd member List.not_mem_nil
  | cons first rest ih =>
      rw [List.mapM_cons] at read
      obtain ⟨group, parsed, more⟩ := Option.bind_eq_some_iff.mp read
      obtain ⟨others, rest_, -⟩ := Option.bind_eq_some_iff.mp more
      exact List.forall_mem_cons.mpr ⟨isHexDigit_of_parseGroup parsed, ih rest_⟩

theorem isHexDigit_of_parseGroups {groups : List (List Char)} (read : parseGroups groups = some ip) :
    ∀ part ∈ groups, ∀ c ∈ part, isHexDigit c = true := by
  obtain ⟨values, parsed, -⟩ := Option.bind_eq_some_iff.mp read
  exact isHexDigit_of_mapM parsed

theorem expandGroups_chars (read : expandGroups input = some ip) :
    ∀ c ∈ input, c = ':' ∨ isHexDigit c = true := by
  intro c member
  unfold expandGroups at read
  split at read
  next =>
    simp only at read
    split at read
    · cases read
    · rcases mem_groupsOf member with colon | ⟨part, listed, inside⟩
      · exact .inl colon
      · exact .inr (isHexDigit_of_parseGroups read part listed c inside)
  next first second sides =>
    simp only at read
    split at read
    · cases read
    split at read
    · cases read
    have hex := isHexDigit_of_parseGroups read
    have side {text : List Char} (listed : ∀ part ∈ groupsOf text, ∀ c ∈ part, isHexDigit c = true)
        (inside : c ∈ text) : c = ':' ∨ isHexDigit c = true := by
      rcases mem_groupsOf inside with colon | ⟨part, there, char⟩
      · exact .inl colon
      · exact .inr (listed part there c char)
    rw [splitDouble_eq_some sides] at member
    rcases List.mem_append.mp member with left | colons
    · exact side (fun part there => hex part (by simp [there])) left
    · rcases List.mem_cons.mp colons with colon | more
      · exact .inl colon
      · rcases List.mem_cons.mp more with colon | right
        · exact .inl colon
        · exact side (fun part there => hex part (by simp [there])) right

/-- Only hexadecimal digits, colons and dots are in the text of an address. -/
theorem expandIpv6_chars (read : expandIpv6 input = some ip) :
    ∀ c ∈ input, c = ':' ∨ isHexDigit c = true ∨ c = '.' := by
  intro c member
  unfold expandIpv6 at read
  split at read
  next => exact (expandGroups_chars read c member).imp_right .inl
  next ahead parts found =>
    obtain ⟨tail, rfl, tailRead⟩ := dottedTail_eq_some found
    split at read
    · cases read
    next v4 bytes =>
      rcases List.mem_append.mp member with front | back
      · exact (expandGroups_chars read c (by simp [front])).imp_right .inl
      · rcases dotted_chars tailRead c back with digit | dot
        · exact .inr (.inl (by simp [isHexDigit, digit]))
        · exact .inr (.inr dot)

theorem not_mem_toDigits {n : Nat} {sep : Char} (other : isHexDigit sep = false) :
    sep ∉ Nat.toDigits 16 n := by
  intro member
  rw [isHexDigit_toDigits member] at other
  cases other

theorem splitOn_text (ip : Ipv6Addr) :
    ip.text.splitOn ':' = ip.segments.map fun group => Nat.toDigits 16 group := by
  refine List.splitOn_intercalate ':' (fun part member => ?_) (by simp [Ipv6Addr.segments])
  obtain ⟨group, -, rfl⟩ := List.mem_map.mp member
  exact not_mem_toDigits (by decide)

theorem text_chars (member : c ∈ ip.text) : c = ':' ∨ isHexDigit c = true := by
  rcases mem_intercalate member with colon | ⟨part, listed, inside⟩
  · exact .inl colon
  · obtain ⟨group, -, rfl⟩ := List.mem_map.mp listed
    exact .inr (isHexDigit_toDigits inside)

theorem dot_not_mem_text (ip : Ipv6Addr) : '.' ∉ ip.text := fun dot =>
  absurd (text_chars dot) (by decide)

/-- An address has a spelling. -/
theorem expandIpv6_text (ip : Ipv6Addr) : expandIpv6 ip.text = some ip := by
  have full : [] ∉ ip.text.splitOn ':' := by
    rw [splitOn_text]
    intro empty
    obtain ⟨group, -, none_⟩ := List.mem_map.mp empty
    exact Nat.toDigits_ne_nil none_
  have some_ : ip.text ≠ [] := by
    intro empty
    have parts := splitOn_text ip
    rw [empty] at parts
    exact absurd (congrArg List.length parts) (by simp [Ipv6Addr.segments])
  rw [expandIpv6, dottedTail_eq_none (dot_not_mem_text ip), expandGroups, splitDouble_eq_none full]
  simp [groupsOf, some_, splitOn_text, Ipv6Addr.segments, parseGroups, parseGroup_toDigits, toGroups]

/-- The value of two bytes. -/
def pair (high low : Fin 256) : Fin 65536 := ⟨256 * high + low, by omega⟩

theorem pairText_eq (high low : Fin 256) : pairText high low = Nat.toDigits 16 (pair high low) := by
  rw [pairText, ← Nat.shiftLeft_add_eq_or_of_lt low.isLt, Nat.shiftLeft_eq]
  exact congrArg (Nat.toDigits 16) (by simp [pair, Nat.mul_comm])

/-- The address that maps an IPv4 address. -/
def mapped (ip : Ipv4Addr) : Ipv6Addr := ⟨0, 0, 0, 0, 0, 0xffff, pair ip.a ip.b, pair ip.c ip.d⟩

/-- `::ffff:` -/
def mappedFront : List Char := [':', ':', 'f', 'f', 'f', 'f', ':']

theorem expandIpv6_mapped {v4 : Ipv4Addr} (read : dotted input = some parts)
    (bytes : toBytes parts = some v4) : expandIpv6 (mappedFront ++ input) = some (mapped v4) := by
  have tail : dottedTail (mappedFront ++ input) = some (mappedFront, parts) :=
    dottedTail_append (by simp [mappedFront]) read
  have colon : isHexDigit ':' = false := by decide
  have groups : ('f' :: 'f' :: 'f' :: 'f' :: ':' :: (Nat.toDigits 16 (pair v4.a v4.b) ++
      ':' :: Nat.toDigits 16 (pair v4.c v4.d))).splitOn ':' =
        [['f', 'f', 'f', 'f'], Nat.toDigits 16 (pair v4.a v4.b), Nat.toDigits 16 (pair v4.c v4.d)] := by
    refine (List.splitOn_append_cons_self ['f', 'f', 'f', 'f'] _).trans ?_
    rw [List.splitOn_append_cons_self, List.splitOn_eq_singleton (not_mem_toDigits colon),
      List.splitOn_eq_singleton (not_mem_toDigits colon), List.splitOn_eq_singleton (by decide)]
    rfl
  have single : splitDouble ('f' :: 'f' :: 'f' :: 'f' :: ':' :: (Nat.toDigits 16 (pair v4.a v4.b) ++
      ':' :: Nat.toDigits 16 (pair v4.c v4.d))) = none := by
    refine splitDouble_eq_none ?_
    rw [groups]
    simp
  have zero : parseGroup ['0'] = some 0 := by decide
  have ones : parseGroup ['f', 'f', 'f', 'f'] = some 0xffff := by decide +kernel
  rw [expandIpv6, tail]
  simp only [bytes, pairText_eq, mappedFront, List.cons_append, List.nil_append, expandGroups]
  rw [splitDouble]
  simp only [single, groupsOf, groups, Option.isSome_none, Bool.false_eq_true, if_false]
  simp [parseGroups, zero, ones, parseGroup_toDigits, toGroups, List.replicate, mapped]

end Groups

end NieSla.Hosts
