import NieSla.Hosts.Address

/-! The Worker's test of a host it is about to call: the host is stripped to an address or a name, and
whatever is not plainly public is private. -/
namespace NieSla.Hosts

def isPrivateIpv4 (ip : Ipv4Addr) : Bool :=
  let a := ip.a.val
  let b := ip.b.val
  let c := ip.c.val
  if a = 10 || a = 127 || a = 0 then true
  else if a = 169 && b = 254 then true
  else if a = 172 && 16 ≤ b && b ≤ 31 then true
  else if a = 192 && b = 0 && c = 0 then true
  else if a = 192 && b = 0 && c = 2 then true
  else if a = 192 && b = 88 && c = 99 then true
  else if a = 192 && b = 168 then true
  else if a = 198 && (b = 18 || b = 19) then true
  else if a = 198 && b = 51 && c = 100 then true
  else if a = 203 && b = 0 && c = 113 then true
  else if a = 100 && 64 ≤ b && b ≤ 127 then true
  else 224 ≤ a

/-- The groups that are private whatever they embed. -/
def isReservedIpv6 (ip : Ipv6Addr) : Bool :=
  if ip.g0.val = 0 && ip.g1.val = 0 && ip.g2.val = 0 && ip.g3.val = 0 && ip.g4.val = 0 && ip.g5.val = 0 && ip.g6.val = 0 &&
      (ip.g7.val = 0 || ip.g7.val = 1) then true
  else if ip.g0.val &&& 0xfe00 = 0xfc00 || ip.g0.val &&& 0xffc0 = 0xfe80 then true
  else if ip.g0.val &&& 0xff00 = 0xff00 then true
  else if ip.g0.val = 0x0100 && (ip.g1.val = 0 && ip.g2.val = 0 && ip.g3.val = 0) then true
  else if ip.g0.val = 0x2001 && ip.g1.val = 0x0db8 then true
  else if ip.g0.val = 0x2002 then true
  else ip.g0.val = 0x0064 && ip.g1.val = 0xff9b &&
    (ip.g2.val = 1 || (ip.g2.val = 0 && ip.g3.val = 0 && ip.g4.val = 0 && ip.g5.val = 0))

/-- `mappedV4 || compatibleV4` -/
def embedsIpv4 (ip : Ipv6Addr) : Bool :=
  (ip.g0.val = 0 && ip.g1.val = 0 && ip.g2.val = 0 && ip.g3.val = 0 && ip.g4.val = 0 && ip.g5.val = 0xffff) ||
  (ip.g0.val = 0 && ip.g1.val = 0 && ip.g2.val = 0 && ip.g3.val = 0 && ip.g4.val = 0 && ip.g5.val = 0)

/-- `${groups[6] >> 8}.${groups[6] & 255}.${groups[7] >> 8}.${groups[7] & 255}` -/
def embeddedText (ip : Ipv6Addr) : List Char :=
  ['.'].intercalate ([ip.g6.val >>> 8, ip.g6.val &&& 255, ip.g7.val >>> 8, ip.g7.val &&& 255].map
    (Nat.toDigits 10))

def isLabelEnd (c : Char) : Bool := c.isLower || c.isDigit || c = '_'

/-- `[a-z0-9_](?:[a-z0-9_-]{0,61}[a-z0-9_])?` -/
def isLabel (label : List Char) : Bool :=
  1 ≤ label.length && label.length ≤ 63 && label.head?.any isLabelEnd &&
    label.getLast?.any isLabelEnd && label.all fun c => isLabelEnd c || c = '-'

/-- What is left for a name. -/
def isPrivateName (hostname : List Char) : Bool :=
  if hostname.all fun c => c.isDigit || c = '.' then true
  else if (hostname.splitOn '.').any fun label => ['0', 'x'].isPrefixOf label then true
  else if 253 < hostname.length then true
  else !(hostname.splitOn '.').all isLabel

/-- `/^::ffff:(\d{1,3}(?:\.\d{1,3}){3})$/i` -/
def mappedTail (hostname : List Char) : Option (List Char) :=
  if mappedFront.isPrefixOf hostname && (dotted (hostname.drop mappedFront.length)).isSome then
    some (hostname.drop mappedFront.length)
  else none

/-- Brackets, zone and dots at the end are taken off. -/
def hostnameOf (raw : List Char) : List Char :=
  let inner := if raw.head? = some '[' && raw.getLast? = some ']' then raw.tail.dropLast else raw
  (inner.takeWhile (· ≠ '%')).rdropWhile (· = '.')

def isLocalName (hostname : List Char) : Bool :=
  hostname = "localhost".toList || ".localhost".toList.isSuffixOf hostname ||
    ".local".toList.isSuffixOf hostname || hostname = "0.0.0.0".toList

/-- `isPrivateHost`, with the call that it makes for an embedded address. -/
def isPrivateHostWith (again : List Char → Bool) (host : List Char) : Bool :=
  let raw := (trimChars host).flatMap lowerChar
  let hostname := hostnameOf raw
  if raw = [] || hostname = [] then true
  else if isLocalName hostname then true
  else match mappedTail hostname with
  | some ipv4 => again ipv4
  | none =>
      match dotted hostname with
      | some parts => (toBytes parts).all isPrivateIpv4
      | none =>
          if ':' ∈ hostname then
            match expandIpv6 hostname with
            | none => true
            | some groups =>
                if isReservedIpv6 groups then true
                else if embedsIpv4 groups then again (embeddedText groups)
                else false
          else isPrivateName hostname

/-- An embedded address embeds no other, so that the call is made once at most. -/
def isPrivateHost (host : String) : Bool :=
  isPrivateHostWith (isPrivateHostWith fun _ => true) host.toList

/-- The address that the parser of the Worker reads from a host. -/
def readAddress (host : String) : Option IpAddr :=
  let hostname := hostnameOf ((trimChars host.toList).flatMap lowerChar)
  match dotted hostname with
  | some parts => (toBytes parts).map .v4
  | none => if ':' ∈ hostname then (expandIpv6 hostname).map .v6 else none

/-- The IPv4 address of two groups. -/
def ofGroups (high low : Fin 65536) : Ipv4Addr :=
  ⟨⟨high / 256, by omega⟩, ⟨high % 256, by omega⟩, ⟨low / 256, by omega⟩, ⟨low % 256, by omega⟩⟩

/-- The test on the address itself. -/
def isPrivateAddress : IpAddr → Bool
  | .v4 ip => isPrivateIpv4 ip
  | .v6 ip => isReservedIpv6 ip || (embedsIpv4 ip && isPrivateIpv4 (ofGroups ip.g6 ip.g7))

section Plain

variable {chars hostname : List Char} {parts : List Nat} {c : Char} {again : List Char → Bool}

theorem allowed_of_hex (hex : isHexDigit c = true) : allowedChar c = true := by
  simp only [isHexDigit, Bool.or_eq_true, Bool.and_eq_true, decide_eq_true_eq] at hex
  simp only [allowedChar, Bool.or_eq_true, decide_eq_true_eq, Char.isLower, Bool.and_eq_true]
  rcases hex with digit | ⟨from_, upTo⟩
  · simp [digit]
  · have below : c.val ≤ 'z'.val := le_trans upTo (by decide)
    exact .inl (.inl (.inl (.inl (.inl ⟨from_, below⟩))))

theorem isSpace_of_allowed (allowed : allowedChar c = true) : isSpace c = false := by
  have range := range_of_allowed allowed
  by_contra space
  simp only [Bool.not_eq_false, isSpace, List.contains_cons, List.contains_nil, Bool.or_false,
    Bool.or_eq_true, beq_iff_eq, ← UInt32.toNat_inj, Bool.and_eq_true, decide_eq_true_eq,
    UInt32.le_iff_toNat_le, UInt32.reduceToNat] at space
  omega

theorem trimChars_eq_self (all : ∀ c ∈ chars, isSpace c = false) : trimChars chars = chars := by
  have front : chars.dropWhile isSpace = chars := by
    cases chars with
    | nil => rfl
    | cons c rest => rw [List.dropWhile_cons_of_neg (by simp [all c])]
  rw [trimChars, front]
  refine List.rdropWhile_eq_self_iff.mpr fun some_ => ?_
  rw [all _ (List.getLast_mem some_)]
  exact Bool.false_ne_true

/-- The text of an address is not changed before it is read. -/
theorem hostnameOf_plain (all : ∀ c ∈ chars, allowedChar c = true) (closed : chars.getLast? ≠ some '.') :
    hostnameOf ((trimChars chars).flatMap lowerChar) = chars := by
  rw [trimChars_eq_self fun c member => isSpace_of_allowed (all c member), flatMap_lowerChar all,
    hostnameOf, if_neg]
  · have whole : chars.takeWhile (· ≠ '%') = chars := by
      refine List.takeWhile_eq_self_iff.mpr fun c member => decide_eq_true ?_
      rintro rfl
      exact absurd (all _ member) (by decide)
    rw [whole]
    refine List.rdropWhile_eq_self_iff.mpr fun some_ dot => closed ?_
    rw [List.getLast?_eq_some_getLast some_, of_decide_eq_true dot]
  · intro brackets
    rw [Bool.and_eq_true] at brackets
    exact absurd (all '[' (List.mem_of_head? (of_decide_eq_true brackets.1))) (by decide)

theorem getLast?_of_dotted (read : dotted chars = some parts) : chars.getLast? ≠ some '.' := by
  intro last
  obtain ⟨before, rfl⟩ := List.getLast?_eq_some_iff.mp last
  have empty : [] ∈ (before ++ ['.']).splitOn '.' := by
    rw [List.splitOn_append_cons_self]
    simp
  exact (isDigit_of_isOctetText ((dotted_eq_some read).2 [] empty)).1 rfl

theorem hostnameOf_dotted (read : dotted chars = some parts) :
    hostnameOf ((trimChars chars).flatMap lowerChar) = chars := by
  refine hostnameOf_plain (fun c member => ?_) (getLast?_of_dotted read)
  rcases dotted_chars read c member with digit | rfl
  · simp [allowedChar, digit]
  · rfl

theorem isLocalName_eq_false (plain : 'l' ∉ hostname) (zero : hostname ≠ "0.0.0.0".toList) :
    isLocalName hostname = false := by
  have absent (name : List Char) (member : 'l' ∈ name) : name.isSuffixOf hostname = false := by
    refine Bool.eq_false_iff.mpr fun suffix => plain ?_
    exact (List.isSuffixOf_iff_suffix.mp suffix).subset member
  rw [isLocalName, absent _ (by decide +kernel), absent _ (by decide +kernel), decide_eq_false zero,
    decide_eq_false]
  · rfl
  · rintro rfl
    exact plain (by decide +kernel)

theorem mappedTail_of_dotted (read : dotted hostname = some parts) : mappedTail hostname = none := by
  rw [mappedTail, if_neg]
  intro both
  rw [Bool.and_eq_true, List.isPrefixOf_iff_prefix] at both
  obtain ⟨rest, rfl⟩ := both.1
  exact absurd (isDigit_of_dotted_cons read) (by decide)

theorem isPrivateIpv4_of_dotted (read : dotted "0.0.0.0".toList = some parts) :
    (toBytes parts).all isPrivateIpv4 = true := by
  have zeros : dotted "0.0.0.0".toList = some [0, 0, 0, 0] := by decide +kernel
  rw [zeros] at read
  cases read
  decide

/-- Four numbers are judged by themselves. -/
theorem isPrivateHostWith_dotted (same : hostnameOf ((trimChars chars).flatMap lowerChar) = hostname)
    (read : dotted hostname = some parts) :
    isPrivateHostWith again chars = (toBytes parts).all isPrivateIpv4 := by
  have some_ : hostname ≠ [] := by
    rintro rfl
    cases read
  have raw : (trimChars chars).flatMap lowerChar ≠ [] := by
    intro empty
    rw [empty] at same
    exact some_ same.symm
  have plain : 'l' ∉ hostname := by
    intro member
    exact absurd (dotted_chars read 'l' member) (by decide)
  rw [isPrivateHostWith]
  simp only [same, mappedTail_of_dotted read, read, decide_eq_false raw, decide_eq_false some_,
    Bool.or_false, Bool.false_eq_true, if_false]
  by_cases zero : hostname = "0.0.0.0".toList
  · rw [zero] at read
    rw [isPrivateIpv4_of_dotted read]
    exact ite_self _
  · rw [isLocalName_eq_false plain zero, if_neg Bool.false_ne_true]

end Plain

section Spellings

variable {chars hostname text : List Char} {parts : List Nat} {again : List Char → Bool}
  {ip : Ipv6Addr} {v4 : Ipv4Addr} {host : String} {address : IpAddr}

@[simp] theorem ofGroups_pair (ip : Ipv4Addr) : ofGroups (pair ip.a ip.b) (pair ip.c ip.d) = ip := by
  have high (first second : Fin 256) : (256 * first.val + second.val) / 256 = first := by omega
  have low (first second : Fin 256) : (256 * first.val + second.val) % 256 = second := by omega
  simp [ofGroups, pair, high, low]

theorem embeddedText_eq (ip : Ipv6Addr) : embeddedText ip = (ofGroups ip.g6 ip.g7).text := by
  have high (group : Fin 65536) : group.val >>> 8 = group.val / 256 := Nat.shiftRight_eq_div_pow _ 8
  have low (group : Fin 65536) : group.val &&& 255 = group.val % 256 :=
    Nat.and_two_pow_sub_one_eq_mod group.val 8
  simp [embeddedText, Ipv4Addr.text, Ipv4Addr.octets, ofGroups, high, low]

theorem isPrivateAddress_mapped (v4 : Ipv4Addr) :
    isPrivateAddress (.v6 (mapped v4)) = isPrivateIpv4 v4 := by
  simp [isPrivateAddress, mapped, isReservedIpv6, embedsIpv4]

theorem mappedTail_eq_some (found : mappedTail hostname = some text) :
    hostname = mappedFront ++ text ∧ ∃ parts, dotted text = some parts := by
  unfold mappedTail at found
  split at found
  next both =>
    cases found
    rw [Bool.and_eq_true, List.isPrefixOf_iff_prefix] at both
    obtain ⟨rest, rfl⟩ := both.1
    rw [List.drop_left] at both ⊢
    exact ⟨rfl, Option.isSome_iff_exists.mp both.2⟩
  next => cases found

/-- A mapped address is read through its dots, or through its groups. -/
theorem eq_mapped (read : expandIpv6 (mappedFront ++ text) = some ip) (dots : dotted text = some parts) :
    ∃ v4, toBytes parts = some v4 ∧ ip = mapped v4 := by
  cases bytes : toBytes parts with
  | none =>
      have tail : dottedTail (mappedFront ++ text) = some (mappedFront, parts) :=
        dottedTail_append (by simp [mappedFront]) dots
      rw [expandIpv6, tail] at read
      simp [bytes] at read
  | some v4 =>
      rw [expandIpv6_mapped dots bytes] at read
      exact ⟨v4, rfl, (Option.some.inj read).symm⟩

/-- Groups are judged by their values. -/
theorem isPrivateHostWith_groups
    (embedded : ∀ text parts, dotted text = some parts → again text = (toBytes parts).all isPrivateIpv4)
    (same : hostnameOf ((trimChars chars).flatMap lowerChar) = hostname) (colon : ':' ∈ hostname)
    (plain : dotted hostname = none) (read : expandIpv6 hostname = some ip) :
    isPrivateHostWith again chars = isPrivateAddress (.v6 ip) := by
  have some_ : hostname ≠ [] := List.ne_nil_of_mem colon
  have raw : (trimChars chars).flatMap lowerChar ≠ [] := by
    intro empty
    rw [empty] at same
    exact some_ same.symm
  have local_ : isLocalName hostname = false := by
    refine isLocalName_eq_false (fun member => ?_) ?_
    · exact absurd (expandIpv6_chars read 'l' member) (by decide)
    · rintro rfl
      exact absurd colon (by decide +kernel)
  rw [isPrivateHostWith]
  simp only [same, local_, plain, read, decide_eq_false raw, decide_eq_false some_, colon,
    Bool.or_false, Bool.false_eq_true, if_false, if_true]
  cases found : mappedTail hostname with
  | some text =>
      obtain ⟨whole, parts, dots⟩ := mappedTail_eq_some found
      subst whole
      obtain ⟨v4, bytes, rfl⟩ := eq_mapped read dots
      simp only
      rw [embedded text parts dots, bytes, isPrivateAddress_mapped]
      rfl
  | none =>
      simp only [isPrivateAddress]
      cases isReservedIpv6 ip with
      | true => rfl
      | false =>
          rw [if_neg Bool.false_ne_true, embeddedText_eq, embedded _ _ (dotted_text _), toBytes_octets]
          cases embedsIpv4 ip <;> rfl

/-- The answer for a host that spells an address is the answer for the address. -/
theorem isPrivateHost_of_read (read : readAddress host = some address) :
    isPrivateHost host = isPrivateAddress address := by
  have embedded (text : List Char) (parts : List Nat) (dots : dotted text = some parts) :
      isPrivateHostWith (fun _ => true) text = (toBytes parts).all isPrivateIpv4 :=
    isPrivateHostWith_dotted (hostnameOf_dotted dots) dots
  simp only [readAddress] at read
  split at read
  next parts dots =>
    obtain ⟨ip, bytes, same⟩ := Option.map_eq_some_iff.mp read
    cases same
    rw [isPrivateHost, isPrivateHostWith_dotted rfl dots, bytes]
    rfl
  next plain =>
    split at read
    next colon =>
      obtain ⟨ip, groups, same⟩ := Option.map_eq_some_iff.mp read
      cases same
      exact isPrivateHostWith_groups embedded rfl colon plain groups
    next => cases read

/-- Each address is spelled by its groups. -/
theorem readAddress_text (ip : Ipv6Addr) : readAddress (String.ofList ip.text) = some (.v6 ip) := by
  have colon : ':' ∈ ip.text := by
    by_contra absent
    have parts := splitOn_text ip
    rw [List.splitOn_eq_singleton absent] at parts
    exact absurd (congrArg List.length parts) (by simp [Ipv6Addr.segments])
  have kept : hostnameOf ((trimChars ip.text).flatMap lowerChar) = ip.text := by
    refine hostnameOf_plain (fun c member => ?_) fun last => ?_
    · rcases text_chars member with rfl | hex
      · decide
      · exact allowed_of_hex hex
    · exact dot_not_mem_text ip (List.mem_of_getLast? last)
  simp only [readAddress, String.toList_ofList, kept, dotted_eq_none (dot_not_mem_text ip), colon,
    if_true, expandIpv6_text, Option.map_some]

end Spellings

end NieSla.Hosts
