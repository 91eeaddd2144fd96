import NieSla.Hosts.Private

/-! The agent's test of the addresses that a download resolves to, beside the one of the Worker. -/
namespace NieSla.Hosts

section Std

def Ipv4Addr.isPrivate (ip : Ipv4Addr) : Bool :=
  ip.a.val = 10 || (ip.a.val = 172 && 16 ≤ ip.b.val && ip.b.val ≤ 31) || (ip.a.val = 192 && ip.b.val = 168)

def Ipv4Addr.isLoopback (ip : Ipv4Addr) : Bool := ip.a.val = 127
def Ipv4Addr.isLinkLocal (ip : Ipv4Addr) : Bool := ip.a.val = 169 && ip.b.val = 254
def Ipv4Addr.isUnspecified (ip : Ipv4Addr) : Bool := ip = ⟨0, 0, 0, 0⟩
def Ipv4Addr.isMulticast (ip : Ipv4Addr) : Bool := 224 ≤ ip.a.val && ip.a.val ≤ 239
def Ipv4Addr.isBroadcast (ip : Ipv4Addr) : Bool := ip = ⟨255, 255, 255, 255⟩

def Ipv6Addr.isMulticast (ip : Ipv6Addr) : Bool := ip.g0.val &&& 0xff00 = 0xff00
def Ipv6Addr.isUniqueLocal (ip : Ipv6Addr) : Bool := ip.g0.val &&& 0xfe00 = 0xfc00
def Ipv6Addr.isUnicastLinkLocal (ip : Ipv6Addr) : Bool := ip.g0.val &&& 0xffc0 = 0xfe80

/-- The IPv4 address of a mapped or compatible one. -/
def Ipv6Addr.toIpv4 (ip : Ipv6Addr) : Option Ipv4Addr :=
  if ip.g0.val = 0 && ip.g1.val = 0 && ip.g2.val = 0 && ip.g3.val = 0 && ip.g4.val = 0 && (ip.g5.val = 0 || ip.g5.val = 0xffff) then
    some (ofGroups ip.g6 ip.g7)
  else none

end Std

def isRestrictedIpv4 (ip : Ipv4Addr) : Bool :=
  ip.isPrivate || ip.isLoopback || ip.isLinkLocal || ip.isUnspecified || ip.isMulticast ||
    ip.isBroadcast || ip.a.val = 0 || 240 ≤ ip.a.val || (ip.a.val = 100 && (64 ≤ ip.b.val && ip.b.val ≤ 127)) ||
    (ip.a.val = 169 && ip.b.val = 254) || (ip.a.val = 192 && ip.b.val = 0) || (ip.a.val = 192 && ip.b.val = 2) ||
    (ip.a.val = 192 && ip.b.val = 88 && ip.c.val = 99) || (ip.a.val = 198 && (18 ≤ ip.b.val && ip.b.val ≤ 19)) ||
    (ip.a.val = 198 && ip.b.val = 51 && ip.c.val = 100) || (ip.a.val = 203 && ip.b.val = 0 && ip.c.val = 113)

def isRestrictedIp : IpAddr → Bool
  | .v4 ip => isRestrictedIpv4 ip
  | .v6 ip =>
      ip.isLoopback || ip.isUnspecified || ip.isMulticast || ip.isUniqueLocal ||
        ip.isUnicastLinkLocal || (ip.g0.val = 0x2001 && ip.g1.val = 0x0db8) || ip.toIpv4.any isRestrictedIpv4

/-- The ways in which an address carries an IPv4 address. -/
inductive Embeds : IpAddr → Ipv4Addr → Prop
  | mapped (ip : Ipv6Addr) (front : ip.g0.val = 0 ∧ ip.g1.val = 0 ∧ ip.g2.val = 0 ∧ ip.g3.val = 0 ∧
      ip.g4.val = 0 ∧ ip.g5.val = 0xffff) : Embeds (.v6 ip) (ofGroups ip.g6 ip.g7)
  | compatible (ip : Ipv6Addr) (front : ip.g0.val = 0 ∧ ip.g1.val = 0 ∧ ip.g2.val = 0 ∧
      ip.g3.val = 0 ∧ ip.g4.val = 0 ∧ ip.g5.val = 0) : Embeds (.v6 ip) (ofGroups ip.g6 ip.g7)
  | sixToFour (ip : Ipv6Addr) (front : ip.g0.val = 0x2002) : Embeds (.v6 ip) (ofGroups ip.g1 ip.g2)
  | nat64 (ip : Ipv6Addr) (front : ip.g0.val = 0x64 ∧ ip.g1.val = 0xff9b ∧ ip.g2.val = 0 ∧
      ip.g3.val = 0 ∧ ip.g4.val = 0 ∧ ip.g5.val = 0) : Embeds (.v6 ip) (ofGroups ip.g6 ip.g7)

/-- The Worker rejects some spelling. -/
def Rejected (address : IpAddr) : Prop :=
  ∃ host, readAddress host = some address ∧ isPrivateHost host = true

/-- What both tests owe to an address. -/
structure ClassifiedAlike (address : IpAddr) : Prop where
  spellings : ∀ first second, readAddress first = some address → readAddress second = some address →
    isPrivateHost first = isPrivateHost second
  restricted : Rejected address → isRestrictedIp address = true
  embedded : ∀ ip, Embeds address ip → Rejected (.v4 ip) →
    (∀ host, readAddress host = some address → isPrivateHost host = true) ∧
      isRestrictedIp address = true

/-- The prefixes that only the Worker knows: `100::/64`, 6to4 and both of NAT64. -/
def overlooked : IpAddr → Bool
  | .v4 _ => false
  | .v6 ip =>
      (ip.g0.val = 0x100 && ip.g1.val = 0 && ip.g2.val = 0 && ip.g3.val = 0) || ip.g0.val = 0x2002 ||
        (ip.g0.val = 0x64 && ip.g1.val = 0xff9b &&
          (ip.g2.val = 1 || (ip.g2.val = 0 && ip.g3.val = 0 && ip.g4.val = 0 && ip.g5.val = 0)))

section Agreement

variable {address : IpAddr} {ip : Ipv4Addr}

/-- Every IPv4 address of the Worker's list is in the agent's. -/
theorem isRestrictedIpv4_of_private (private_ : isPrivateIpv4 ip = true) : isRestrictedIpv4 ip = true := by
  simp only [isPrivateIpv4, Bool.if_true_left, Bool.or_eq_true, Bool.and_eq_true,
    decide_eq_true_eq] at private_
  simp only [isRestrictedIpv4, Ipv4Addr.isPrivate, Ipv4Addr.isLoopback, Ipv4Addr.isLinkLocal,
    Ipv4Addr.isMulticast, Bool.or_eq_true, Bool.and_eq_true, decide_eq_true_eq]
  rcases private_ with first | within | within | within | within | within | within | within | within |
    within | within | multicast
  case inr.inr.inr.inr.inr.inr.inr.inr.inr.inr.inr =>
    rcases Nat.lt_or_ge ip.a.val 240 with below | above
    · simp [multicast, Nat.le_of_lt_succ below]
    · simp [above]
  case inl => rcases first with (first | first) | first <;> simp [first]
  case inr.inr.inr.inr.inr.inr.inr.inl =>
    obtain ⟨first, second | second⟩ := within <;> simp [first, second]
  all_goals simp [within]

/-- The tests for single addresses and for embedded ones look at the first group. -/
theorem first_group {ip : Ipv6Addr} (other : ip.g0.val ≠ 0) :
    ip.isLoopback = false ∧ ip.isUnspecified = false ∧ ip.toIpv4 = none := by
  refine ⟨decide_eq_false ?_, decide_eq_false ?_, by simp [Ipv6Addr.toIpv4, other]⟩
  all_goals
    rintro rfl
    exact other rfl

theorem isRestrictedIp_of_private (private_ : isPrivateAddress address = true)
    (known : overlooked address = false) : isRestrictedIp address = true := by
  cases address with
  | v4 ip => exact isRestrictedIpv4_of_private private_
  | v6 ip =>
      simp only [isPrivateAddress, isReservedIpv6, embedsIpv4, Bool.if_true_left, Bool.or_eq_true,
        Bool.and_eq_true, decide_eq_true_eq] at private_
      simp only [overlooked, Bool.or_eq_false_iff, Bool.and_eq_false_iff, decide_eq_false_iff_not] at known
      simp only [isRestrictedIp, Ipv6Addr.isMulticast, Ipv6Addr.isUniqueLocal,
        Ipv6Addr.isUnicastLinkLocal, Bool.or_eq_true, Bool.and_eq_true, decide_eq_true_eq]
      rcases private_ with (zeros | unique | multicast | discard | documentation | sixToFour | nat64) |
        embeds
      · have listed : ip.isLoopback = true ∨ ip.isUnspecified = true := by
          obtain ⟨g0, g1, g2, g3, g4, g5, g6, g7⟩ := ip
          simp only [Ipv6Addr.isLoopback, Ipv6Addr.isUnspecified, decide_eq_true_eq,
            Ipv6Addr.mk.injEq, Fin.ext_iff]
          tauto
        tauto
      · tauto
      · tauto
      · omega
      · tauto
      · omega
      · omega
      · have inner := isRestrictedIpv4_of_private embeds.2
        have found : ip.toIpv4 = some (ofGroups ip.g6 ip.g7) := by
          refine if_pos ?_
          simp only [Bool.or_eq_true, Bool.and_eq_true, decide_eq_true_eq]
          tauto
        right
        rw [found]
        exact inner

theorem not_restricted_of_overlooked (missed : overlooked address = true) :
    isPrivateAddress address = true ∧ isRestrictedIp address = false := by
  cases address with
  | v4 ip => cases missed
  | v6 ip =>
      simp only [overlooked, Bool.or_eq_true, Bool.and_eq_true, decide_eq_true_eq] at missed
      have value : ip.g0.val = 0x100 ∨ ip.g0.val = 0x2002 ∨ ip.g0.val = 0x64 := by
        rcases missed with (discard | sixToFour) | nat64
        · exact .inl discard.1.1.1
        · exact .inr (.inl sixToFour)
        · exact .inr (.inr nat64.1.1)
      constructor
      · rcases missed with (discard | sixToFour) | nat64
        · simp [isPrivateAddress, isReservedIpv6, discard]
        · simp [isPrivateAddress, isReservedIpv6, sixToFour]
        · rcases nat64 with ⟨front, local_ | wellKnown⟩
          · simp [isPrivateAddress, isReservedIpv6, front, local_]
          · simp [isPrivateAddress, isReservedIpv6, front, wellKnown]
      · have other : ip.g0.val ≠ 0 := by
          clear missed
          omega
        obtain ⟨loopback, unspecified, none_⟩ := first_group other
        rw [isRestrictedIp, none_, loopback, unspecified]
        rcases value with g0 | g0 | g0
        all_goals
          simp [Ipv6Addr.isMulticast, Ipv6Addr.isUniqueLocal, Ipv6Addr.isUnicastLinkLocal, g0]

theorem isPrivateAddress_of_embeds (embeds : Embeds address ip) (private_ : isPrivateIpv4 ip = true) :
    isPrivateAddress address = true := by
  cases embeds with
  | mapped ip front => simp [isPrivateAddress, embedsIpv4, private_, front]
  | compatible ip front => simp [isPrivateAddress, embedsIpv4, private_, front]
  | sixToFour ip front => simp [isPrivateAddress, isReservedIpv6, front]
  | nat64 ip front => simp [isPrivateAddress, isReservedIpv6, front]

theorem rejected_iff {host : String} (read : readAddress host = some address) :
    Rejected address ↔ isPrivateAddress address = true := by
  constructor
  · rintro ⟨other, same, private_⟩
    exact isPrivateHost_of_read same ▸ private_
  · exact fun private_ => ⟨host, read, (isPrivateHost_of_read read).trans private_⟩

/-- Both tests judge an address alike unless it has one of the prefixes that the agent does not know. -/
theorem classifiedAlike_iff (address : IpAddr) : ClassifiedAlike address ↔ overlooked address = false := by
  constructor
  · intro alike
    by_contra missed
    rw [Bool.not_eq_false] at missed
    obtain ⟨private_, unrestricted⟩ := not_restricted_of_overlooked missed
    cases address with
    | v4 ip => cases missed
    | v6 ip =>
        have rejected := (rejected_iff (readAddress_text ip)).mpr private_
        rw [alike.restricted rejected] at unrestricted
        cases unrestricted
  · intro known
    have restricted (private_ : isPrivateAddress address = true) : isRestrictedIp address = true :=
      isRestrictedIp_of_private private_ known
    refine ⟨fun first second read read' => ?_, fun ⟨host, read, private_⟩ => ?_,
      fun ip embeds ⟨host, read, private_⟩ => ?_⟩
    · rw [isPrivateHost_of_read read, isPrivateHost_of_read read']
    · exact restricted (isPrivateHost_of_read read ▸ private_)
    · rw [isPrivateHost_of_read read] at private_
      have inner := isPrivateAddress_of_embeds embeds private_
      exact ⟨fun other spelled => (isPrivateHost_of_read spelled).trans inner, restricted inner⟩

/-- The Worker rejects it and the address that it embeds, and the agent accepts it. -/
theorem sixToFour_unrestricted :
    readAddress "2002:7f00:1::" = some (.v6 ownHost) ∧ isPrivateHost "2002:7f00:1::" = true ∧
      Embeds (.v6 ownHost) (ofGroups 0x7f00 1) ∧
      readAddress "127.0.0.1" = some (.v4 (ofGroups 0x7f00 1)) ∧ isPrivateHost "127.0.0.1" = true ∧
      isRestrictedIp (.v6 ownHost) = false := by
  refine ⟨?_, ?_, .sixToFour ownHost rfl, ?_, ?_, ?_⟩
  all_goals decide +kernel

end Agreement

end NieSla.Hosts
