import PeerDiscovery.Bytes

/-!
# Endpoint addresses

An endpoint is an Internet address of either family with a port. An IPv6 endpoint also has a flow
label and a scope. Two endpoints are the same only if all of it is the same, so an IPv4 address is
never the same endpoint as its IPv6-mapped form.
-/

namespace PeerDiscovery

/-- A version 4 Internet address. -/
structure Ipv4 where
  a : UInt8
  b : UInt8
  c : UInt8
  d : UInt8
deriving DecidableEq

/-- A version 6 Internet address: eight groups of 16 bits. -/
structure Ipv6 where
  groups : List UInt16
  length_eq : groups.length = 8
deriving DecidableEq

/-- An endpoint of the network. -/
inductive Address where
  | v4 (ip : Ipv4) (port : UInt16)
  | v6 (ip : Ipv6) (port : UInt16) (flow scope : UInt32)
deriving DecidableEq

namespace Ipv4

/-- The four octets in order. -/
def octets (ip : Ipv4) : Bytes := [ip.a, ip.b, ip.c, ip.d]

end Ipv4

namespace Ipv6

theorem ext {a b : Ipv6} (same : a.groups = b.groups) : a = b := by
  cases a
  cases b
  cases same
  rfl

/-- The sixteen octets in order. -/
def octets (ip : Ipv6) : Bytes := ip.groups.flatMap Bytes.ofWord

/-- The words that pairs of octets make up. -/
def words : Bytes → List UInt16
  | high :: low :: rest => Bytes.toWord high low :: words rest
  | _ => []

/-- The address made of sixteen octets. -/
def ofOctets? (octets : Bytes) : Option Ipv6 :=
  if fits : (words octets).length = 8 then some ⟨words octets, fits⟩ else none

/-- The address made of eight groups. -/
def ofGroups? (groups : List UInt16) : Option Ipv6 :=
  if fits : groups.length = 8 then some ⟨groups, fits⟩ else none

end Ipv6

namespace Address

def port : Address → UInt16
  | .v4 _ port => port
  | .v6 _ port _ _ => port

/-- Whether the endpoint is of version 4. -/
def isV4 : Address → Bool
  | .v4 .. => true
  | .v6 .. => false

/-- The octets of the Internet address. -/
def octets : Address → Bytes
  | .v4 ip _ => ip.octets
  | .v6 ip _ _ _ => ip.octets

/-- The endpoint without flow label and scope. -/
def unscoped : Address → Address
  | .v4 ip port => .v4 ip port
  | .v6 ip port _ _ => .v6 ip port 0 0

/-! ## Order -/

/-- The numbers that make up an endpoint, its family first. -/
def key : Address → List Nat
  | .v4 ip port => 4 :: port.toNat :: ip.octets.map UInt8.toNat
  | .v6 ip port flow scope =>
    6 :: port.toNat :: flow.toNat :: scope.toNat :: ip.groups.map UInt16.toNat

theorem key_injective {x y : Address} (same : x.key = y.key) : x = y := by
  cases x with
  | v4 ip port =>
    cases y with
    | v4 ip' port' =>
      obtain ⟨a, b, c, d⟩ := ip
      obtain ⟨a', b', c', d'⟩ := ip'
      simp only [key, Ipv4.octets, List.map_cons, List.map_nil, List.cons.injEq,
        UInt16.toNat_inj, UInt8.toNat_inj] at same
      obtain ⟨-, rfl, rfl, rfl, rfl, rfl, -⟩ := same
      rfl
    | v6 => simp [key] at same
  | v6 ip port flow scope =>
    cases y with
    | v4 => simp [key] at same
    | v6 ip' port' flow' scope' =>
      simp only [key, List.cons.injEq, UInt16.toNat_inj, UInt32.toNat_inj] at same
      obtain ⟨-, rfl, rfl, rfl, groups⟩ := same
      rw [Ipv6.ext (List.map_inj_right (fun _ _ => UInt16.toNat.inj) |>.mp groups)]

instance : Ord Address where
  compare x y := compare x.key y.key

theorem compare_eq (x y : Address) : compare x y = compare x.key y.key := rfl

instance : Std.TransOrd Address where
  eq_swap := by
    intro x y
    rw [compare_eq, compare_eq]
    exact Std.OrientedCmp.eq_swap
  isLE_trans := by
    intro x y z first second
    rw [compare_eq] at first second ⊢
    exact Std.TransCmp.isLE_trans first second

instance : Std.LawfulEqOrd Address where
  compare_self := by
    intro x
    rw [compare_eq]
    exact Std.ReflCmp.compare_self
  eq_of_compare := by
    intro x y same
    rw [compare_eq] at same
    exact key_injective (Std.LawfulEqOrd.eq_of_compare same)

end Address

end PeerDiscovery
