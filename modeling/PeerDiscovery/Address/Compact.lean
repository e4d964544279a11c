import PeerDiscovery.Address

/-!
# Compact addresses

An endpoint on the wire: the four or sixteen octets of the Internet address, then the port in two.
Flow label and scope do not travel.
-/

namespace PeerDiscovery.Address

/-- The octets of an endpoint. -/
def compact (address : Address) : Bytes := address.octets ++ Bytes.ofWord address.port

/-- The endpoint that six or eighteen octets stand for. -/
def ofCompact? (bytes : Bytes) : Option Address :=
  match bytes with
  | [a, b, c, d, high, low] => some (.v4 ⟨a, b, c, d⟩ (Bytes.toWord high low))
  | _ => do
    let ip ← Ipv6.ofOctets? (bytes.take 16)
    let port ← Bytes.toWord? (bytes.drop 16)
    return .v6 ip port 0 0

end PeerDiscovery.Address
