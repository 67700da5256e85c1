set_option autoImplicit false

/-! # Network addresses

IPv4 and IPv6 addresses and the socket addresses made of them. An IPv4 address has a second
form as an IPv6 address, the mapped form `::ffff:a.b.c.d`; `IPv4.mapped` and
`IPv6.unmapped?` go between the two.
-/

namespace CoapNode

/-- An IPv4 address: four octets. -/
structure IPv4 where
  a : UInt8
  b : UInt8
  c : UInt8
  d : UInt8
deriving DecidableEq, Repr

/-- An IPv6 address: eight groups of sixteen bits. -/
structure IPv6 where
  g0 : UInt16
  g1 : UInt16
  g2 : UInt16
  g3 : UInt16
  g4 : UInt16
  g5 : UInt16
  g6 : UInt16
  g7 : UInt16
deriving DecidableEq, Repr

/-- The group that holds two octets, the first one in the high half. -/
def groupOf (hi lo : UInt8) : UInt16 := hi.toUInt16 * 256 + lo.toUInt16

/-- The high octet of a group. -/
def highOctet (g : UInt16) : UInt8 := (g / 256).toUInt8

/-- The low octet of a group. -/
def lowOctet (g : UInt16) : UInt8 := (g % 256).toUInt8

namespace IPv6

/-- The address all of whose groups are zero. -/
def unspecified : IPv6 := ⟨0, 0, 0, 0, 0, 0, 0, 0⟩

/-- The groups of an address, first group first. -/
def toList (ip : IPv6) : List UInt16 :=
  [ip.g0, ip.g1, ip.g2, ip.g3, ip.g4, ip.g5, ip.g6, ip.g7]

/-- The address with the given eight groups. -/
def ofList? : List UInt16 → Option IPv6
  | [a, b, c, d, e, f, g, h] => some ⟨a, b, c, d, e, f, g, h⟩
  | _ => none

@[simp] theorem ofList?_toList (ip : IPv6) : ofList? ip.toList = some ip := rfl

/-- The IPv4 address in the last two groups. -/
def tail4 (ip : IPv6) : IPv4 :=
  ⟨highOctet ip.g6, lowOctet ip.g6, highOctet ip.g7, lowOctet ip.g7⟩

/-- Is this the mapped form of an IPv4 address? -/
def isMapped (ip : IPv6) : Bool :=
  ip.g0 == 0 && ip.g1 == 0 && ip.g2 == 0 && ip.g3 == 0 && ip.g4 == 0 && ip.g5 == 0xFFFF

/-- The IPv4 address that this one is the mapped form of, if it is. -/
def unmapped? (ip : IPv6) : Option IPv4 := if ip.isMapped then some ip.tail4 else none

end IPv6

/-- The mapped form of an IPv4 address. -/
def IPv4.mapped (ip : IPv4) : IPv6 :=
  ⟨0, 0, 0, 0, 0, 0xFFFF, groupOf ip.a ip.b, groupOf ip.c ip.d⟩

/-- An address of either family. -/
inductive IPAddress where
  | v4 (ip : IPv4)
  | v6 (ip : IPv6)
deriving DecidableEq, Repr

/-- An address of either family as an IPv6 address. -/
def IPAddress.toIPv6 : IPAddress → IPv6
  | .v4 ip => ip.mapped
  | .v6 ip => ip

/-- Where a datagram comes from or goes to. With an IPv6 address come the flow that its packets
belong to and the scope, which names the interface of a link-local peer; `0` stands for no flow
and no scope. -/
inductive SocketAddress where
  | v4 (ip : IPv4) (port : UInt16)
  | v6 (ip : IPv6) (port : UInt16) (flow scope : UInt32)
deriving DecidableEq, Repr

namespace SocketAddress

/-- The address alone. -/
def ip : SocketAddress → IPAddress
  | .v4 ip _ => .v4 ip
  | .v6 ip _ _ _ => .v6 ip

/-- The port. -/
def port : SocketAddress → UInt16
  | .v4 _ port => port
  | .v6 _ port _ _ => port

end SocketAddress

end CoapNode
