import CoapNode.Address.Printer

set_option autoImplicit false

/-! # Endpoints

An endpoint is a peer that messages are exchanged with: an address, a port, and whether the
conversation is secured. The same host and port reached in plaintext and securely are two
different endpoints. IPv4 peers are held in mapped form.
-/

namespace CoapNode

/-- A peer: address, port and security. -/
structure Endpoint where
  addr : IPv6
  port : UInt16
  secure : Bool
deriving DecidableEq, Repr

namespace Endpoint

/-- The port of plaintext CoAP. -/
def defaultPort : UInt16 := 5683

/-- The port of secured CoAP. -/
def defaultSecurePort : UInt16 := 5684

/-- The peer a datagram came from, given the socket it arrived on. -/
def ofAddress (address : SocketAddress) (secure : Bool) : Endpoint :=
  ⟨address.ip.toIPv6, address.port, secure⟩

/-- The same host and port with another security. -/
def withSecure (peer : Endpoint) (secure : Bool) : Endpoint := { peer with secure := secure }

/-- Where datagrams to this peer are sent; mapped addresses are unmapped. -/
def socketAddress (peer : Endpoint) : SocketAddress :=
  match peer.addr.unmapped? with
  | some ip => .v4 ip peer.port
  | none => .v6 peer.addr peer.port 0 0

/-- The scheme of the peer's address. -/
def scheme (peer : Endpoint) : String := if peer.secure then "coaps" else "coap"

/-- The characters of an endpoint, `scheme://[address]:port`. -/
def chars (peer : Endpoint) : List Char :=
  peer.scheme.toList ++ "://[".toList ++ peer.addr.chars ++ "]:".toList ++
    decimal peer.port.toNat

/-- The text of an endpoint. -/
def text (peer : Endpoint) : String := String.ofList peer.chars

end Endpoint

end CoapNode
