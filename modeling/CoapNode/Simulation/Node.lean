import CoapNode.Node.Basic
import CoapNode.Simulation.Channel
import CoapNode.Simulation.Clock
import CoapNode.Simulation.Resource
import CoapNode.Simulation.Socket

set_option autoImplicit false

/-! # Nodes in memory

A node whose sockets, channel, clock and resources are all simulated.
-/

namespace CoapNode.Simulation

/-- A transport in memory. -/
abbrev MemoryTransport := Transport MemorySocket OpenChannel

/-- A node in memory. -/
abbrev MemoryNode := Node MemorySocket OpenChannel ManualClock World

/-- Open a socket, unless its port is among those that are taken. -/
def openSocket (taken : List UInt16) (address : SocketAddress) :
    Except SocketFault MemorySocket :=
  if address.port ∈ taken then .error .bind else .ok { address := address }

namespace MemoryTransport

/-- A socket of the simulated host, with a port. -/
def hostSocket (port : UInt16) : MemorySocket :=
  { address := .v6 { IPv6.unspecified with g0 := 0xFE80 } port 0 0 }

/-- A transport of the simulated host at the default ports. -/
def ofChannel (keys : Keystore) (channel : Option OpenChannel) (bufferSize : Nat) :
    MemoryTransport :=
  let t := Transport.new (hostSocket Endpoint.defaultPort) keys bufferSize
  match channel with
  | none => t
  | some channel => t.withSecure (hostSocket Endpoint.defaultSecurePort) channel

/-- Change the plaintext socket or the one of the secure channel. -/
def onSocket (t : MemoryTransport) (secure : Bool) (f : MemorySocket → MemorySocket) :
    MemoryTransport :=
  if secure then
    { t with secure := t.secure.map fun link => { link with socket := f link.socket } }
  else { t with plain := f t.plain }

/-- Have the channel refuse messages, or stop refusing them. -/
def setRefusing (t : MemoryTransport) (refusing : Bool) : MemoryTransport :=
  { t with
    secure := t.secure.map fun link =>
      { link with channel := { link.channel with refusing := refusing } } }

/-- What has been sent through the socket of the secure channel. -/
def sentSecure (t : MemoryTransport) : List (SocketAddress × Bytes) :=
  (t.secure.map (·.socket.sent)).getD []

/-- The peers that the channel has a session with. -/
def peers (t : MemoryTransport) : List Endpoint := (t.secure.map (·.channel.peers)).getD []

/-- Is one of the sockets jammed? -/
def isJammed (t : MemoryTransport) : Bool := t.plain.jammed || t.secure.any (·.socket.jammed)

/-- Forget what has been sent. -/
def forgetSent (t : MemoryTransport) : MemoryTransport :=
  let forget (socket : MemorySocket) := { socket with sent := [] }
  (t.onSocket false forget).onSocket true forget

/-- An error of the transport as text. -/
def errorText (e : TransportError SocketFault ChannelFault) : String :=
  e.text SocketFault.text ChannelFault.text

end MemoryTransport

namespace MemoryNode

/-- The node with another transport. -/
def withTransport (node : MemoryNode) (t : MemoryTransport) : MemoryNode :=
  { node with transport := t }

/-- The node with its clock set. -/
def withClock (node : MemoryNode) (clock : ManualClock) : MemoryNode :=
  { node with layer := { node.layer with clock := clock } }

/-- The node with another world. -/
def withWorld (node : MemoryNode) (world : World) : MemoryNode :=
  { node with layer := { node.layer with world := world } }

/-- Forget what has been sent and recorded. -/
def forget (node : MemoryNode) : MemoryNode :=
  (node.withTransport (MemoryTransport.forgetSent node.transport)).withWorld
    node.layer.world.forgetEvents

/-- An error of a node as text. -/
def errorText (e : NodeError SocketFault ChannelFault) : String :=
  e.text SocketFault.text ChannelFault.text

end MemoryNode

end CoapNode.Simulation
