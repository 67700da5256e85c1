import CoapNode.Activity
import CoapNode.Config
import CoapNode.Network.SecureChannel

set_option autoImplicit false

/-! # The transport

The transport owns the plaintext socket and, where there is a secure channel, a second socket for
its records. It carries messages between them and the endpoints: a message for a plaintext endpoint
goes to the plaintext socket, one for a secure endpoint through the channel, and the endpoint of a
message that comes in says which way it came.
-/

namespace CoapNode

/-- A secure channel and the socket for its records. -/
structure SecureLink (σ χ : Type) where
  socket : σ
  channel : χ

/-- The sockets of a node and what belongs to them. -/
structure Transport (σ χ : Type) where
  plain : σ
  secure : Option (SecureLink σ χ)
  keystore : Keystore
  /-- Whether the network has a way out. -/
  routeAvailable : Bool
  /-- How long the buffer is that the sockets receive into: what is longer is cut. -/
  bufferSize : Nat

/-- What has been received from a peer. -/
structure Datagram where
  peer : Endpoint
  bytes : Bytes
deriving DecidableEq, Repr

/-- Why the transport failed. -/
inductive TransportError (ε δ : Type) where
  /-- A socket failed. -/
  | socket (e : ε)
  /-- The secure channel refused. -/
  | channel (e : δ)
  /-- There is no secure channel. -/
  | secureUnavailable
deriving DecidableEq, Repr

/-- An error as text, given the text of errors of the socket and of the channel. -/
def TransportError.text {ε δ : Type} (socketText : ε → String) (channelText : δ → String) :
    TransportError ε δ → String
  | .socket e => Text.tagged "Socket" (socketText e)
  | .channel e => Text.tagged "Channel" (channelText e)
  | .secureUnavailable => "SecureUnavailable"

namespace Transport

variable {σ χ ε δ : Type}

/-! ## Setting up -/

/-- A transport without a secure channel. -/
def new (plain : σ) (keystore : Keystore) (bufferSize : Nat) : Transport σ χ :=
  ⟨plain, none, keystore, true, bufferSize⟩

/-- Add a secure channel and the socket for its records. -/
def withSecure (t : Transport σ χ) (socket : σ) (channel : χ) : Transport σ χ :=
  { t with secure := some ⟨socket, channel⟩ }

/-- Open the sockets of a configuration on all interfaces, the second one only if there is a
channel for it. -/
def bind (openSocket : SocketAddress → Except ε σ) (config : Config) (keystore : Keystore)
    (channel : Option χ) : Except ε (Transport σ χ) := do
  let plain ← openSocket (.v6 .unspecified config.ports.plain 0 0)
  let t := new plain keystore config.maxDatagramSize.toNat
  match channel with
  | none => pure t
  | some channel =>
    let socket ← openSocket (.v6 .unspecified config.ports.secure 0 0)
    pure (t.withSecure socket channel)

/-- Is there a secure channel? -/
def isSecureEnabled (t : Transport σ χ) : Bool := t.secure.isSome

variable [Socket σ ε] [SecureChannel χ δ]

/-- The address of the plaintext socket. -/
def localAddress (t : Transport σ χ) : SocketAddress := Socket.localAddress t.plain

/-- Can a peer be talked to right now? A plaintext peer can if there is a way out at all, a secure
one if in addition its session is set up. -/
def isConnected (t : Transport σ χ) (peer : Endpoint) : Bool :=
  t.routeAvailable &&
    (!peer.secure || t.secure.any fun link => SecureChannel.isConnected link.channel peer)

/-- How many datagrams can still be received. -/
def backlog (t : Transport σ χ) : Nat :=
  Socket.backlog t.plain + (t.secure.map fun link => Socket.backlog link.socket).getD 0

end Transport

end CoapNode
