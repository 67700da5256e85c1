import CoapNode.Network.Conversation

set_option autoImplicit false

/-! # Secure channels

A secure channel turns messages into records that only the peer can read, and back. How it does
that is its own matter; the transport hands it messages and records, and lets it send records and
look up credentials. `NoSecurity` stands in where there is no such thing.
-/

namespace CoapNode

/-- A secure channel, with a session for each peer that it is connected to. -/
class SecureChannel (χ : Type) (δ : outParam Type) where
  /-- Begin a session with a peer. -/
  connect : χ → Endpoint → Conversation (Except δ Unit × χ)
  /-- End the session with a peer, if there is one. -/
  disconnect : χ → Endpoint → Conversation χ
  /-- Take a record from a peer; yields the message in it, or none if it was for the channel. -/
  handleInbound : χ → Endpoint → Bytes → Conversation (Except δ (Option Bytes) × χ)
  /-- Send a message to a peer as a record. -/
  write : χ → Endpoint → Bytes → Conversation (Except δ Unit × χ)
  /-- Is the session with a peer set up? -/
  isConnected : χ → Endpoint → Bool
  errorText : δ → String

/-- The channel that cannot do anything. -/
structure NoSecurity where
deriving DecidableEq, Repr

/-- The error of everything that `NoSecurity` is asked to do. -/
inductive SecurityDisabled where
  | disabled
deriving DecidableEq, Repr

instance : SecureChannel NoSecurity SecurityDisabled where
  connect channel _ := pure (.error .disabled, channel)
  disconnect channel _ := pure channel
  handleInbound channel _ _ := pure (.error .disabled, channel)
  write channel _ _ := pure (.error .disabled, channel)
  isConnected _ _ := false
  errorText _ := "SecurityDisabled"

end CoapNode
