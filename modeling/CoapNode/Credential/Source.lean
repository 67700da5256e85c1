import CoapNode.Bytes
import CoapNode.Endpoint.Basic
import CoapNode.Log

set_option autoImplicit false

/-! # Sources of credentials

A source knows which pre-shared keys to use with which peers. It is asked with a partly filled
`PskInfo`: without an identity it fills in the identity to present to the peer, with one it
fills in the key that belongs to it.
-/

namespace CoapNode

/-- What is known about the pre-shared key for a peer. -/
structure PskInfo where
  /-- What the peer said to help with the choice of an identity. -/
  hint : Option Bytes := none
  identity : Option Bytes := none
  key : Option Bytes := none
deriving DecidableEq, Repr

/-- The identity, unless it is missing or empty, which both mean that it is asked for. -/
def PskInfo.identity? (info : PskInfo) : Option Bytes := info.identity.filter (· ≠ [])

/-- Something that fills in what is asked about the key for a peer, and says whether it found
anything. -/
structure CredentialSource where
  resolve : Endpoint → PskInfo → Logged (Bool × PskInfo)

end CoapNode
