import CoapNode.Credential.Source
import CoapNode.Text.Utf8

set_option autoImplicit false

/-! # The well-known key

A pre-shared key that everybody knows, for use with any peer. It protects nothing, and nodes
use it only if they are told to.
-/

namespace CoapNode.DefaultPsk

/-- The well-known identity. -/
def identity : Bytes := Utf8.ofString "Client_identity"

/-- The well-known key. -/
def key : Bytes := Utf8.ofString "secretPSK"

/-- The source that knows the well-known key and nothing else. -/
def source : CredentialSource where
  resolve _ info :=
    match info.identity? with
    | none => pure (true, { info with identity := some identity })
    | some id =>
      if id = identity then pure (true, { info with key := some key }) else pure (false, info)

end CoapNode.DefaultPsk
