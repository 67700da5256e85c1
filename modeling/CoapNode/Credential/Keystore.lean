import CoapNode.Credential.DefaultPsk
import CoapNode.Credential.PskTable

set_option autoImplicit false

/-! # Key stores

A key store answers what a secure channel asks while it sets up a session: which identity to
present to a peer, and which key belongs to an identity. The answer is copied into a buffer of
the channel, whole or not at all.
-/

namespace CoapNode

/-- What a channel asks for. -/
inductive CredentialRequest where
  /-- The identity to present; the peer may have given a hint. -/
  | identity (hint : Option Bytes)
  /-- The key that belongs to an identity. -/
  | key (identity : Bytes)
deriving DecidableEq, Repr

/-- The alerts that end the setup of a session. -/
inductive Alert where
  | illegalParameter
  | internalError
deriving DecidableEq, Repr

/-- The name of an alert. -/
def Alert.text : Alert → String
  | .illegalParameter => "IllegalParameter"
  | .internalError => "InternalError"

/-- Why a question has no answer. -/
inductive CredentialError where
  /-- There is no source of credentials. -/
  | noKeystore
  /-- There is no identity for the peer. -/
  | noIdentity
  /-- There is no key for the identity. -/
  | unknownIdentity
  /-- The answer does not fit into the buffer. -/
  | bufferTooSmall (needed capacity : Nat)
deriving DecidableEq, Repr

namespace CredentialError

/-- The alert that tells the peer about an error, if it is told. -/
def alert : CredentialError → Option Alert
  | .noKeystore | .noIdentity => none
  | .unknownIdentity => some .illegalParameter
  | .bufferTooSmall _ _ => some .internalError

/-- An error as text. -/
def text : CredentialError → String
  | .noKeystore => "NoKeystore"
  | .noIdentity => "NoIdentity"
  | .unknownIdentity => "UnknownIdentity"
  | .bufferTooSmall needed capacity =>
    Text.record "BufferTooSmall" [("needed", toString needed), ("capacity", toString capacity)]

end CredentialError

/-- Where a node has its credentials from. -/
structure Keystore where
  source : Option CredentialSource := none
  /-- Whether the well-known key may be used while there is no source. -/
  defaultPsk : Bool := false

namespace Keystore

/-- The source that is asked, if there is one. -/
def source? (keys : Keystore) : Option CredentialSource :=
  match keys.source with
  | some source => some source
  | none => if keys.defaultPsk then some DefaultPsk.source else none

/-- Ask a source. Empty answers count as none. -/
def ask (source : CredentialSource) (peer : Endpoint) :
    CredentialRequest → Logged (Except CredentialError Bytes)
  | .identity hint => do
    let (_, info) ← source.resolve peer { hint := hint.filter (· ≠ []) }
    match info.identity? with
    | some identity => pure (.ok identity)
    | none => pure (.error .noIdentity)
  | .key identity => do
    let (_, info) ← source.resolve peer { identity := some identity }
    match info.key.filter (· ≠ []) with
    | some key => pure (.ok key)
    | none => pure (.error .unknownIdentity)

/-- Copy an answer to the front of a buffer, if it fits; yields its length and the buffer. -/
def fill (peer : Endpoint) (answer buffer : Bytes) :
    Logged (Except CredentialError Nat × Bytes) :=
  if buffer.length < answer.length then do
    Log.warn ("credential for " ++ peer.text ++ " does not fit in " ++ toString buffer.length ++
      " bytes")
    pure (.error (.bufferTooSmall answer.length buffer.length), buffer)
  else pure (.ok answer.length, answer ++ buffer.drop answer.length)

/-- Answer a request about a peer into a buffer; yields the length of the answer, and the
buffer. -/
def lookup (keys : Keystore) (peer : Endpoint) (request : CredentialRequest) (buffer : Bytes) :
    Logged (Except CredentialError Nat × Bytes) :=
  match keys.source? with
  | none => do
    Log.debug ("no credential source for " ++ peer.text)
    pure (.error .noKeystore, buffer)
  | some source => do
    match ← ask source peer request with
    | .ok answer => fill peer answer buffer
    | .error e =>
      Log.debug ("credential lookup for " ++ peer.text ++ " failed: " ++ e.text)
      pure (.error e, buffer)

/-- A key store as text; credentials are not shown. -/
def text (keys : Keystore) : String :=
  Text.record "Keystore"
    [("source", Text.optional (keys.source.map fun _ => "\"<dyn CredentialSource>\"")),
     ("default_psk", Text.bool keys.defaultPsk)]

end Keystore

end CoapNode
