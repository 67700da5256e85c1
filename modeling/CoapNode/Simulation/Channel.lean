import CoapNode.Network.SecureChannel

set_option autoImplicit false

/-! # A channel that can be read by everybody

A channel with sessions and records but without secrecy. A record is a tag with the data behind it:
`enc:` before a message, `id:` before an identity that asks for its key, which is answered with
`key:`, and `hello-dtls` or `psk:` to begin a session.
-/

namespace CoapNode.Simulation

/-- What goes wrong with an open channel. -/
inductive ChannelFault where
  /-- The channel has been told to refuse messages. -/
  | refused
  /-- A record could not be sent. -/
  | link
  /-- A record could not be read. -/
  | badRecord
  /-- There is no credential. -/
  | credential (e : CredentialError)
  /-- There is no channel. -/
  | disabled
deriving DecidableEq, Repr

/-- A fault as text. -/
def ChannelFault.text : ChannelFault → String
  | .refused => "Refused"
  | .link => "Link"
  | .badRecord => "BadRecord"
  | .credential e => Text.tagged "Credential" e.text
  | .disabled => "Disabled"

/-- How an open channel begins sessions. -/
inductive Handshake where
  /-- Not at all. -/
  | none
  /-- With a greeting. -/
  | greeting
  /-- With an identity and its key. -/
  | psk
deriving DecidableEq, Repr

/-- A channel without secrecy. -/
structure OpenChannel where
  handshake : Handshake
  refusing : Bool := false
  /-- The peers with a session, in the order in which the sessions began. -/
  peers : List Endpoint := []
deriving DecidableEq, Repr

namespace OpenChannel

/-- The largest credential that the channel has room for. -/
def credentialSize : Nat := 16

/-- The greeting that begins a session. -/
def greeting : Bytes := Utf8.ofString "hello-dtls"

/-- A record with a tag. -/
def tagged (tag : String) (data : Bytes) : Bytes := Utf8.ofString tag ++ data

/-- The data of a record with a tag. -/
def untagged? (tag : String) (record : Bytes) : Option Bytes :=
  (Utf8.ofString tag).isPrefixOf? record

/-- The session with a peer has begun. -/
def join (channel : OpenChannel) (peer : Endpoint) : OpenChannel :=
  if peer ∈ channel.peers then channel else { channel with peers := channel.peers ++ [peer] }

/-- Send a record to a peer; its session begins if that works. -/
def introduce (channel : OpenChannel) (peer : Endpoint) (record : Bytes) :
    Conversation (Except ChannelFault Unit × OpenChannel) := do
  match ← Conversation.say peer record with
  | .ok () => pure (.ok (), channel.join peer)
  | .error _ => pure (.error .link, channel)

/-- Look up a credential; the channel fails if there is none. -/
def withCredential {α : Type} (channel : OpenChannel) (peer : Endpoint)
    (request : CredentialRequest)
    (next : Bytes → Conversation (Except ChannelFault α × OpenChannel)) :
    Conversation (Except ChannelFault α × OpenChannel) := do
  match ← Conversation.credential peer request credentialSize with
  | .error e => pure (.error (.credential e), channel)
  | .ok credential => next credential

/-- Begin a session with a peer. -/
def connect (channel : OpenChannel) (peer : Endpoint) :
    Conversation (Except ChannelFault Unit × OpenChannel) :=
  match channel.handshake with
  | .none => do
    let (result, _) ← SecureChannel.connect NoSecurity.mk peer
    pure (result.mapError fun _ => .disabled, channel)
  | .greeting => channel.introduce peer greeting
  | .psk =>
    channel.withCredential peer (.identity none) fun identity =>
      channel.withCredential peer (.key identity) fun key =>
        channel.introduce peer (tagged "psk:" (identity ++ tagged ":" key))

/-- Take a record from a peer. -/
def handleInbound (channel : OpenChannel) (peer : Endpoint) (record : Bytes) :
    Conversation (Except ChannelFault (Option Bytes) × OpenChannel) :=
  if channel.handshake = .none then do
    let (result, _) ← SecureChannel.handleInbound NoSecurity.mk peer record
    pure (result.mapError fun _ => .disabled, channel)
  else if record = greeting then pure (.ok none, channel.join peer)
  else
    match untagged? "id:" record, untagged? "enc:" record with
    | some identity, _ =>
      channel.withCredential peer (.key identity) fun key => do
        let (result, channel) ← channel.introduce peer (tagged "key:" key)
        pure (result.map fun _ => none, channel)
    | none, some data => pure (.ok (some data), channel)
    | none, none => pure (.error .badRecord, channel)

/-- Send a message to a peer. -/
def write (channel : OpenChannel) (peer : Endpoint) (data : Bytes) :
    Conversation (Except ChannelFault Unit × OpenChannel) :=
  if channel.handshake = .none then do
    let (result, _) ← SecureChannel.write NoSecurity.mk peer data
    pure (result.mapError fun _ => .disabled, channel)
  else if channel.refusing then pure (.error .refused, channel)
  else do
    match ← Conversation.say peer (tagged "enc:" data) with
    | .ok () => pure (.ok (), channel)
    | .error _ => pure (.error .link, channel)

end OpenChannel

instance : SecureChannel OpenChannel ChannelFault where
  connect := OpenChannel.connect
  disconnect channel peer := pure { channel with peers := channel.peers.filter (· ≠ peer) }
  handleInbound := OpenChannel.handleInbound
  write := OpenChannel.write
  isConnected channel peer := channel.peers.contains peer
  errorText := ChannelFault.text

end CoapNode.Simulation
