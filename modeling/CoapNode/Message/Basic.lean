import CoapNode.Message.Code
import CoapNode.Message.Options
import CoapNode.Message.Block

set_option autoImplicit false

/-! # Messages

The message that nodes exchange, and the parts of it that requests and responses share: the
block option, the observe option and the payload.
-/

namespace CoapNode

/-- How a message takes part in reliable transmission. -/
inductive Kind where
  /-- Wants to be acknowledged. -/
  | con
  /-- Does not want to be acknowledged. -/
  | non
  /-- Acknowledges a message. -/
  | ack
  /-- Refuses a message. -/
  | reset
deriving DecidableEq, Repr

/-- The name of a kind. -/
def Kind.text : Kind → String
  | .con => "Con"
  | .non => "Non"
  | .ack => "Ack"
  | .reset => "Reset"

/-- The number that ties acknowledgements to messages. -/
abbrev MessageId := UInt16

/-- The bytes that tie responses to requests, at most eight of them. -/
structure Token where
  bytes : Bytes
  length_le : bytes.length ≤ 8
deriving DecidableEq, Repr

namespace Token

/-- The token without bytes. -/
def empty : Token := ⟨[], Nat.zero_le 8⟩

/-- The token with the given bytes, if there are not too many. -/
def ofBytes? (bytes : Bytes) : Option Token :=
  if h : bytes.length ≤ 8 then some ⟨bytes, h⟩ else none

/-- Is this the empty token? -/
def isEmpty (token : Token) : Bool := token.bytes.isEmpty

end Token

/-- A message. -/
structure Message where
  kind : Kind
  version : UInt8
  code : Code
  id : MessageId
  token : Token
  options : Options
  payload : Bytes
deriving DecidableEq, Repr

namespace Message

/-- The empty message of a kind: no code, no token, no options, no payload. -/
def blank (kind : Kind) (id : MessageId) : Message where
  kind := kind
  version := 1
  code := .empty
  id := id
  token := .empty
  options := .empty
  payload := []

/-- The first Block2 option, if it can be read. -/
def block2? (msg : Message) : Option Block :=
  (msg.options.first? Options.block2).bind Block.ofValue?

/-- Make a block the only Block2 option. -/
def setBlock2 (msg : Message) (block : Block) : Message :=
  { msg with options := msg.options.set Options.block2 block.toValue }

/-- The number in the first Observe option. -/
def observeNumber? (msg : Message) : Option UInt32 :=
  (msg.options.first? Options.observe).map Uint.decode

/-- Make a number the only Observe option. -/
def setObserve (msg : Message) (n : UInt32) : Message :=
  { msg with options := msg.options.set Options.observe (Uint.encode n) }

/-- One line about a message. -/
def summary (msg : Message) : String :=
  msg.kind.text ++ " " ++ msg.code.text ++ " id=" ++ toString msg.id.toNat ++ " with " ++
    toString msg.payload.length ++ " byte payload"

end Message

end CoapNode
