import CoapNode.Message.Uint

set_option autoImplicit false

/-! # Content formats -/

namespace CoapNode

/-- The format of a payload. -/
inductive ContentFormat where
  /-- Plain text in UTF-8. -/
  | text
  /-- Links to resources. -/
  | linkFormat
  /-- Bytes without further structure. -/
  | octetStream
  | json
  | cbor
  /-- A format given by its number. -/
  | other (number : UInt16)
deriving DecidableEq, Repr

namespace ContentFormat

/-- The registered number of a format. -/
def number : ContentFormat → UInt16
  | .text => 0
  | .linkFormat => 40
  | .octetStream => 42
  | .json => 50
  | .cbor => 60
  | .other n => n

/-- A format as an option value. -/
def toValue (format : ContentFormat) : Bytes := Uint.encode format.number.toUInt32

end ContentFormat

end CoapNode
