set_option autoImplicit false

/-! # Byte strings

Datagrams, option values, tokens and credentials are finite sequences of bytes. They are
lists here, so that reading one from the front is recursion on the data.
-/

namespace CoapNode

/-- A finite sequence of bytes. -/
abbrev Bytes := List UInt8

end CoapNode
