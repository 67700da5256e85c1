import CoapNode.Bytes

set_option autoImplicit false

/-! # Unsigned option values

Numbers in options are written with the most significant byte first and without leading zero
bytes; zero is the empty value. Reading keeps the last thirty-two bits.
-/

namespace CoapNode.Uint

/-- A number as an option value, with as few bytes as possible. -/
def encode (n : UInt32) : Bytes :=
  [(n / 16777216).toUInt8, (n / 65536).toUInt8, (n / 256).toUInt8, n.toUInt8].dropWhile (· == 0)

/-- The number that an option value stands for. -/
def decode (value : Bytes) : UInt32 := value.foldl (fun n b => n * 256 + b.toUInt32) 0

end CoapNode.Uint
