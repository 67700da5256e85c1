import CoapNode.Message.Uint

set_option autoImplicit false

/-! # Block numbers

A representation that does not fit in one message is sent in blocks. The value of a Block2
option packs the number of a block, whether more blocks follow, and the size of the blocks,
which is a power of two between 16 and 1024.
-/

namespace CoapNode

/-- The value of a Block2 option: from the least significant bit on, three bits for the size
exponent, one for "more blocks follow", and the number of the block. -/
structure Block where
  raw : UInt32
deriving DecidableEq, Repr

namespace Block

/-- The smallest block size. -/
def minSize : UInt16 := 16

/-- The largest block size. -/
def maxSize : UInt16 := 1024

/-- The size exponent for a wanted size: the size is brought between 16 and 1024 and rounded
down to a power of two, of which the exponent counts from 16. -/
def exponentOf (size : UInt16) : Nat := Nat.log2 (max 16 (min 1024 size.toNat)) - 4

/-- The block size with a given exponent. -/
def sizeOfExponent (exponent : Nat) : UInt16 := UInt16.ofNat (1 <<< (exponent + 4))

/-- The largest block size that is not above a wanted size, which is first brought between 16
and 1024. -/
def validSize (size : UInt16) : UInt16 := sizeOfExponent (exponentOf size)

/-- The block with a given size, number and "more" flag. -/
def new (size : UInt16) (num : UInt32) (more : Bool) : Block :=
  ⟨num * 16 + (if more then 8 else 0) + UInt32.ofNat (exponentOf size)⟩

/-- The size exponent; the reserved value 7 counts as 6. -/
def exponent (block : Block) : Nat := min (block.raw.toNat % 8) 6

/-- The size of the block in bytes. -/
def size (block : Block) : UInt16 := sizeOfExponent block.exponent

/-- Do more blocks follow? -/
def more (block : Block) : Bool := block.raw / 8 % 2 == 1

/-- The number of the block, counting from zero. -/
def num (block : Block) : UInt32 := block.raw / 16

/-- Where the block begins within the representation, at most `2 ^ 32 - 1`. -/
def offset (block : Block) : UInt32 :=
  UInt32.ofNat (min (block.num.toNat * block.size.toNat) (UInt32.size - 1))

/-- Read an option value, which may have at most three bytes. -/
def ofValue? (value : Bytes) : Option Block :=
  if value.length ≤ 3 then some ⟨Uint.decode value⟩ else none

/-- The block as an option value. -/
def toValue (block : Block) : Bytes := Uint.encode block.raw

end Block

end CoapNode
