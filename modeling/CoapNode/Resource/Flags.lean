import CoapNode.Text.Record

set_option autoImplicit false

/-! # What a resource can do -/

namespace CoapNode

/-- A set of capabilities, one bit each. -/
structure Flags where
  bits : UInt8
deriving DecidableEq, Repr

namespace Flags

/-- No capabilities. -/
def none : Flags := ⟨0⟩

/-- The resource also answers requests for paths below its own. -/
def subResources : Flags := ⟨1⟩

/-- Clients can observe the resource. -/
def observable : Flags := ⟨2⟩

/-- The resource has something to do from time to time. -/
def periodic : Flags := ⟨4⟩

/-- The capabilities of two sets together. -/
def union (x y : Flags) : Flags := ⟨x.bits ||| y.bits⟩

/-- Are all capabilities of `y` in `x`? -/
def contains (x y : Flags) : Bool := x.bits &&& y.bits == y.bits

/-- A set of capabilities as text. -/
def text (x : Flags) : String := Text.tagged "Flags" (toString x.bits.toNat)

end Flags

end CoapNode
