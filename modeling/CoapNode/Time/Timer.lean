import CoapNode.Time.Clock

set_option autoImplicit false

/-! # Recurring deadlines -/

namespace CoapNode

/-- A deadline that recurs: when it was armed, and how long after that it passes. -/
structure Timer where
  armedAt : Millis
  period : Millis
deriving DecidableEq, Repr

namespace Timer

/-- The moment the timer expires, at most the last moment there is. -/
def deadline (timer : Timer) : Millis :=
  UInt64.ofNat (min (timer.armedAt.toNat + timer.period.toNat) (UInt64.size - 1))

/-- Has the deadline been reached? -/
def expired (timer : Timer) (now : Millis) : Bool := timer.deadline ≤ now

/-- The timer started again; the time that passed since the deadline is not made up for. -/
def rearm (_ : Timer) (now period : Millis) : Timer := ⟨now, period⟩

end Timer

end CoapNode
