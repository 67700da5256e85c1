import CoapNode.Text.Record

set_option autoImplicit false

/-! # Clocks

Time is counted in milliseconds since a clock was started. A clock counts ticks of its own
length; `now` reads it and converts, rounding down.
-/

namespace CoapNode

/-- A moment, or a stretch of time, in milliseconds. -/
abbrev Millis := UInt64

/-- Why a clock gives no time. -/
inductive ClockError where
  /-- The clock does not run. -/
  | notRunning
  /-- There are too many ticks to be converted to milliseconds. -/
  | unspecified
deriving DecidableEq, Repr

/-- The name of an error. -/
def ClockError.text : ClockError → String
  | .notRunning => "NotRunning"
  | .unspecified => "Unspecified"

/-- The length of a tick as a fraction of a second. -/
structure TickLength where
  numerator : Nat
  denominator : Nat
deriving DecidableEq, Repr

/-- The milliseconds in one tick: the numerator and the denominator, in lowest terms. -/
def TickLength.inMillis (tick : TickLength) : Nat × Nat :=
  let divisor := Nat.gcd (tick.numerator * 1000) tick.denominator
  (tick.numerator * 1000 / divisor, tick.denominator / divisor)

/-- The milliseconds in a number of ticks, rounded down. The ticks are multiplied by the numerator
before they are divided by the denominator, and the product must fit into sixty-four bits. -/
def TickLength.millis? (tick : TickLength) (ticks : UInt64) : Except ClockError Millis :=
  let scaled := ticks.toNat * tick.inMillis.1
  if scaled < UInt64.size then .ok (UInt64.ofNat (scaled / tick.inMillis.2)) else .error .unspecified

/-- Something that can be asked for the time. Asking may change it. -/
class Clock (κ : Type) where
  /-- The length of one tick. -/
  tick : κ → TickLength
  /-- The ticks since the clock was started. -/
  read : κ → Except ClockError UInt64 × κ

namespace Clock

variable {κ : Type} [Clock κ]

/-- The time in milliseconds. -/
def now (clock : κ) : Except ClockError Millis × κ :=
  match read clock with
  | (.ok ticks, clock') => ((tick clock).millis? ticks, clock')
  | (.error e, clock') => (.error e, clock')

end Clock

/-- The time between two moments, zero if the later one is given first. -/
def elapsed (earlier later : Millis) : Millis := if earlier ≤ later then later - earlier else 0

end CoapNode
