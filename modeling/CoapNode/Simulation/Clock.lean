import CoapNode.Time.Clock

set_option autoImplicit false

/-! # A clock that is set by hand -/

namespace CoapNode.Simulation

/-- A clock of milliseconds that stands still, or advances by a step with each reading. It may
fail, also after a number of readings. -/
structure ManualClock where
  now : Millis := 0
  step : Millis := 0
  failing : Bool := false
  failAfter : Option Nat := none
deriving DecidableEq, Repr

/-- Read the clock. Once it has begun to fail it goes on failing. -/
def ManualClock.read (clock : ManualClock) : Except ClockError UInt64 × ManualClock :=
  if clock.failing || clock.failAfter == some 0 then
    (.error .notRunning, { clock with failing := true })
  else
    (.ok clock.now, { clock with
      now := UInt64.ofNat (min (clock.now.toNat + clock.step.toNat) (UInt64.size - 1))
      failAfter := clock.failAfter.map (· - 1) })

instance : Clock ManualClock where
  tick _ := ⟨1, 1000⟩
  read := ManualClock.read

/-- A clock with ticks of any length that always shows the same number of ticks, or does not
run. -/
structure FixedClock where
  tick : TickLength
  ticks : Option UInt64
deriving DecidableEq, Repr

instance : Clock FixedClock where
  tick clock := clock.tick
  read clock :=
    match clock.ticks with
    | some ticks => (.ok ticks, clock)
    | none => (.error .notRunning, clock)

end CoapNode.Simulation
