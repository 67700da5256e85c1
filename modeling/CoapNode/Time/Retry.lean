import CoapNode.Time.Clock
import CoapNode.Random

set_option autoImplicit false

/-! # Retry timers

A retry timer says when something that has not succeeded yet should be tried again, and when
to give up. The delay before the second attempt is drawn from a range; the following delays
are as long, or each twice as long as the one before. Totals are counted from the first attempt
and wrap around after `2 ^ 64` milliseconds.
-/

namespace CoapNode

/-- How the delays between attempts develop. -/
inductive Growth where
  /-- Every delay is twice as long as the one before. -/
  | doubling
  /-- All delays are equally long. -/
  | constant
deriving DecidableEq, Repr

/-- A strategy for retrying: the range of the first delay, and how the delays grow. -/
structure RetryStrategy where
  growth : Growth
  min : Millis
  max : Millis
deriving DecidableEq, Repr

/-- The delays that a strategy allows form an empty range. -/
inductive DelayError where
  | emptyRange
deriving DecidableEq, Repr

/-- The time from the first attempt until `attempts` delays are over, if the first delay is
`init`. -/
def Growth.total (growth : Growth) (init : Millis) (attempts : UInt16) : Millis :=
  match growth with
  | .constant => init * attempts.toUInt64
  | .doubling => init * UInt64.ofNat (1 <<< attempts.toNat - 1)

namespace RetryStrategy

/-- Is the first delay drawn at random? -/
def hasJitter (strategy : RetryStrategy) : Bool := strategy.min != strategy.max

/-- The longest time this strategy takes if all attempts fail. -/
def maxTime (strategy : RetryStrategy) (attempts : UInt16) : Millis :=
  strategy.growth.total strategy.max attempts

/-- Draw the first delay, with a given seed. -/
def drawDelay (strategy : RetryStrategy) (seed : UInt64) : Except DelayError Millis :=
  if strategy.min = strategy.max then .ok strategy.min
  else if strategy.max < strategy.min then .error .emptyRange
  else .ok ((Random.ofSeed seed).between strategy.min strategy.max).1

/-- A strategy as text. -/
def text (strategy : RetryStrategy) : String :=
  let delay (d : Millis) := Text.tagged "Milliseconds" (toString d.toNat)
  match strategy.growth with
  | .doubling =>
    Text.record "Exponential" [("init_min", delay strategy.min), ("init_max", delay strategy.max)]
  | .constant => Text.record "Delay" [("min", delay strategy.min), ("max", delay strategy.max)]

end RetryStrategy

/-- What to do about something that has not succeeded yet. -/
inductive RetryDecision where
  /-- Not enough time has passed. -/
  | wait
  /-- Try again. -/
  | retry
  /-- All attempts are used up. -/
  | giveUp
deriving DecidableEq, Repr

/-- Decides when to try again and when to give up. -/
structure RetryTimer where
  /-- The moment of the first attempt. -/
  start : Millis
  /-- The first delay. -/
  init : Millis
  growth : Growth
  /-- The attempts made so far. -/
  attempts : UInt16
  maxAttempts : UInt16
deriving DecidableEq, Repr

namespace RetryTimer

/-- A timer for something that is attempted for the first time at `start`. -/
def new (start : Millis) (strategy : RetryStrategy) (maxAttempts : UInt16) :
    Except DelayError RetryTimer :=
  match strategy.drawDelay start with
  | .ok init => .ok ⟨start, init, strategy.growth, 1, maxAttempts⟩
  | .error e => .error e

/-- Are the delays of `attempts` attempts over after a stretch of time? -/
def isReady (timer : RetryTimer) (passed : Millis) (attempts : UInt16) : Bool :=
  attempts == 0 || timer.growth.total timer.init attempts ≤ passed

/-- Ask what to do at a moment. A decision to retry counts as an attempt. -/
def poll (timer : RetryTimer) (now : Millis) : RetryDecision × RetryTimer :=
  if timer.isReady (elapsed timer.start now) timer.attempts then
    if timer.maxAttempts ≤ timer.attempts then (.giveUp, timer)
    else (.retry, { timer with attempts := timer.attempts + 1 })
  else (.wait, timer)

end RetryTimer

end CoapNode
