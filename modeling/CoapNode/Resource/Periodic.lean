import CoapNode.Resource.Registry

set_option autoImplicit false

/-! # Periodic activities

`Registry.pollTimers` runs the activities whose timers have expired, in the order of their
deadlines. Each timer is armed again from the present moment, however late it is.
-/

namespace CoapNode

namespace Registry

variable {ω κ : Type}

/-- The earliest deadline of all timers. -/
def nextDeadline? (registry : Registry ω) : Option Millis :=
  (registry.timers.filterMap fun slot => slot.map (·.timer.deadline)).min?

/-- The places of the timers that have expired, by deadline; of timers with the same deadline the
one armed first comes first. -/
def due (registry : Registry ω) (now : Millis) : List Nat :=
  let expired := registry.timers.zipIdx.filterMap fun (slot, place) =>
    (slot.filter (·.timer.expired now)).map fun periodic => (periodic.timer.deadline, place)
  (expired.mergeSort fun x y => x.1 ≤ y.1).map (·.2)

/-- Where a run over the expired timers has come to. -/
structure Firing (ω : Type) where
  registry : Registry ω
  world : ω
  /-- How many activities have run. -/
  fired : Nat

/-- Replace the timer at a place. -/
def setTimer (registry : Registry ω) (place : Nat) (periodic : Option Periodic) : Registry ω :=
  { registry with timers := registry.timers.set place periodic }

/-- Run the activity of an entry, unless the registry does not serve yet. -/
def Firing.tick (firing : Firing ω) (entry : Entry ω) : Logged (Firing ω) :=
  if firing.registry.initialized then do
    Log.trace ("tick " ++ entry.path)
    pure { firing with
      world := entry.resource.tick firing.world
      fired := firing.fired + 1 }
  else pure firing

/-- Let the timer at a place fire. It is armed again if its resource still has a period, and
dropped otherwise. -/
def Firing.fire (now : Millis) (firing : Firing ω) (place : Nat) : Logged (Firing ω) :=
  match firing.registry.timers[place]?.join with
  | none => pure firing
  | some periodic =>
    match firing.registry.entries[periodic.resource]? with
    | none => pure { firing with registry := firing.registry.setTimer place none }
    | some entry =>
      match entry.period? firing.world with
      | none => do
        Log.trace (entry.path ++ " no longer periodic")
        pure { firing with registry := firing.registry.setTimer place none }
      | some period => do
        let firing ← firing.tick entry
        let rearmed := { periodic with timer := periodic.timer.rearm now period }
        pure { firing with registry := firing.registry.setTimer place (some rearmed) }

/-- Let all timers fire that have expired at a moment. -/
def fireAll (registry : Registry ω) (now : Millis) (world : ω) : Logged (Firing ω) :=
  (registry.due now).foldlM (Firing.fire now) ⟨registry, world, 0⟩

/-- Read the clock, and let all timers fire that have expired; yields how many activities have
run. -/
def pollTimers [Clock κ] (registry : Registry ω) (clock : κ) (world : ω) :
    Logged (Except ClockError Nat × Registry ω × κ × ω) :=
  match Clock.now clock with
  | (.error e, clock) => pure (.error e, registry, clock, world)
  | (.ok now, clock) => do
    let firing ← registry.fireAll now world
    pure (.ok firing.fired, firing.registry, clock, firing.world)

end Registry

end CoapNode
