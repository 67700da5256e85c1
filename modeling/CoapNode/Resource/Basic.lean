import CoapNode.Resource.Flags
import CoapNode.Resource.Reply
import CoapNode.Time.Clock

set_option autoImplicit false

/-! # Resources

A resource is what a node serves under a path: a handler for each method, and an activity that
runs from time to time. Handlers act on a world of type `ω`, the state that all resources of a
node share.
-/

namespace CoapNode

/-- What a handler leaves behind. -/
structure Handled (ω : Type) where
  /-- Whether the method is one that the resource supports. -/
  accepted : Bool
  reply : Reply
  world : ω

/-- Writes the answer to a request into a reply. -/
abbrev Handler (ω : Type) := Request → Reply → ω → Logged (Handled ω)

/-- The handler of a method that is not supported. -/
def Handler.refuse {ω : Type} : Handler ω := fun _ reply world => pure ⟨false, reply, world⟩

/-- Something that is served under a path. -/
structure Resource (ω : Type) where
  flags : ω → Flags := fun _ => .none
  handle : Method → Handler ω := fun _ => .refuse
  /-- How often `tick` should run; not at all if there is no period or it is zero. -/
  period : ω → Option Millis := fun _ => none
  tick : ω → ω := id

/-- Told about each successful request to an observable resource, with the path under which
the resource is registered; may change the response. -/
structure Observer (ω : Type) where
  subscribe : String → Request → Response → ω → Response × ω

/-- The observer that does nothing. -/
def Observer.idle {ω : Type} : Observer ω := ⟨fun _ _ resp world => (resp, world)⟩

end CoapNode
