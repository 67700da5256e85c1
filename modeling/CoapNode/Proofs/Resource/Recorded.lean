import CoapNode.Proofs.Resource.Dispatch

set_option autoImplicit false

/-! # Calls into the resources

A registry can be watched by recorders at its resources and at its observer, which write every call
with its arguments into the world (`Registry.recorded`, `Observer.recorded`). The recorders change
nothing else (`Handled.recorded`), so what a request calls is part of what it leaves behind
(`Registry.calls`).
-/

namespace CoapNode

variable {ω : Type}

/-- A call into a resource, which is given by its place in the registry, or to the observer, with
the arguments of the call and the world at that time. -/
inductive Call (ω : Type) where
  /-- The handler for a method is called. -/
  | handle (place : Nat) (method : Method) (req : Request) (reply : Reply) (world : ω)
  /-- The periodic activity is called. -/
  | tick (place : Nat) (world : ω)
  /-- The observer is told of a request to the resource under a path. -/
  | subscribe (path : String) (req : Request) (resp : Response) (world : ω)

/-- A world and the calls that have been made in it, first call first. -/
structure RecordedWorld (ω : Type) where
  world : ω
  calls : List (Call ω)

/-- The resource at a place with a recorder. -/
def Resource.recorded (place : Nat) (resource : Resource ω) : Resource (RecordedWorld ω) where
  flags recorded := resource.flags recorded.world
  handle method req reply recorded := do
    let handled ← resource.handle method req reply recorded.world
    let call : Call ω := .handle place method req reply recorded.world
    pure ⟨handled.accepted, handled.reply, ⟨handled.world, recorded.calls ++ [call]⟩⟩
  period recorded := resource.period recorded.world
  tick recorded :=
    ⟨resource.tick recorded.world, recorded.calls ++ [.tick place recorded.world]⟩

/-- The entry at a place with a recorder at its resource. -/
def Entry.recorded (place : Nat) (entry : Entry ω) : Entry (RecordedWorld ω) where
  path := entry.path
  flags := entry.flags
  resource := entry.resource.recorded place

/-- The registry with recorders at its resources. -/
def Registry.recorded (registry : Registry ω) : Registry (RecordedWorld ω) where
  capacity := registry.capacity
  entries := registry.entries.mapIdx Entry.recorded
  timers := registry.timers
  initialized := registry.initialized

/-- The observer with a recorder. -/
def Observer.recorded (observer : Observer ω) : Observer (RecordedWorld ω) where
  subscribe path req resp recorded :=
    let observed := observer.subscribe path req resp recorded.world
    let call : Call ω := .subscribe path req resp recorded.world
    (observed.1, ⟨observed.2, recorded.calls ++ [call]⟩)

/-- **The calls that a request leads to**, first call first. -/
def Registry.calls (registry : Registry ω) (observer : Observer ω) (req : Request) (reply : Reply)
    (world : ω) : List (Call ω) :=
  (registry.recorded.dispatch observer.recorded req reply ⟨world, []⟩).value.1.world.calls

/-- What a handler leaves behind, next to a record of calls. -/
def Handled.recorded (handled : Handled ω) (calls : List (Call ω)) : Handled (RecordedWorld ω) :=
  ⟨handled.accepted, handled.reply, ⟨handled.world, calls⟩⟩

/-! ## One entry -/

namespace Entry

/-- The call to the handler of an entry at a place, if there is one for the method of a request. -/
def handlerCall (place : Nat) (req : Request) (reply : Reply) (world : ω) : List (Call ω) :=
  (req.method?.map fun method => .handle place method req reply world).toList

/-- The call to the observer once the handler of an entry is done, if the request was accepted and
the entry is observable. -/
def observerCall (entry : Entry ω) (req : Request) (handled : Handled ω) : List (Call ω) :=
  if handled.accepted ∧ entry.flags.contains .observable then
    [.subscribe entry.path req handled.reply.response handled.world]
  else []

variable {req : Request} {reply : Reply}

/-- A recorder at an entry writes down the call to its handler, and changes nothing else. -/
theorem handler_recorded (place : Nat) (entry : Entry ω) (recorded : RecordedWorld ω) :
    ((entry.recorded place).handler req reply recorded).value
      = (entry.handler req reply recorded.world).value.recorded
          (recorded.calls ++ handlerCall place req reply recorded.world) := by
  rw [handler, handler, handlerCall]
  cases req.method? with
  | none => simp [Handled.recorded, Handler.refuse]
  | some method => rfl

/-- **What the recorders write down while an entry serves a request**, and that they change nothing
else. -/
theorem serve_recorded (place : Nat) (entry : Entry ω) (observer : Observer ω)
    (recorded : RecordedWorld ω) :
    ((entry.recorded place).serve observer.recorded req reply recorded).value
      = (entry.serve observer req reply recorded.world).value.recorded
          (recorded.calls ++ handlerCall place req reply recorded.world
            ++ entry.observerCall req (entry.handler req reply recorded.world).value) := by
  rw [value_serve, value_serve, handler_recorded, observerCall]
  generalize (entry.handler req reply recorded.world).value = handled
  have hpath : (entry.recorded place).path = entry.path := rfl
  have hflags : (entry.recorded place).flags = entry.flags := rfl
  by_cases haccepted : handled.accepted = true
  · by_cases hobservable : entry.flags.contains .observable = true
    · simp [Handled.recorded, Observer.recorded, hpath, hflags, haccepted, hobservable]
    · simp [Handled.recorded, hflags, haccepted, hobservable]
  · simp [Handled.recorded, haccepted]

end Entry

end CoapNode
