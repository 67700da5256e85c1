import CoapNode.Resource.Basic
import CoapNode.Time.Timer

set_option autoImplicit false

/-! # The registry

The resources of a node in the order in which they were registered, and the timers of those
with a periodic activity. A request goes to the first resource that matches its path.
-/

namespace CoapNode

/-- A resource with the path it is registered under, and the capabilities it had then. -/
structure Entry (ω : Type) where
  path : String
  flags : Flags
  resource : Resource ω

/-- The timer of a resource, which is given by its place in the registry. -/
structure Periodic where
  resource : Nat
  timer : Timer
deriving DecidableEq, Repr

/-- The resources of a node. -/
structure Registry (ω : Type) where
  /-- How many resources there is room for. -/
  capacity : Nat
  entries : List (Entry ω)
  /-- The timers in the order in which they were armed; the place of one that is no longer
  needed stays empty. -/
  timers : List (Option Periodic)
  /-- Whether requests are served and periodic activities run. -/
  initialized : Bool

/-- Why a resource could not be registered. -/
inductive RegisterError where
  /-- There is no room. -/
  | full
  /-- The clock could not be read to arm the timer of the resource. -/
  | clock
deriving DecidableEq, Repr

/-- The name of an error. -/
def RegisterError.text : RegisterError → String
  | .full => "Full"
  | .clock => "Clock"

variable {ω κ : Type}

namespace Entry

/-- Does a path belong to the entry? It does if it is the path of the entry, or goes on after a
slash where the resource answers for what is below it. -/
def matchesPath (entry : Entry ω) (path : String) : Bool :=
  match entry.path.toList.isPrefixOf? path.toList with
  | none => false
  | some [] => true
  | some (c :: _) => entry.flags.contains .subResources && c == '/'

/-- The period of the resource, if it is to run periodically now. -/
def period? (entry : Entry ω) (world : ω) : Option Millis :=
  if (entry.resource.flags world).contains .periodic then
    (entry.resource.period world).filter (0 < ·)
  else none

/-- Have the resource answer a request. An observer hears of requests that were accepted; a
refusal takes back the payload. -/
def serve (entry : Entry ω) (observer : Observer ω) : Handler ω := fun req reply world => do
  let handled ←
    match req.method? with
    | some method => entry.resource.handle method req reply world
    | none => Handler.refuse req reply world
  let asked := Text.optional (req.method?.map Method.text) ++ " " ++ req.path
  if handled.accepted then
    Log.debug (asked ++ " handled by " ++ entry.path)
    if entry.flags.contains .observable then
      let (resp, world) :=
        observer.subscribe entry.path req handled.reply.response handled.world
      pure ⟨true, { handled.reply with response := resp }, world⟩
    else pure handled
  else
    Log.debug (asked ++ " not allowed by " ++ entry.path)
    let resp := (handled.reply.response.setPayload []).setCode .methodNotAllowed
    pure ⟨false, { handled.reply with response := resp }, handled.world⟩

end Entry

namespace Registry

/-- The registry without resources. -/
def empty (capacity : Nat) : Registry ω := ⟨capacity, [], [], false⟩

/-- Begin to serve. -/
def init (registry : Registry ω) : Logged (Registry ω) :=
  if registry.initialized then do
    Log.warn "registry already initialized"
    pure registry
  else do
    Log.debug ("registry initialized with " ++ toString registry.entries.length ++ " resources")
    pure { registry with initialized := true }

/-- Drop all resources and timers, and stop serving. -/
def teardown (registry : Registry ω) : Logged (Registry ω) := do
  Log.debug ("tearing down " ++ toString registry.entries.length ++ " resources, " ++
    toString registry.timers.length ++ " timers")
  pure (.empty registry.capacity)

/-- Add an entry behind the others, with its timer if it has one. -/
def push (registry : Registry ω) (entry : Entry ω) (timer : Option Timer) : Registry ω :=
  let periodic (timer : Timer) : Periodic := ⟨registry.entries.length, timer⟩
  { registry with
    entries := registry.entries ++ [entry]
    timers := registry.timers ++ (timer.map fun timer => some (periodic timer)).toList }

/-- Arm the timer of a new entry, if it has a period. The clock is read only then. -/
def arm [Clock κ] (entry : Entry ω) (clock : κ) (world : ω) :
    Logged (Except RegisterError (Option Timer) × κ) :=
  match entry.period? world with
  | none => pure (.ok none, clock)
  | some period =>
    match Clock.now clock with
    | (.error _, clock) => pure (.error .clock, clock)
    | (.ok now, clock) => do
      Log.trace ("arming " ++ entry.path ++ " every " ++ toString period.toNat ++ "ms")
      pure (.ok (some ⟨now, period⟩), clock)

/-- Register a resource under a path; yields its place. -/
def register [Clock κ] (registry : Registry ω) (path : String) (resource : Resource ω)
    (clock : κ) (world : ω) : Logged (Except RegisterError Nat × Registry ω × κ) :=
  if registry.capacity ≤ registry.entries.length then do
    Log.warn ("no room to register " ++ path)
    pure (.error .full, registry, clock)
  else do
    let entry : Entry ω := ⟨path, resource.flags world, resource⟩
    match ← arm entry clock world with
    | (.error e, clock) => pure (.error e, registry, clock)
    | (.ok timer, clock) =>
      Log.debug ("registered " ++ path ++ " (" ++ entry.flags.text ++ ")")
      pure (.ok registry.entries.length, registry.push entry timer, clock)

/-- The path that the resource at a place is registered under. -/
def path? (registry : Registry ω) (place : Nat) : Option String :=
  registry.entries[place]?.map (·.path)

/-- The first entry that a path belongs to. -/
def find? (registry : Registry ω) (path : String) : Option (Entry ω) :=
  registry.entries.find? (·.matchesPath path)

/-- Answer a request: 5.03 if the registry does not serve yet, 4.04 if the path belongs to no
resource, otherwise what the resource answers. -/
def dispatch (registry : Registry ω) (observer : Observer ω) (req : Request) (reply : Reply)
    (world : ω) : Logged (Handled ω × Registry ω) :=
  if registry.initialized then
    match registry.find? req.path with
    | some entry => do
      let handled ← entry.serve observer req reply world
      pure (handled, registry)
    | none => do
      Log.debug (req.path ++ " not found")
      pure (⟨false, reply.setCode .notFound, world⟩, registry)
  else do
    Log.debug (req.path ++ " before init")
    pure (⟨false, reply.setCode .serviceUnavailable, world⟩, registry)

end Registry

end CoapNode
