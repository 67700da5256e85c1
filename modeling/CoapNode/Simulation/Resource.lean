import CoapNode.Resource.Registry

set_option autoImplicit false

/-! # Resources that follow a list of actions

A resource whose handlers carry out lists of actions. What handlers, periodic activities and
observers do is recorded in the world that the resources share.
-/

namespace CoapNode.Simulation

/-- One thing that a handler does. -/
inductive Action where
  | write (bytes : Bytes)
  | writeChunk (full : Bytes)
  | setCode (code : Code)
  /-- Write the path of the request. -/
  | writePath
  /-- Write the payload of the request. -/
  | writePayload
  | setObserve (n : UInt32)
  | setContentFormat (format : ContentFormat)
  | setPayload (bytes : Bytes)
  | setBlock2 (block : Block)
  /-- Record the request. -/
  | record
  /-- Say that the method is not supported. -/
  | deny
deriving DecidableEq, Repr

/-- What is recorded. -/
inductive Event where
  /-- A handler of a resource began to answer a request for a path, at an offset and with room for
  a number of bytes. -/
  | handle (method : Method) (resource : Nat) (path : String) (offset capacity : Nat)
  /-- A handler recorded its request. -/
  | request (msg : Message)
  /-- The periodic activity of a resource ran. -/
  | tick (resource : Nat)
  /-- An observer was told of a request to a resource. -/
  | subscribe (path requested : String) (observe : Option UInt32) (acknowledges : Bool)
deriving DecidableEq, Repr

/-- What a resource says about itself, and what will become of that. -/
structure Traits where
  flags : Flags := .none
  period : Option Millis := none
  /-- The period after each tick, as far as it is given. -/
  nextPeriods : List (Option Millis) := []
deriving DecidableEq, Repr

/-- The world of resources that follow lists of actions. -/
structure World where
  traits : List Traits := []
  events : List Event := []
deriving DecidableEq, Repr

namespace World

/-- What a resource says about itself. -/
def get (world : World) (resource : Nat) : Traits := world.traits.getD resource {}

/-- Change what a resource says about itself. -/
def modify (world : World) (resource : Nat) (f : Traits → Traits) : World :=
  { world with traits := world.traits.modify resource f }

/-- Record an event. -/
def record (world : World) (event : Event) : World :=
  { world with events := world.events ++ [event] }

/-- Forget what has been recorded. -/
def forgetEvents (world : World) : World := { world with events := [] }

/-- Add a resource; yields its number. -/
def enter (world : World) (traits : Traits) : Nat × World :=
  (world.traits.length, { world with traits := world.traits ++ [traits] })

end World

/-- Carry out a list of actions. -/
def runActions (req : Request) : List Action → Reply → World → Logged (Handled World)
  | [], reply, world => pure ⟨true, reply, world⟩
  | .deny :: _, reply, world => pure ⟨false, reply, world⟩
  | .record :: rest, reply, world => runActions req rest reply (world.record (.request req.message))
  | .writeChunk full :: rest, reply, world => do
    let reply ← reply.writeChunk full
    runActions req rest reply world
  | action :: rest, reply, world =>
    let change (f : Response → Response) : Reply := { reply with response := f reply.response }
    let reply :=
      match action with
      | .write bytes => reply.write bytes
      | .setCode code => reply.setCode code
      | .writePath => reply.write (Utf8.ofString req.path)
      | .writePayload => reply.write req.message.payload
      | .setObserve n => change (·.setObserve n)
      | .setContentFormat format => change (·.setContentFormat format)
      | .setPayload bytes => change (·.setPayload bytes)
      | .setBlock2 block => change (·.setBlock2 block)
      | _ => reply
    runActions req rest reply world

/-- The resource with a number in the world that says about itself what the world says about it,
and does nothing. -/
def idleResource (n : Nat) : Resource World where
  flags world := (world.get n).flags
  period world := (world.get n).period

/-- The resource with a number in the world that follows a list of actions for each method that it
supports. -/
def scriptedResource (n : Nat) (actions : Method → Option (List Action)) : Resource World :=
  { idleResource n with
    handle := fun method =>
      match actions method with
      | none => .refuse
      | some actions => fun req reply world =>
        runActions req actions reply
          (world.record (.handle method n req.path reply.offset.toNat reply.capacity.toNat))
    tick := fun world =>
      (world.modify n fun traits =>
        { traits with
          period := traits.nextPeriods.head?.getD traits.period
          nextPeriods := traits.nextPeriods.tail }).record (.tick n) }

/-- The observer that numbers all responses alike. -/
def numberingObserver (n : UInt32) : Observer World where
  subscribe path req resp world :=
    (resp.setObserve n, world.record
      (.subscribe path req.path req.message.observeNumber? (resp.message.kind == .ack)))

end CoapNode.Simulation
