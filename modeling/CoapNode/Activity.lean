import CoapNode.Bytes
import CoapNode.Endpoint.Basic
import CoapNode.Log

set_option autoImplicit false

/-! # What a node does

Everything that a node does to the outside, in the order in which it does it: the lines it logs,
the messages it wants delivered to a peer, and where the transport hands the bytes of a message.
-/

namespace CoapNode

/-- One thing that a node does. -/
inductive Activity where
  /-- Write a line to the log. -/
  | log (line : LogLine)
  /-- Ask the transport to deliver the bytes of a message to a peer. -/
  | deliver (peer : Endpoint) (bytes : Bytes)
  /-- Hand bytes to the plaintext socket. -/
  | sendPlain (address : SocketAddress) (bytes : Bytes)
  /-- Hand bytes to the secure channel. -/
  | sendSecure (peer : Endpoint) (bytes : Bytes)
deriving DecidableEq, Repr

/-- The line that an activity writes to the log, if that is what it is. -/
def Activity.line? : Activity → Option LogLine
  | .log line => some line
  | _ => none

/-- Log lines are activities. -/
instance : MonadLift Logged (Traced Activity) := ⟨Traced.mapTrace Activity.log⟩

@[simp] theorem Traced.value_liftM {α : Type} (x : Logged α) :
    (liftM x : Traced Activity α).value = x.value := rfl

@[simp] theorem Traced.trace_liftM {α : Type} (x : Logged α) :
    (liftM x : Traced Activity α).trace = x.trace.map Activity.log := rfl

/-- A value that is computed while lines are logged may be changed before or after these lines
become activities. -/
theorem Traced.liftM_map {α β : Type} (f : α → β) (x : Logged α) :
    (liftM (f <$> x) : Traced Activity β) = f <$> (liftM x : Traced Activity α) := by
  have htrace : (f <$> x).trace.map Activity.log
      = (f <$> (liftM x : Traced Activity α)).trace := by simp
  exact congrArg (Traced.mk (f x.value)) htrace

end CoapNode
