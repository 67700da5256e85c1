import CoapNode.Transaction.Table

set_option autoImplicit false

/-! # Message exchanges

What a client needs from a node in order to make requests. Everything that requests blocks from
a peer is written against this interface, and a node provides it.
-/

namespace CoapNode

/-- Something that requests can be made through; `ε` is what can go wrong while it runs. -/
class Exchange (s : Type) (ε : outParam Type) where
  /-- Choose a message id that is not in use. -/
  nextId : s → MessageId × s
  /-- Enter a transaction for a request to a peer. -/
  allocate : s → MessageId → Endpoint → Traced Activity (Except AllocError Unit × s)
  /-- Send a request as a transaction. -/
  send : s → MessageId → Request → Traced Activity (Except SendError Unit × s)
  /-- Let things happen, and take the outcome of a transaction if it is over then. -/
  poll : s → MessageId → Traced Activity (Except ε Completion × s)
  /-- Drop a transaction. -/
  cancel : s → MessageId → s

end CoapNode
