import CoapNode.Blockwise.Exchange

set_option autoImplicit false

/-! # An exchange that follows a script -/

namespace CoapNode.Simulation

/-- What an exchange is asked to do. -/
inductive Call where
  | nextId (id : MessageId)
  | allocate (id : MessageId) (peer : Endpoint)
  | send (id : MessageId) (req : Request)
  | poll (id : MessageId)
  | cancel (id : MessageId)
deriving DecidableEq, Repr

/-- An exchange that answers as its script says, and records what it is asked to do. Where the
script says nothing more, transactions are entered and sent, and polling fails. -/
structure ScriptedExchange where
  counter : MessageId
  allocations : List (Except AllocError Unit)
  sends : List (Except SendError Unit)
  polls : List (Except String Completion)
  calls : List Call := []

/-- Record a call. -/
def ScriptedExchange.record (x : ScriptedExchange) (call : Call) : ScriptedExchange :=
  { x with calls := x.calls ++ [call] }

instance : Exchange ScriptedExchange String where
  nextId x := (x.counter, { x with counter := x.counter + 1 }.record (.nextId x.counter))
  allocate x id peer :=
    pure (x.allocations.head?.getD (.ok ()),
      { x with allocations := x.allocations.tail }.record (.allocate id peer))
  send x id req :=
    pure (x.sends.head?.getD (.ok ()), { x with sends := x.sends.tail }.record (.send id req))
  poll x id :=
    pure (x.polls.head?.getD (.error "script over"),
      { x with polls := x.polls.tail }.record (.poll id))
  cancel x id := x.record (.cancel id)

end CoapNode.Simulation
