import CoapNode.Blockwise.Exchange
import CoapNode.Network.Inbound
import CoapNode.Network.Outbound
import CoapNode.Node.MessageLayer

set_option autoImplicit false

/-! # Nodes

A node is a message layer on top of a transport. `Node.poll` is one turn of its work: it handles
every datagram that can be received, retransmits what is due, and runs periodic activities. A node
is also an exchange through which requests can be made.
-/

namespace CoapNode

/-- A node of the network. -/
structure Node (σ χ κ ω : Type) where
  transport : Transport σ χ
  layer : MessageLayer κ ω

/-- Why a node failed. -/
inductive NodeError (ε δ : Type) where
  /-- The transport failed. -/
  | transport (e : TransportError ε δ)
  /-- The message layer failed. -/
  | layer (e : LayerError)
deriving DecidableEq, Repr

/-- An error as text, given the text of errors of the socket and of the channel. -/
def NodeError.text {ε δ : Type} (socketText : ε → String) (channelText : δ → String)
    (e : NodeError ε δ) : String :=
  let what :=
    match e with
    | .transport e => Text.tagged "Transport" (e.text socketText channelText)
    | .layer .clock => "ClockError"
    | .layer (.delay .emptyRange) => Text.tagged "Delay" "EmptyRange"
  Text.record "Error" [("what", what), ("when", "Polling")]

/-- The complaint about the retry strategy, if that is the cause of an error. -/
def NodeError.delay? {ε δ : Type} : NodeError ε δ → Option DelayError
  | .layer (.delay e) => some e
  | _ => none

namespace Node

variable {σ χ κ ω ε δ : Type}

/-- The seed of message ids and tokens: the time of booting, with the configured seed in its
upper sixteen bits. -/
def seed (config : Config) (boot : Millis) : UInt64 := (config.idSeed.toUInt64 <<< 48) ^^^ boot

section Boot

variable [Clock κ]

/-- A node with room for a number of transactions. The clock is read to seed its choices. -/
def boot (config : Config) (clock : κ) (transport : Transport σ χ) (registry : Registry ω)
    (world : ω) (capacity : Nat) : Except LayerError (Node σ χ κ ω) :=
  match Clock.now clock with
  | (.error _, _) => .error .clock
  | (.ok now, clock) =>
    .ok ⟨transport, registry, .new capacity (seed config now), clock, world, config⟩

/-- Register a resource under a path. -/
def register (node : Node σ χ κ ω) (path : String) (resource : Resource ω) :
    Logged (Except RegisterError Nat × Node σ χ κ ω) := do
  let (result, registry, clock) ←
    node.layer.registry.register path resource node.layer.clock node.layer.world
  pure (result, { node with layer := { node.layer with registry := registry, clock := clock } })

end Boot

/-- Begin to serve requests. -/
def init (node : Node σ χ κ ω) : Logged (Node σ χ κ ω) := do
  let registry ← node.layer.registry.init
  pure { node with layer := { node.layer with registry := registry } }

/-- Drop all resources, and stop serving requests. -/
def teardown (node : Node σ χ κ ω) : Logged (Node σ χ κ ω) := do
  let registry ← node.layer.registry.teardown
  pure { node with layer := { node.layer with registry := registry } }

variable [Socket σ ε] [SecureChannel χ δ]

/-- Let the message layer act, and carry out what it wants done. -/
def act {α : Type} (transport : Transport σ χ) (step : Traced Activity (α × MessageLayer κ ω)) :
    Traced Activity (α × Node σ χ κ ω) := do
  let transport ← transport.perform step.trace
  pure (step.value.1, ⟨transport, step.value.2⟩)

/-- Acting adds nothing to what can be received. -/
theorem backlog_act_le {α : Type} (transport : Transport σ χ)
    (step : Traced Activity (α × MessageLayer κ ω)) :
    (act transport step).value.2.transport.backlog ≤ transport.backlog :=
  Transport.backlog_perform_le transport step.trace

variable [Clock κ]

set_option linter.unusedVariables false in
/-- Handle every datagram that can be received, in order, until there is none left or something
fails. -/
def drain (node : Node σ χ κ ω) (observer : Observer ω) :
    Traced Activity (Except (NodeError ε δ) Unit × Node σ χ κ ω) :=
  let polled := node.transport.poll
  let told := polled.trace.map Activity.log
  match hp : polled.value with
  | (.error .wouldBlock, transport) => ⟨(.ok (), { node with transport := transport }), told⟩
  | (.error (.failed e), transport) =>
    ⟨(.error (.transport e), { node with transport := transport }), told⟩
  | (.ok datagram, transport) =>
    let handled := act transport (node.layer.handle observer datagram.peer datagram.bytes)
    match handled.value with
    | (.error e, node) => ⟨(.error (.layer e), node), told ++ handled.trace⟩
    | (.ok (), _) =>
      let rest := drain handled.value.2 observer
      ⟨rest.value, told ++ handled.trace ++ rest.trace⟩
termination_by node.transport.backlog
decreasing_by
  have hlt := Transport.backlog_poll_lt node.transport (congrArg Prod.fst hp)
  have hle := backlog_act_le transport (node.layer.handle observer datagram.peer datagram.bytes)
  rw [hp] at hlt
  exact Nat.lt_of_le_of_lt hle hlt

/-- One turn of a node's work, with an observer of the requests that it serves. -/
def pollWith (node : Node σ χ κ ω) (observer : Observer ω) :
    Traced Activity (Except (NodeError ε δ) Unit × Node σ χ κ ω) := do
  match ← node.drain observer with
  | (.error e, node) => pure (.error e, node)
  | (.ok (), node) =>
    let (result, node) ← act node.transport node.layer.tend
    pure (result.mapError .layer, node)

/-- One turn of a node's work. -/
def poll (node : Node σ χ κ ω) :
    Traced Activity (Except (NodeError ε δ) Unit × Node σ χ κ ω) :=
  node.pollWith .idle

/-! ## Making requests -/

instance : Exchange (Node σ χ κ ω) (NodeError ε δ) where
  nextId node :=
    let (id, transactions) := node.layer.transactions.nextId
    (id, { node with layer := { node.layer with transactions := transactions } })
  allocate node id peer := do
    let (result, transactions) ← node.layer.transactions.allocate id peer
    pure (result, { node with layer := { node.layer with transactions := transactions } })
  send node id req := act node.transport (node.layer.send id req)
  poll node id := do
    match ← node.poll with
    | (.error e, node) => pure (.error e, node)
    | (.ok (), node) =>
      let (completion, transactions) := node.layer.transactions.take id
      pure (.ok completion, { node with layer := { node.layer with transactions := transactions } })
  cancel node id :=
    { node with layer := { node.layer with
      transactions := node.layer.transactions.cancel id } }

end Node

end CoapNode
