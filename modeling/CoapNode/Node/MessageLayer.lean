import CoapNode.Resource.Periodic
import CoapNode.Transaction.Table

set_option autoImplicit false

/-! # The message layer

The message layer decides what a node does with each message: requests go to the registry and are
answered, responses and acknowledgements go to the table of transactions, and pings are answered.
What it wants sent it leaves to the transport.
-/

namespace CoapNode

/-- The part of a node above the transport. The world is the state of its resources. -/
structure MessageLayer (κ ω : Type) where
  registry : Registry ω
  transactions : TransactionTable
  clock : κ
  world : ω
  config : Config

/-- Why the message layer failed. -/
inductive LayerError where
  /-- The clock could not be read. -/
  | clock
  /-- A retry timer has no delay to choose from. -/
  | delay (e : DelayError)
deriving DecidableEq, Repr

namespace MessageLayer

variable {κ ω : Type} [Clock κ]

/-- Send an empty message to a peer. -/
def sendEmpty (peer : Endpoint) (kind : Kind) (id : MessageId) : Traced Activity Unit :=
  Traced.emit (.deliver peer (Message.blank kind id).encode)

/-- Credit a message to the transaction that awaits it; yields the id of that transaction. -/
def credit (layer : MessageLayer κ ω) (msg : Message) :
    Logged (Except LayerError (Option MessageId) × MessageLayer κ ω) :=
  match Clock.now layer.clock with
  | (.error _, clock) => pure (.error .clock, { layer with clock := clock })
  | (.ok now, clock) => do
    match ← layer.transactions.onResponse msg layer.config.con now with
    | .error e => pure (.error (.delay e), { layer with clock := clock })
    | .ok (id, transactions) =>
      pure (.ok id, { layer with clock := clock, transactions := transactions })

/-- Handle a message without a code: a ping is answered with a reset, anything else is an
acknowledgement or a reset. -/
def handleEmpty (layer : MessageLayer κ ω) (peer : Endpoint) (msg : Message) :
    Traced Activity (Except LayerError Unit × MessageLayer κ ω) :=
  if msg.kind = .con then do
    sendEmpty peer .reset msg.id
    pure (.ok (), layer)
  else do
    let (result, layer) ← layer.credit msg
    pure (result.map fun _ => (), layer)

/-- The response to a request before a handler has written to it, with its message id. -/
def draft (layer : MessageLayer κ ω) (req : Request) : Response × MessageLayer κ ω :=
  let resp := Response.forRequest req
  if resp.message.kind = .non then
    let (id, transactions) := layer.transactions.nextId
    (resp.setId id, { layer with transactions := transactions })
  else (resp, layer)

/-- Handle a request: have the registry answer it, and send the answer back. -/
def handleRequest (layer : MessageLayer κ ω) (observer : Observer ω) (peer : Endpoint)
    (req : Request) : Traced Activity (MessageLayer κ ω) := do
  let (resp, layer) := layer.draft req
  let reply := Reply.new req resp layer.config.block.chunkSize
  let (handled, registry) ← layer.registry.dispatch observer req reply layer.world
  let answer := handled.reply.response.message
  Log.trace ("replying " ++ answer.summary ++ " to " ++ peer.text)
  Traced.emit (.deliver peer answer.encode)
  pure { layer with registry := registry, world := handled.world }

/-- Handle a response. One that wants to be acknowledged is, if a transaction awaits it; one that
nobody awaits is refused, unless it is itself an acknowledgement or a reset. -/
def handleResponse (layer : MessageLayer κ ω) (peer : Endpoint) (msg : Message) :
    Traced Activity (Except LayerError Unit × MessageLayer κ ω) := do
  match ← layer.credit msg with
  | (.error e, layer) => pure (.error e, layer)
  | (.ok credited, layer) =>
    match msg.kind, credited with
    | .con, some _ => sendEmpty peer .ack msg.id
    | .con, none | .non, none =>
      Log.debug ("unexpected response from " ++ peer.text)
      sendEmpty peer .reset msg.id
    | _, _ => pure ()
    pure (.ok (), layer)

/-- Handle a message, by its code. -/
def handleMessage (layer : MessageLayer κ ω) (observer : Observer ω) (peer : Endpoint)
    (msg : Message) : Traced Activity (Except LayerError Unit × MessageLayer κ ω) :=
  if msg.code.isEmpty then layer.handleEmpty peer msg
  else if msg.code.cls = 0 then do
    let layer ← layer.handleRequest observer peer ⟨msg⟩
    pure (.ok (), layer)
  else layer.handleResponse peer msg

/-- Handle what has been received from a peer. What is not a message is dropped. -/
def handle (layer : MessageLayer κ ω) (observer : Observer ω) (peer : Endpoint) (bytes : Bytes) :
    Traced Activity (Except LayerError Unit × MessageLayer κ ω) :=
  match Message.parse bytes with
  | .error e => do
    Log.warn ("dropping unparseable datagram from " ++ peer.text ++ ": " ++ e.text)
    pure (.ok (), layer)
  | .ok msg => do
    Log.trace (msg.summary ++ " from " ++ peer.text)
    layer.handleMessage observer peer msg

/-- Do what is due by the clock: retransmit, then run periodic activities. -/
def tend (layer : MessageLayer κ ω) :
    Traced Activity (Except LayerError Unit × MessageLayer κ ω) :=
  match Clock.now layer.clock with
  | (.error _, clock) => pure (.error .clock, { layer with clock := clock })
  | (.ok now, clock) => do
    let transactions ← layer.transactions.pollRetransmit now
    let (fired, registry, clock, world) ← layer.registry.pollTimers clock layer.world
    let result := fired.map (fun _ => ()) |>.mapError fun _ => .clock
    pure (result, ⟨registry, transactions, clock, world, layer.config⟩)

/-- Send a request as a transaction. A request without a token gets one. -/
def send (layer : MessageLayer κ ω) (id : MessageId) (req : Request) :
    Traced Activity (Except SendError Unit × MessageLayer κ ω) :=
  match Clock.now layer.clock with
  | (.error _, clock) => pure (.error .clock, { layer with clock := clock })
  | (.ok now, clock) => do
    let (token, transactions) :=
      if req.message.token.isEmpty then layer.transactions.nextToken
      else (req.message.token, layer.transactions)
    let (result, transactions) ←
      transactions.send id { req.message with token := token } layer.config.con now
    pure (result, { layer with clock := clock, transactions := transactions })

end MessageLayer

end CoapNode
