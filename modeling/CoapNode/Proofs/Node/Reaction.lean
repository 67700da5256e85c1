import CoapNode.Proofs.Network.Delivered
import CoapNode.Proofs.Node.Layer
import CoapNode.Node.Basic
import CoapNode.Simulation.Node

set_option autoImplicit false

/-! # What a message is answered with

A message is answered with at most one message, which goes to the peer that it came from
(`MessageLayer.reaction`, `MessageLayer.delivered_handle`). A request is answered with what the
registry makes of it. Every other message is answered with an empty one at most, and has nothing to
do with the resources of the node: with other ones the same happens
(`MessageLayer.handle_withServer`).

Whether a message is a request is a matter of its code alone. Acknowledgements and resets are not
answered unless their code is that of a request; then they are served like one
(`Node.receive_receipt`).
-/

namespace CoapNode

/-- Is the message a request? It is if its code is of class 0, but not the one of empty messages. -/
def Message.isRequest (msg : Message) : Bool := !msg.code.isEmpty && msg.code.cls == 0

theorem Message.isRequest_iff {msg : Message} :
    msg.isRequest = true ↔ msg.code.isEmpty = false ∧ msg.code.cls = 0 := by
  simp [isRequest]

namespace MessageLayer

variable {κ ω : Type}

/-! ## Requests -/

/-- What the registry makes of a request. -/
def served (layer : MessageLayer κ ω) (observer : Observer ω) (req : Request) :
    Logged (Handled ω) :=
  Prod.fst <$> layer.registry.dispatch observer req
    (.new req (layer.draft req).1 layer.config.block.chunkSize) layer.world

/-- The message that a request is answered with. -/
def answer (layer : MessageLayer κ ω) (observer : Observer ω) (req : Request) : Message :=
  (layer.served observer req).value.reply.response.message

/-- **A request is dispatched once**, and the answer of the registry is the one message that is
delivered. -/
theorem handleRequest_eq (layer : MessageLayer κ ω) (observer : Observer ω) (peer : Endpoint)
    (req : Request) :
    layer.handleRequest observer peer req = (do
      let handled ← layer.served observer req
      Log.trace ("replying " ++ handled.reply.response.message.summary ++ " to " ++ peer.text)
      Traced.emit (.deliver peer handled.reply.response.message.encode)
      pure { (layer.draft req).2 with world := handled.world }) := by
  have hdraft := layer.layer_draft req
  rw [handleRequest, served]
  rcases hpair : layer.draft req with ⟨resp, next⟩
  rw [hpair] at hdraft
  dsimp only at hdraft ⊢
  rw [hdraft]
  dsimp only
  -- the registry that is written back is the one that has been there
  rw [Registry.dispatch_eq_map]
  simp [Traced.liftM_map]

variable [Clock κ]

/-! ## Messages that are no requests -/

/-- The kind of the empty message that a message is answered with, if it is answered and is no
request: a ping is refused, a response that wants to be acknowledged is if a transaction awaits it,
and one that nobody awaits is refused unless it acknowledges or refuses something itself. -/
def receipt? (layer : MessageLayer κ ω) (msg : Message) : Option Kind :=
  if msg.code.isEmpty then
    if msg.kind = .con then some .reset else none
  else
    match msg.kind, (layer.credit msg).value.1 with
    | .con, .ok (some _) => some .ack
    | .con, .ok none | .non, .ok none => some .reset
    | _, _ => none

/-- **The message that a message is answered with**, if it is answered. -/
def reaction (layer : MessageLayer κ ω) (observer : Observer ω) (msg : Message) : Option Message :=
  if msg.isRequest then some (layer.answer observer ⟨msg⟩)
  else (layer.receipt? msg).map fun kind => .blank kind msg.id

/-- Acknowledgements and resets are answered with no empty message. -/
theorem receipt?_eq_none {layer : MessageLayer κ ω} {msg : Message}
    (h : msg.kind = .ack ∨ msg.kind = .reset) : layer.receipt? msg = none := by
  rw [receipt?]
  rcases h with h | h <;> rw [h] <;> simp

theorem delivered_handleEmpty {layer : MessageLayer κ ω} {msg : Message} (peer : Endpoint)
    (hempty : msg.code.isEmpty = true) :
    delivered (layer.handleEmpty peer msg).trace
      = ((layer.receipt? msg).map fun kind =>
          (peer, (Message.blank kind msg.id).encode)).toList := by
  rw [handleEmpty, receipt?, if_pos hempty]
  split <;> simp [sendEmpty]

theorem delivered_handleResponse {layer : MessageLayer κ ω} {msg : Message} (peer : Endpoint)
    (hempty : msg.code.isEmpty = false) :
    delivered (layer.handleResponse peer msg).trace
      = ((layer.receipt? msg).map fun kind =>
          (peer, (Message.blank kind msg.id).encode)).toList := by
  rw [handleResponse, receipt?, if_neg (by simp [hempty]), Traced.trace_bind, Traced.trace_liftM,
    Traced.value_liftM, delivered_append, delivered_map_log, List.nil_append]
  rcases (layer.credit msg).value with ⟨_ | _ | _, next⟩ <;> cases msg.kind <;> simp [sendEmpty]

/-- **What a datagram is answered with**, and to whom the answer goes. -/
theorem delivered_handle (layer : MessageLayer κ ω) (observer : Observer ω) (peer : Endpoint)
    (bytes : Bytes) :
    delivered (layer.handle observer peer bytes).trace
      = match Message.parse bytes with
        | .error _ => []
        | .ok msg =>
          ((layer.reaction observer msg).map fun reply => (peer, reply.encode)).toList := by
  rw [handle]
  cases Message.parse bytes with
  | error e => simp
  | ok msg =>
      have hreceipt : ((layer.receipt? msg).map (.blank · msg.id)).map
            (fun reply : Message => (peer, reply.encode))
          = (layer.receipt? msg).map fun kind => (peer, (Message.blank kind msg.id).encode) := by
        rw [Option.map_map]
        rfl
      dsimp only
      rw [Traced.trace_bind, Traced.trace_liftM, delivered_append, delivered_map_log,
        List.nil_append, handleMessage, reaction, Message.isRequest]
      by_cases hempty : msg.code.isEmpty = true
      · simp only [hempty, if_true, Bool.not_true, Bool.false_and, if_false, Bool.false_eq_true,
          hreceipt]
        exact delivered_handleEmpty peer hempty
      · by_cases hcls : msg.code.cls = 0
        · simp [hempty, hcls, handleRequest_eq, answer]
        · simp only [hempty, hcls, if_false, beq_iff_eq, Bool.and_eq_true, and_false, hreceipt]
          exact delivered_handleResponse peer (Bool.eq_false_iff.2 hempty)

/-- Handling a datagram leaves the registry as it is. -/
theorem registry_handle (layer : MessageLayer κ ω) (observer : Observer ω) (peer : Endpoint)
    (bytes : Bytes) :
    (layer.handle observer peer bytes).value.2.registry = layer.registry := by
  rcases layer.layer_handle_cases observer peer bytes with h | ⟨msg, h⟩ | ⟨req, world, h⟩
  · rw [h]
  · rw [h, value_credit]
    split
    · rfl
    · split <;> rfl
  · rw [h]

/-! ## Other resources

The layer may be given other resources, of any kind and with another world. A message that is no
request is handled in the same way then, down to the log.
-/

section

variable {ω' : Type} {layer : MessageLayer κ ω} (registry : Registry ω') (world : ω')

/-- The message layer with other resources. -/
def withServer (layer : MessageLayer κ ω) (registry : Registry ω') (world : ω') :
    MessageLayer κ ω' :=
  ⟨registry, layer.transactions, layer.clock, world, layer.config⟩

/-- A step with its layer given other resources. -/
def servedBy {α ε : Type} (step : Traced ε (α × MessageLayer κ ω)) :
    Traced ε (α × MessageLayer κ ω') :=
  ⟨(step.value.1, step.value.2.withServer registry world), step.trace⟩

theorem credit_withServer (msg : Message) :
    (layer.withServer registry world).credit msg = servedBy registry world (layer.credit msg) := by
  simp only [credit, withServer]
  split
  · rfl
  · next now clock _ =>
      rcases layer.transactions.onResponse msg layer.config.con now with ⟨_ | answer, lines⟩ <;> rfl

theorem handleEmpty_withServer (peer : Endpoint) (msg : Message) :
    (layer.withServer registry world).handleEmpty peer msg
      = servedBy registry world (layer.handleEmpty peer msg) := by
  rw [handleEmpty, handleEmpty, credit_withServer]
  split <;> rfl

theorem handleResponse_withServer (peer : Endpoint) (msg : Message) :
    (layer.withServer registry world).handleResponse peer msg
      = servedBy registry world (layer.handleResponse peer msg) := by
  rw [handleResponse, handleResponse, credit_withServer]
  rcases layer.credit msg with ⟨⟨_ | _ | _, next⟩, lines⟩
  · rfl
  all_goals cases msg.kind <;> rfl

/-- **Only requests have to do with the resources of a node.** -/
theorem handle_withServer {bytes : Bytes}
    (h : ∀ msg, Message.parse bytes = .ok msg → msg.isRequest = false)
    (observer : Observer ω) (observer' : Observer ω') (peer : Endpoint) :
    (layer.withServer registry world).handle observer' peer bytes
      = servedBy registry world (layer.handle observer peer bytes) := by
  rw [handle, handle]
  cases hparse : Message.parse bytes with
  | error e => rfl
  | ok msg =>
      have hmessage : (layer.withServer registry world).handleMessage observer' peer msg
          = servedBy registry world (layer.handleMessage observer peer msg) := by
        have hmsg := h msg hparse
        rw [handleMessage, handleMessage]
        split
        · exact handleEmpty_withServer registry world peer msg
        · next hempty =>
            have hcls : msg.code.cls ≠ 0 := by simpa [Message.isRequest, hempty] using hmsg
            rw [if_neg hcls, if_neg hcls]
            exact handleResponse_withServer registry world peer msg
      dsimp only
      rw [hmessage]
      rfl

end

end MessageLayer

namespace Node

variable {σ χ κ ω ε δ : Type} [Socket σ ε] [SecureChannel χ δ]

/-- What the message layer wants delivered is delivered, and nothing else. -/
theorem delivered_act {α : Type} (transport : Transport σ χ)
    (step : Traced Activity (α × MessageLayer κ ω)) :
    delivered (act transport step).trace = delivered step.trace := by
  rw [act, Traced.trace_bind, Traced.trace_pure, List.append_nil, Transport.delivered_perform]

variable [Clock κ]

/-- Handle a datagram that has been received. -/
def receive (node : Node σ χ κ ω) (observer : Observer ω) (datagram : Datagram) :
    Traced Activity (Except LayerError Unit × Node σ χ κ ω) :=
  act node.transport (node.layer.handle observer datagram.peer datagram.bytes)

/-- The node with other resources. -/
def withServer {ω' : Type} (node : Node σ χ κ ω) (registry : Registry ω') (world : ω') :
    Node σ χ κ ω' :=
  ⟨node.transport, node.layer.withServer registry world⟩

/-- **What a node delivers for a datagram**: an answer to its sender, or nothing. -/
theorem delivered_receive (node : Node σ χ κ ω) (observer : Observer ω) (datagram : Datagram) :
    delivered (node.receive observer datagram).trace
      = match Message.parse datagram.bytes with
        | .error _ => []
        | .ok msg => ((node.layer.reaction observer msg).map fun reply =>
            (datagram.peer, reply.encode)).toList := by
  rw [receive, delivered_act, MessageLayer.delivered_handle]

/-! ## Main result -/

/-- **What acknowledgements and resets do to a node.** An acknowledgement or a reset is answered
with nothing, exactly if its code is not that of a request. Then the transport is left alone, and no
resource and no observer takes part: with others in their places the node does the same. If the code
is that of a request, though, the message is dispatched to the resources and answered. -/
theorem receive_receipt (node : Node σ χ κ ω) (observer : Observer ω) {datagram : Datagram}
    {msg : Message} (hparse : Message.parse datagram.bytes = .ok msg)
    (hkind : msg.kind = .ack ∨ msg.kind = .reset) :
    (delivered (node.receive observer datagram).trace = [] ↔ msg.isRequest = false)
      ∧ (msg.isRequest = false →
          (node.receive observer datagram).value.2.transport = node.transport
          ∧ ∀ (ω' : Type) (registry : Registry ω') (observer' : Observer ω') (world : ω'),
            (node.withServer registry world).receive observer' datagram
              = ⟨((node.receive observer datagram).value.1,
                  (node.receive observer datagram).value.2.withServer registry world),
                (node.receive observer datagram).trace⟩)
      ∧ (msg.isRequest = true →
          delivered (node.receive observer datagram).trace
            = [(datagram.peer, (node.layer.answer observer ⟨msg⟩).encode)]
          ∧ (node.receive observer datagram).value.2.layer.world
            = (node.layer.served observer ⟨msg⟩).value.world) := by
  have hdelivered := node.delivered_receive observer datagram
  rw [hparse] at hdelivered
  dsimp only at hdelivered
  rw [MessageLayer.reaction, MessageLayer.receipt?_eq_none hkind, Option.map_none] at hdelivered
  refine ⟨?_, fun hother => ⟨?_, fun ω' registry observer' world => ?_⟩, fun hrequest => ⟨?_, ?_⟩⟩
  · rw [hdelivered]
    cases msg.isRequest <;> simp
  · have hnone :
        delivered (node.layer.handle observer datagram.peer datagram.bytes).trace = [] := by
      rw [receive, delivered_act] at hdelivered
      simpa [hother] using hdelivered
    rw [receive, act, Transport.perform_of_delivered_eq_nil _ hnone]
    rfl
  · rw [receive, withServer, MessageLayer.handle_withServer registry world _ observer]
    · rfl
    · intro msg' hparse'
      obtain rfl : msg = msg' := Except.ok.inj (hparse.symm.trans hparse')
      exact hother
  · rw [hdelivered, if_pos hrequest]
    rfl
  · obtain ⟨hempty, hcls⟩ := Message.isRequest_iff.1 hrequest
    show (node.layer.handle observer datagram.peer datagram.bytes).value.2.world = _
    rw [MessageLayer.value_handle, hparse]
    dsimp only
    rw [MessageLayer.value_handleMessage, if_neg (by simp [hempty]), if_pos hcls,
      MessageLayer.handleRequest_eq]
    rfl

/-! ## An acknowledgement with the code of a request -/

open Simulation

/-- A client that speaks in plaintext. -/
def sampleClient : Endpoint := ⟨⟨0xFE80, 0, 0, 0, 0, 0, 0, 2⟩, Endpoint.defaultPort, false⟩

/-- A node that greets whoever asks for `a`. -/
def sampleGreeter : MemoryNode :=
  let greeter : Resource World := scriptedResource 0 fun method =>
    if method = .get then some [.write (Utf8.ofString "hi")] else none
  ⟨MemoryTransport.ofChannel {} none 1152, ⟨4, [⟨"a", .none, greeter⟩], [], true⟩, .new 4 0, {}, {},
    {}⟩

/-- An acknowledgement that asks for `a`, with the code 0.01. -/
def sampleReceipt : Bytes := [0x61, 0x01, 0, 7, 0xAA, 0xB1, 0x61]

/-- The node lets its resource answer an acknowledgement, and sends the answer. -/
theorem receive_sampleReceipt :
    (Message.parse sampleReceipt).toOption.map (·.kind) = some .ack
      ∧ (delivered (sampleGreeter.receive .idle ⟨sampleClient, sampleReceipt⟩).trace).map Prod.fst
        = [sampleClient]
      ∧ (sampleGreeter.receive .idle ⟨sampleClient, sampleReceipt⟩).value.2.layer.world.events
        = [.handle .get 0 "a" 0 64] := by
  decide +kernel

/-- A reset, for a message id that nobody knows. -/
def sampleReset : Datagram := ⟨sampleClient, (Message.blank .reset 7).encode⟩

theorem receive_receipt_sampleReset :
    Message.parse sampleReset.bytes = .ok (.blank .reset 7)
      ∧ (Message.blank .reset 7).isRequest = false
      ∧ delivered (sampleGreeter.receive .idle sampleReset).trace = []
      ∧ (sampleGreeter.receive .idle sampleReset).value.2.transport = sampleGreeter.transport := by
  have hparse : Message.parse sampleReset.bytes = .ok (.blank .reset 7) := by decide +kernel
  have hother : (Message.blank .reset 7).isRequest = false := by decide
  obtain ⟨hsilent, hleft, -⟩ := receive_receipt sampleGreeter .idle hparse (.inr rfl)
  exact ⟨hparse, hother, hsilent.2 hother, (hleft hother).1⟩

end Node

end CoapNode
