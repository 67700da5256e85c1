import CoapNode.Proofs.Node.Intake
import CoapNode.Proofs.Node.Turn
import CoapNode.Proofs.Resource.Dispatch
import CoapNode.Proofs.Transaction.Holders

set_option autoImplicit false

/-! # Serving requests

In one turn a node answers each request that it takes in once, in the order in which the requests
come (`Node.requests_answered`). The answer is what the registry makes of the request. It goes to
the endpoint that the request came from and carries the token of the request; a confirmable request
is acknowledged by its answer, any other one is answered with a message of its own, whose id no
transaction uses.

Two things are up to others. The kind of the answer is kept by all handlers that only edit their
response, but one that puts another message in its place can have any kind; and a datagram is what
the transport yields, which is no more than its buffer has room for (`Node.requests_unmet`).
-/

namespace CoapNode

namespace MessageLayer

variable {κ ω : Type} {layer : MessageLayer κ ω} {observer : Observer ω} {req : Request}

/-! ## The answer to a request -/

theorem draft_of_con (h : req.message.kind = .con) :
    layer.draft req = (.forRequest req, layer) := by
  simp [draft, Response.forRequest, Message.blank, h]

theorem draft_of_ne_con (h : req.message.kind ≠ .con) :
    layer.draft req = ((Response.forRequest req).setId layer.transactions.nextId.1,
      { layer with transactions := layer.transactions.nextId.2 }) := by
  simp [draft, Response.forRequest, Message.blank, h]

theorem code_draft (layer : MessageLayer κ ω) (req : Request) :
    (layer.draft req).1.message.code = .content := by
  simp only [draft]
  split <;> rfl

/-- The registry is given the draft to write to. -/
theorem response_new (req : Request) (resp : Response) (chunkSize : UInt16) :
    (Reply.new req resp chunkSize).response = resp := by
  rw [Reply.new]
  split <;> rfl

/-- **What handlers and observer keep of a response** is in the answer as it is in the draft. -/
theorem part_answer {β : Type} {part : Message → β} (h : layer.registry.Keeps observer part)
    (hcode : ∀ msg code, part { msg with code := code } = part msg)
    (hpayload : ∀ msg, part { msg with payload := [] } = part msg) (req : Request) :
    part (layer.answer observer req) = part (layer.draft req).1.message := by
  refine (h (part (layer.draft req).1.message)).dispatch (fun msg code _ hmsg => ?_)
    (fun msg hmsg => ?_) (by rw [response_new])
  · exact (hcode msg code).trans hmsg
  · exact (hpayload msg).trans hmsg

/-- The answer acknowledges a confirmable request, and is not confirmable otherwise. -/
theorem kind_answer (h : layer.registry.Keeps observer (·.kind)) (req : Request) :
    (layer.answer observer req).kind = if req.message.kind = .con then .ack else .non := by
  refine (part_answer h (fun _ _ => rfl) (fun _ => rfl) req).trans ?_
  by_cases hcon : req.message.kind = .con
  · rw [draft_of_con hcon, if_pos hcon]
    simp [Response.forRequest, Message.blank, hcon]
  · rw [draft_of_ne_con hcon, if_neg hcon]
    simp [Response.forRequest, Response.setId, Message.blank, hcon]

variable [Clock κ]

/-- **A request is dispatched once**, and what comes of that is all there is to handling it. -/
theorem handle_request {bytes : Bytes} {msg : Message} (hparse : Message.parse bytes = .ok msg)
    (hrequest : msg.isRequest = true) (layer : MessageLayer κ ω) (observer : Observer ω)
    (peer : Endpoint) :
    layer.handle observer peer bytes = (do
      Log.trace (msg.summary ++ " from " ++ peer.text)
      let handled ← layer.served observer ⟨msg⟩
      let answer := handled.reply.response.message
      Log.trace ("replying " ++ answer.summary ++ " to " ++ peer.text)
      Traced.emit (.deliver peer answer.encode)
      pure (.ok (), { (layer.draft ⟨msg⟩).2 with world := handled.world })) := by
  obtain ⟨hempty, hcls⟩ := Message.isRequest_iff.1 hrequest
  rw [handle, hparse]
  dsimp only
  rw [handleMessage, if_neg (by simp [hempty]), if_pos hcls, handleRequest_eq]
  simp only [bind_assoc, pure_bind]

end MessageLayer

/-! ## One request -/

section

variable {σ χ κ ω ε δ : Type} [Socket σ ε] [SecureChannel χ δ] [Clock κ]

/-- **A request is answered**: it is dispatched once, the answer is the one message that is
delivered, to the sender of the request, and the answer belongs to the request. -/
structure Visit.Answered (visit : Visit σ χ κ ω) (observer : Observer ω) (msg reply : Message) :
    Prop where
  dispatched : visit.node.layer.handle observer visit.datagram.peer visit.datagram.bytes = (do
    Log.trace (msg.summary ++ " from " ++ visit.datagram.peer.text)
    let handled ← visit.node.layer.served observer ⟨msg⟩
    let answer := handled.reply.response.message
    Log.trace ("replying " ++ answer.summary ++ " to " ++ visit.datagram.peer.text)
    Traced.emit (.deliver visit.datagram.peer answer.encode)
    pure (.ok (), { (visit.node.layer.draft ⟨msg⟩).2 with world := handled.world }))
  reply_eq : reply = (visit.node.layer.served observer ⟨msg⟩).value.reply.response.message
  replies : visit.replies observer = [(visit.datagram.peer, reply.encode)]
  token : reply.token = msg.token
  id_of_con : msg.kind = .con → reply.id = msg.id
  unused_of_ne_con : msg.kind ≠ .con → visit.node.layer.transactions.get? reply.id = none

/-- A request is answered if there are ids left, and id and token of the response are kept. -/
theorem Visit.answered {visit : Visit σ χ κ ω} {observer : Observer ω} {msg : Message}
    (hroom : visit.node.layer.transactions.size < 65536)
    (hid : visit.node.layer.registry.Keeps observer (·.id))
    (htoken : visit.node.layer.registry.Keeps observer (·.token))
    (hparse : Message.parse visit.datagram.bytes = .ok msg) (hrequest : msg.isRequest = true) :
    visit.Answered observer msg (visit.node.layer.answer observer ⟨msg⟩) where
  dispatched := MessageLayer.handle_request hparse hrequest ..
  reply_eq := rfl
  replies := by
    rw [Visit.replies, Node.delivered_receive, hparse]
    dsimp only
    rw [MessageLayer.reaction, if_pos hrequest]
    rfl
  token := by
    refine (MessageLayer.part_answer htoken (fun _ _ => rfl) (fun _ => rfl) ⟨msg⟩).trans ?_
    rw [MessageLayer.draft]
    dsimp only
    split <;> rfl
  id_of_con hcon := by
    refine (MessageLayer.part_answer hid (fun _ _ => rfl) (fun _ => rfl) ⟨msg⟩).trans ?_
    rw [MessageLayer.draft_of_con hcon]
    simp [Response.forRequest, Message.blank, hcon]
  unused_of_ne_con hcon := by
    have hreply : (visit.node.layer.answer observer ⟨msg⟩).id
        = visit.node.layer.transactions.nextId.1 := by
      refine (MessageLayer.part_answer hid (fun _ _ => rfl) (fun _ => rfl) ⟨msg⟩).trans ?_
      rw [MessageLayer.draft_of_ne_con hcon]
      rfl
    rw [hreply]
    exact TransactionTable.get?_nextId hroom

/-! ## Main result -/

namespace Node

/-- What a turn delivers: the answers to what is taken in, then what has become due. -/
theorem delivered_pollWith {node last : Node σ χ κ ω} {observer : Observer ω}
    (hdrain : (node.drain observer).value = (.ok (), last)) :
    delivered (node.pollWith observer).trace
      = delivered (node.drain observer).trace ++ delivered last.layer.tend.trace := by
  rw [pollWith, Traced.trace_bind, delivered_append, hdrain, Traced.trace_bind, delivered_append,
    delivered_act, Traced.trace_pure, delivered_nil, List.append_nil]

/-- What comes of a turn in which draining succeeds. -/
theorem value_pollWith {node last : Node σ χ κ ω} {observer : Observer ω}
    (hdrain : (node.drain observer).value = (.ok (), last)) :
    (node.pollWith observer).value
      = (last.layer.tend.value.1.mapError .layer,
        (act last.transport last.layer.tend).value.2) := by
  rw [pollWith, Traced.value_bind, hdrain]
  rfl

theorem drain_of_pollWith {node : Node σ χ κ ω} {observer : Observer ω}
    (hok : (node.pollWith observer).value.1 = .ok ()) :
    ∃ last, (node.drain observer).value = (.ok (), last) := by
  rw [pollWith, Traced.value_bind] at hok
  split at hok
  · cases hok
  · next last hdrain => exact ⟨last, hdrain⟩

/-- **Every request is answered exactly once.** If a turn succeeds, the node has taken in datagrams
until there were none left, and delivered what each of them was answered with, in this order, before
the packets that became due. Each datagram came from the endpoint that it says. For each request
among them there is one answer, which the registry has made in one dispatch, which goes to the
sender of the request, and which carries the token of the request. It has the id of a confirmable
request and acknowledges it, or is a message of its own that is not confirmable, with an id that no
transaction uses; editing a response does not change its kind (`Response.Edited.kind_eq`), only
putting another one in its place can. -/
theorem requests_answered (node : Node σ χ κ ω) (observer : Observer ω)
    (hroom : node.layer.transactions.size < 65536)
    (hid : node.layer.registry.Keeps observer (·.id))
    (htoken : node.layer.registry.Keeps observer (·.token))
    (hok : (node.pollWith observer).value.1 = .ok ()) :
    ∃ visits last, node.Drains observer visits (.ok (), last)
      ∧ delivered (node.pollWith observer).trace
        = (visits.flatMap fun visit => visit.replies observer) ++ delivered last.layer.tend.trace
      ∧ ∀ visit ∈ visits, visit.Genuine ∧ ∀ msg, Message.parse visit.datagram.bytes = .ok msg →
          msg.isRequest = true → ∃ reply, visit.Answered observer msg reply
            ∧ (node.layer.registry.Keeps observer (·.kind) →
              reply.kind = if msg.kind = .con then .ack else .non) := by
  obtain ⟨visits, hdrains, hreplies⟩ := node.drains_drain observer
  obtain ⟨last, hdrain⟩ := drain_of_pollWith hok
  rw [hdrain] at hdrains
  refine ⟨visits, last, hdrains, ?_, fun visit hvisit => ⟨hdrains.genuine visit hvisit, ?_⟩⟩
  · rw [delivered_pollWith hdrain, hreplies]
  · -- the registry stays what it is, and no place of the table is won or lost
    obtain ⟨hvisits, -⟩ := hdrains.layer
      (P := fun layer => layer.registry = node.layer.registry
        ∧ node.layer.transactions.Passes layer.transactions)
      (fun layer peer bytes h => ⟨(layer.registry_handle observer peer bytes).trans h.1,
        h.2.trans (layer.passes_handle observer peer bytes)⟩) ⟨rfl, .refl _⟩
    obtain ⟨hregistry, hpasses⟩ := hvisits visit hvisit
    have hsize : visit.node.layer.transactions.size < 65536 := by
      rw [← TransactionTable.length_holders, hpasses.holders_eq, TransactionTable.length_holders]
      exact hroom
    intro msg hparse hrequest
    rw [← hregistry] at hid htoken ⊢
    exact ⟨_, Visit.answered hsize hid htoken hparse hrequest,
      fun hkind => MessageLayer.kind_answer hkind ⟨msg⟩⟩

open Simulation

/-- A confirmable request for `a`. -/
def sampleAsk : Bytes := [0x41, 0x01, 0, 7, 0xAA, 0xB1, 0x61]

/-- The node with the request waiting on its plaintext socket. -/
def withAsk (node : MemoryNode) : MemoryNode :=
  node.withTransport (MemoryTransport.onSocket node.transport false fun socket =>
    socket.enqueue (.datagram sampleAsk sampleClient.socketAddress))

/-- A node whose handler puts a confirmable message in the place of its response. -/
def sampleContrary : MemoryNode :=
  let contrary : Resource World :=
    { handle := fun _ _ reply world =>
        let msg := { reply.response.message with kind := .con }
        pure ⟨true, { reply with response := ⟨msg⟩ }, world⟩ }
  withAsk (sampleGreeter.withServer ⟨4, [⟨"a", .none, contrary⟩], [], true⟩ {})

/-- The node that greets, with a buffer that is shorter than the request. -/
def sampleShort : MemoryNode :=
  withAsk (sampleGreeter.withTransport (MemoryTransport.ofChannel {} none 6))

theorem keeps_sampleContrary {β : Type} {part : Message → β}
    (hpart : ∀ msg kind, part { msg with kind := kind } = part msg) :
    sampleContrary.layer.registry.Keeps .idle part := fun _ =>
  { handlers := fun entry hentry _ _ reply _ h => by
      obtain rfl := List.mem_singleton.1 hentry
      exact (hpart reply.response.message .con).trans h
    observer := fun _ _ _ _ h => h }

/-- **Requests that are not answered as they should be**, in turns that succeed. A handler that keeps
id and token of its response has a confirmable request answered by a confirmable message, and a
request that is longer than the buffer is not answered at all. -/
theorem requests_unmet :
    (Message.parse sampleAsk).toOption.map (fun msg => (msg.isRequest, msg.kind))
        = some (true, .con)
      ∧ (sampleContrary.transport.plain.inbox
          = [.datagram sampleAsk sampleClient.socketAddress]
        ∧ sampleContrary.layer.registry.Keeps .idle (·.id)
        ∧ sampleContrary.layer.registry.Keeps .idle (·.token)
        ∧ (sampleContrary.pollWith .idle).value.1 = .ok ()
        ∧ (delivered (sampleContrary.pollWith .idle).trace).map
            (fun delivery => (Message.parse delivery.2).toOption.map (·.kind)) = [some .con])
      ∧ sampleShort.transport.plain.inbox = [.datagram sampleAsk sampleClient.socketAddress]
      ∧ (sampleShort.pollWith .idle).value.1 = .ok ()
      ∧ delivered (sampleShort.pollWith .idle).trace = [] := by
  refine ⟨by decide +kernel, ⟨by decide +kernel, ?_, ?_, by decide +kernel, by decide +kernel⟩,
    by decide +kernel⟩
  · exact keeps_sampleContrary fun _ _ => rfl
  · exact keeps_sampleContrary fun _ _ => rfl

/-! ## Requests on both sockets -/

/-- The node that greets changes nothing of a response but its payload. -/
theorem preserves_sampleGreeter {P : Message → Prop}
    (hpayload : ∀ msg payload, P msg → P { msg with payload := payload }) :
    sampleGreeter.layer.registry.Preserves .idle P where
  handlers := by
    intro entry hentry method req reply world h
    obtain rfl := List.mem_singleton.1 hentry
    cases method with
    | get => exact hpayload _ _ h
    | _ => exact h
  observer _ _ _ _ h := h

/-- The node with two requests for `a` and something that is no message waiting for it. One of the
requests is confirmable and has come in plaintext, the other one is in a record of the channel. -/
def sampleAsked : MemoryNode :=
  let arrive (bytes : Bytes) (socket : MemorySocket) : MemorySocket :=
    socket.enqueue (.datagram bytes sampleClient.socketAddress)
  let transport := MemoryTransport.ofChannel {} (some ⟨.greeting, false, []⟩) 1152
  sampleGreeter.withTransport
    (((transport.onSocket false (arrive sampleAsk)).onSocket false
      (arrive [0xFF])).onSocket true
      (arrive (OpenChannel.tagged "enc:" [0x51, 0x01, 0, 8, 0xBB, 0xB1, 0x61])))

theorem requests_answered_sampleAsked :
    (sampleAsked.pollWith .idle).value.1 = .ok ()
      ∧ (∃ visits last, sampleAsked.Drains .idle visits (.ok (), last)
        ∧ delivered (sampleAsked.pollWith .idle).trace
          = (visits.flatMap fun visit => visit.replies .idle) ++ delivered last.layer.tend.trace
        ∧ ∀ visit ∈ visits, ∀ msg, Message.parse visit.datagram.bytes = .ok msg →
            msg.isRequest = true → ∃ reply, visit.Answered .idle msg reply
              ∧ reply.kind = if msg.kind = .con then .ack else .non)
      ∧ (delivered (sampleAsked.pollWith .idle).trace).map Prod.fst
        = [sampleClient, sampleClient.withSecure true] := by
  have hok : (sampleAsked.pollWith .idle).value.1 = .ok () := by decide +kernel
  obtain ⟨visits, last, hdrains, hdelivered, hvisits⟩ := requests_answered sampleAsked .idle
    (by decide +kernel) (fun _ => preserves_sampleGreeter fun _ _ h => h)
    (fun _ => preserves_sampleGreeter fun _ _ h => h) hok
  refine ⟨hok, ⟨visits, last, hdrains, hdelivered, ?_⟩, by decide +kernel⟩
  intro visit hvisit msg hparse hrequest
  obtain ⟨reply, hanswered, hkind⟩ := (hvisits visit hvisit).2 msg hparse hrequest
  exact ⟨reply, hanswered, hkind fun _ => preserves_sampleGreeter fun _ _ h => h⟩

end Node

end

end CoapNode
