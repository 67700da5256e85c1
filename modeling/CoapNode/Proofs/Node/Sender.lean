import CoapNode.Node.Basic
import CoapNode.Proofs.Node.Layer
import CoapNode.Proofs.Transaction.Credit
import CoapNode.Simulation.Node

set_option autoImplicit false

/-! # The sender of a datagram

A node credits what it receives to its transactions by message id and by token. The endpoint that a
datagram came from decides where answers are sent to, and about nothing else: what becomes of the
message layer is the same for every sender (`MessageLayer.value_handle_congr`). So any endpoint can
acknowledge, reset or answer a request if it knows the id or the token of the request, and no
endpoint can change a transaction with a datagram that answers to neither.
-/

namespace CoapNode

namespace MessageLayer

variable {κ ω : Type} [Clock κ]

/-- **What becomes of the message layer does not depend on the sender.** -/
theorem value_handle_congr (layer : MessageLayer κ ω) (observer : Observer ω) (bytes : Bytes)
    (peer peer' : Endpoint) :
    (layer.handle observer peer bytes).value = (layer.handle observer peer' bytes).value := by
  simp only [value_handle, value_handleMessage, value_handleEmpty, value_handleRequest,
    value_handleResponse]

end MessageLayer

namespace Node

variable {σ χ κ ω ε δ : Type} [Socket σ ε] [SecureChannel χ δ] [Clock κ]

/-- The message layer of a node after it has handled a datagram. -/
def layerAfter (node : Node σ χ κ ω) (observer : Observer ω) (datagram : Datagram) :
    MessageLayer κ ω :=
  (act node.transport (node.layer.handle observer datagram.peer datagram.bytes)).value.2.layer

theorem layerAfter_eq (node : Node σ χ κ ω) (observer : Observer ω) (datagram : Datagram) :
    node.layerAfter observer datagram
      = (node.layer.handle observer datagram.peer datagram.bytes).value.2 :=
  rfl

/-- **What a datagram can do to a transaction.** It leaves the transaction as it is, or the
transaction is pending and receives it as a message that answers to it. -/
theorem get?_layerAfter (node : Node σ χ κ ω) (observer : Observer ω) (datagram : Datagram)
    {k : MessageId} {t : Transaction} (ht : node.layer.transactions.get? k = some t) :
    (node.layerAfter observer datagram).transactions.get? k = some t
      ∨ ∃ msg now t', Message.parse datagram.bytes = .ok msg ∧ msg.isCredited = true
        ∧ t.awaits msg = true ∧ (Clock.now node.layer.clock).1 = .ok now
        ∧ (t.receive msg node.layer.config.con now).value = .ok t'
        ∧ (node.layerAfter observer datagram).transactions.get? k = some t' := by
  rw [layerAfter_eq]
  by_cases hcredited : ∃ msg, Message.parse datagram.bytes = .ok msg ∧ msg.isCredited = true
  · obtain ⟨msg, hparse, hmsg⟩ := hcredited
    rw [MessageLayer.layer_handle_of_isCredited hparse hmsg]
    rcases node.layer.credit_cases msg with hsame | ⟨now, answer, hnow, hanswer⟩
    · rw [hsame]
      exact .inl ht
    · rcases TransactionTable.get?_onResponse hanswer k with
        hsame | ⟨u, t', hu, -, hawaits, ht', hget⟩
      · exact .inl (hsame.trans ht)
      · obtain rfl : u = t := Option.some.inj (hu.symm.trans ht)
        exact .inr ⟨msg, now, t', hparse, hmsg, hawaits, hnow, ht', hget⟩
  · refine .inl ((MessageLayer.get?_handle_of_not_isCredited ?_ ..).trans ht)
    intro msg hparse
    exact Bool.eq_false_iff.2 fun hmsg => hcredited ⟨msg, hparse, hmsg⟩

/-! ## Main result -/

/-- **Who can answer a request.** A datagram makes the same of the message layer of a node from
whatever endpoint it comes. It leaves a transaction as it is, unless it is a message, neither a
request nor a ping, that answers to the transaction while that is pending: an acknowledgement or a
reset with its message id, or a message with the token, not empty, that the request was sent with.
Then the transaction receives the message, and it surely does if no other transaction awaits the
message as well, the clock can be read and a timer can be started. -/
theorem unchanged_or_answered (node : Node σ χ κ ω) (observer : Observer ω) (datagram : Datagram)
    {k : MessageId} {t : Transaction} (ht : node.layer.transactions.get? k = some t) :
    (∀ peer, node.layerAfter observer { datagram with peer := peer }
        = node.layerAfter observer datagram)
      ∧ ((node.layerAfter observer datagram).transactions.get? k = some t
        ∨ ∃ msg now t', Message.parse datagram.bytes = .ok msg ∧ msg.isCredited = true
          ∧ t.isPending = true
          ∧ ((msg.kind = .ack ∨ msg.kind = .reset) ∧ msg.id = k
            ∨ msg.token.isEmpty = false ∧ t.token? = some msg.token)
          ∧ (Clock.now node.layer.clock).1 = .ok now
          ∧ (t.receive msg node.layer.config.con now).value = .ok t'
          ∧ (node.layerAfter observer datagram).transactions.get? k = some t')
      ∧ ∀ msg now, Message.parse datagram.bytes = .ok msg → msg.isCredited = true →
          t.awaits msg = true →
          (∀ u ∈ node.layer.transactions.live, u.awaits msg = true → u = t) →
          (Clock.now node.layer.clock).1 = .ok now → node.layer.config.con.acked.Valid →
          ∃ t', (t.receive msg node.layer.config.con now).value = .ok t'
            ∧ (node.layerAfter observer datagram).transactions.get? k = some t' := by
  refine ⟨fun peer => ?_, ?_, fun msg now hparse hcredited hawaits honly hnow hcon => ?_⟩
  · rw [layerAfter_eq, layerAfter_eq, node.layer.value_handle_congr observer _ peer datagram.peer]
  · rcases node.get?_layerAfter observer datagram ht with
      hsame | ⟨msg, now, t', hparse, hcredited, hawaits, hnow, ht', hget⟩
    · exact .inl hsame
    · have hanswers := Transaction.answeredBy_iff.1 (Transaction.answeredBy_of_awaits hawaits)
      rw [(TransactionTable.mem_live_of_get? ht).2] at hanswers
      exact .inr ⟨msg, now, t', hparse, hcredited, Transaction.isPending_of_awaits hawaits,
        hanswers, hnow, ht', hget⟩
  · obtain ⟨t', table', hanswer, ht', hget⟩ :=
      TransactionTable.onResponse_of_awaits_only ht hawaits honly hcon now
    refine ⟨t', ht', ?_⟩
    rw [layerAfter_eq, MessageLayer.layer_handle_of_isCredited hparse hcredited,
      MessageLayer.transactions_credit hnow hanswer]
    exact hget

/-! ## A stranger's answer -/

open Simulation TransactionTable

/-- A peer that is reached securely. -/
def sampleSecurePeer : Endpoint :=
  ⟨⟨0xFE80, 0, 0, 0, 0, 0, 0, 1⟩, Endpoint.defaultSecurePort, true⟩

/-- Another host, in plaintext. -/
def sampleStranger : Endpoint :=
  ⟨⟨0xFE80, 0, 0, 0, 0, 0, 0, 0x66⟩, Endpoint.defaultPort, false⟩

/-- A response in an acknowledgement, for which it takes no more than a message id. -/
def sampleForgery : Message := { Message.blank .ack 1 with code := .content }

/-- A node that has sent a request to the secure peer. -/
def sampleNode : Except LayerError MemoryNode :=
  let transport := MemoryTransport.ofChannel {} (some ⟨.greeting, false, [sampleSecurePeer]⟩) 1152
  (boot { con := sampleCon } {} transport (.empty 4) {} 2).map fun node =>
    (Exchange.send (Exchange.allocate node 1 sampleSecurePeer).value.2 1 ⟨sampleRequest 7⟩).value.2

/-- The request while its answer is awaited. -/
def sampleAwaiting : Transaction :=
  (Transaction.new 1 sampleSecurePeer).sent (sampleRequest 7).token
    { sampleRequest 7 with id := 1 }.encode ⟨0, 100, .constant, 1, 3⟩

theorem parse_sampleForgery : Message.parse sampleForgery.encode = .ok sampleForgery := by
  have hencode : sampleForgery.encode = [0x60, 0x45, 0, 1] := rfl
  have hoptions : Options.ofList [] = .empty := by simp [Options.ofList, Options.empty]
  rw [hencode]
  simp [Message.parse, afterOptions, Options.decode, readFields, readField?, numberFields, hoptions]
  rfl

/-- A plaintext host completes a request that another peer was asked securely. -/
theorem answered_by_stranger : sampleStranger ≠ sampleSecurePeer
    ∧ ∃ node, sampleNode = .ok node ∧ node.layer.transactions.get? 1 = some sampleAwaiting
      ∧ sampleAwaiting.isPending = true ∧ sampleAwaiting.peer = sampleSecurePeer
      ∧ (node.layerAfter .idle ⟨sampleStranger, sampleForgery.encode⟩).transactions.get? 1
        = some (sampleAwaiting.complete (some ⟨sampleForgery⟩)) := by
  refine ⟨by decide, _, rfl, rfl, rfl, rfl, ?_⟩
  rw [layerAfter_eq, MessageLayer.value_handle, parse_sampleForgery]
  rfl

theorem unchanged_or_answered_sampleNode :
    ∃ node, sampleNode = .ok node ∧ node.layer.transactions.get? 1 = some sampleAwaiting
      ∧ (∀ peer, node.layerAfter .idle ⟨peer, sampleForgery.encode⟩
          = node.layerAfter .idle ⟨sampleStranger, sampleForgery.encode⟩)
      ∧ ∃ t', (sampleAwaiting.receive sampleForgery sampleCon 0).value = .ok t'
        ∧ (node.layerAfter .idle ⟨sampleStranger, sampleForgery.encode⟩).transactions.get? 1
          = some t' := by
  have hsample : ∃ node, sampleNode = .ok node
      ∧ node.layer.transactions.get? 1 = some sampleAwaiting
      ∧ node.layer.transactions.live = [sampleAwaiting]
      ∧ (Clock.now node.layer.clock).1 = .ok 0 ∧ node.layer.config.con = sampleCon :=
    ⟨_, rfl, rfl, rfl, rfl, rfl⟩
  obtain ⟨node, hnode, hget, hlive, hnow, hcon⟩ := hsample
  obtain ⟨hpeer, -, hreceive⟩ :=
    unchanged_or_answered node .idle ⟨sampleStranger, sampleForgery.encode⟩ hget
  rw [hlive, hcon] at hreceive
  refine ⟨node, hnode, hget, hpeer, hreceive sampleForgery 0 parse_sampleForgery rfl rfl ?_ hnow ?_⟩
  · intro u hu _
    exact List.mem_singleton.1 hu
  · decide

end Node

end CoapNode
