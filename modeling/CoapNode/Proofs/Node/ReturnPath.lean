import CoapNode.Proofs.Network.Address
import CoapNode.Proofs.Node.Separation

set_option autoImplicit false

/-! # The way back to a sender

The answer to a request that came in on the plaintext socket is handed to that socket again, for the
canonical form of the address that the request came from (`Node.answers_return`). So a peer at an
IPv4 address, or at an IPv6 address without flow and scope, is answered exactly where it spoke from;
the flow of a peer and the scope of a link-local one are lost, and a mapped address is answered as
the IPv4 address that it maps.
-/

namespace CoapNode

section

variable {σ χ κ ω ε δ : Type} [Socket σ ε] [SecureChannel χ δ]

/-- **A transport takes a datagram from its plaintext socket**, which says from which address the
datagram came. -/
def Transport.TakesPlain (t : Transport σ χ) (address : SocketAddress) (bytes : Bytes)
    (t' : Transport σ χ) : Prop :=
  Socket.receive t.plain t.bufferSize = (.ok (bytes, address), t'.plain)
    ∧ t' = { t with plain := t'.plain }

/-- What is taken from the plaintext socket is yielded. -/
theorem Transport.TakesPlain.value_poll {t t' : Transport σ χ} {address : SocketAddress}
    {bytes : Bytes} (h : t.TakesPlain address bytes t') :
    t.poll.value = (.ok ⟨.ofAddress address false, bytes⟩, t') := by
  obtain ⟨hreceive, hrest⟩ := h
  rw [hrest]
  exact value_poll_of_receive hreceive

/-- What is yielded without the secure channel was taken from the plaintext socket. -/
theorem Transport.Yields.takesPlain {t t' : Transport σ χ} {secure : Bool} {datagram : Datagram}
    (h : t.Yields secure datagram t') (hsecure : secure = false) :
    ∃ (before : Transport σ χ) (address : SocketAddress),
      before.TakesPlain address datagram.bytes t' ∧ datagram.peer = .ofAddress address false := by
  induction h with
  | @plain t plain address bytes hreceive => exact ⟨t, address, ⟨hreceive, rfl⟩, rfl⟩
  | secure => cases hsecure
  | later _ _ ih => exact ih hsecure

/-- **The datagram came in on the plaintext socket** from an address. -/
def Visit.CameFrom (visit : Visit σ χ κ ω) (address : SocketAddress) : Prop :=
  ∃ before : Transport σ χ, before.TakesPlain address visit.datagram.bytes visit.node.transport
    ∧ visit.datagram.peer = .ofAddress address false

/-- A datagram from a plaintext endpoint came in on the plaintext socket. -/
theorem Visit.Genuine.exists_cameFrom {visit : Visit σ χ κ ω} (h : visit.Genuine)
    (hpeer : visit.datagram.peer.secure = false) : ∃ address, visit.CameFrom address := by
  obtain ⟨t, secure, hyields, hsecure⟩ := h
  obtain ⟨before, address, htakes, haddress⟩ := hyields.takesPlain (hsecure.symm.trans hpeer)
  exact ⟨address, before, htakes, haddress⟩

end

namespace Node

variable {σ χ κ ω ε δ : Type} [Socket σ ε] [SecureChannel χ δ] [Clock κ]

/-- **The answer to a plaintext request** is the one message that handling the request hands to the
plaintext socket, for the canonical form of the address that the request came from. -/
theorem sent_receive_request {visit : Visit (Recorded σ) (RecordedChannel χ) κ ω}
    {address : SocketAddress} {msg : Message} (hfrom : visit.CameFrom address)
    (hparse : Message.parse visit.datagram.bytes = .ok msg) (hrequest : msg.isRequest = true)
    (observer : Observer ω) :
    (visit.node.receive observer visit.datagram).value.2.transport.plain.sent
      = visit.node.transport.plain.sent
        ++ [(address.canonical, (visit.node.layer.answer observer ⟨msg⟩).encode)] := by
  obtain ⟨before, -, hpeer⟩ := hfrom
  have hreply : delivered (visit.node.receive observer visit.datagram).trace
      = [(visit.datagram.peer, (visit.node.layer.answer observer ⟨msg⟩).encode)] := by
    rw [delivered_receive, hparse]
    dsimp only
    rw [MessageLayer.reaction, if_pos hrequest]
    rfl
  have hplain : visit.datagram.peer.secure = false := by rw [hpeer]; rfl
  have hhanded := (handed_act visit.node.transport
    (visit.node.layer.handle observer visit.datagram.peer visit.datagram.bytes)).plain
  refine hhanded.trans ?_
  rw [← receive, hreply, ← SocketAddress.socketAddress_ofAddress address false, ← hpeer]
  simp [hplain]

/-! ## Main result -/

/-- **Answers go back to where their requests came from**, as far as endpoints can tell. If a turn
succeeds, the node has handed over the answers to what it has taken in, and then what has become
due, and nothing else. Whatever a transport takes from its plaintext socket is yielded to the node,
and every datagram from a plaintext endpoint came in on the plaintext socket from some address. If
it is a request, there is one answer to it, and handling the request hands this answer, and nothing
else, to the plaintext socket, for the canonical form of the address. That is the address itself,
unless it has a flow or a scope or is the mapped form of an IPv4 address. -/
theorem answers_return (node : WatchedNode σ χ κ ω) (observer : Observer ω)
    (hok : (node.pollWith observer).value.1 = .ok ()) :
    ∃ visits last, node.Drains observer visits (.ok (), last)
      ∧ node.transport.Handed (node.pollWith observer).value.2.transport
        ((visits.flatMap fun visit => visit.replies observer) ++ delivered last.layer.tend.trace)
      ∧ (∀ (t t' : Transport (Recorded σ) (RecordedChannel χ)) address bytes,
          t.TakesPlain address bytes t' →
          t.poll.value = (.ok ⟨.ofAddress address false, bytes⟩, t'))
      ∧ (∀ visit ∈ visits, visit.datagram.peer.secure = false →
          ∃ address, visit.CameFrom address)
      ∧ ∀ visit ∈ visits, ∀ address msg, visit.CameFrom address →
          Message.parse visit.datagram.bytes = .ok msg → msg.isRequest = true →
          (visit.node.receive observer visit.datagram).value.2.transport.plain.sent
            = visit.node.transport.plain.sent
              ++ [(address.canonical, (visit.node.layer.answer observer ⟨msg⟩).encode)]
          ∧ (address.canonical = address
            ↔ ∀ ip port flow scope, address = .v6 ip port flow scope →
                ip.isMapped = false ∧ flow = 0 ∧ scope = 0) := by
  obtain ⟨visits, hdrains, hreplies⟩ := node.drains_drain observer
  obtain ⟨last, hdrain⟩ := drain_of_pollWith hok
  rw [hdrain] at hdrains
  refine ⟨visits, last, hdrains, ?_, fun t t' address bytes h => h.value_poll,
    fun visit hvisit hpeer => ?_, fun visit _ address msg hfrom hparse hrequest => ⟨?_, ?_⟩⟩
  · rw [← hreplies, ← delivered_pollWith hdrain]
    exact node.handed_pollWith observer
  · exact (hdrains.genuine visit hvisit).exists_cameFrom hpeer
  · exact sent_receive_request hfrom hparse hrequest observer
  · exact SocketAddress.canonical_eq_self_iff

/-! ## Senders that are not answered where they spoke from -/

open Simulation

/-- A link-local address with a scope, which says on which interface its host is to be found. -/
def sampleScoped : SocketAddress := .v6 ⟨0xFE80, 0, 0, 0, 0, 0, 0, 2⟩ Endpoint.defaultPort 0 7

/-- The same address with a flow in place of the scope. -/
def sampleFlowing : SocketAddress := .v6 ⟨0xFE80, 0, 0, 0, 0, 0, 0, 2⟩ Endpoint.defaultPort 9 0

/-- An IPv4 address in mapped form. -/
def sampleMapped : SocketAddress := .v6 (IPv4.mapped ⟨1, 2, 3, 4⟩) Endpoint.defaultPort 0 0

/-- The node that greets, with a request from each address waiting for it. -/
def sampleCalled : MemoryNode :=
  let transport : MemoryTransport := sampleGreeter.transport
  sampleGreeter.withTransport (transport.onSocket false fun socket =>
    [sampleScoped, sampleFlowing, sampleMapped].foldl
      (fun socket sender => socket.enqueue (.datagram sampleAsk sender)) socket)

/-- All requests are answered, the first one without the scope, the second one without the flow, and
the third one elsewhere. -/
theorem answers_miss_sampleScoped :
    (Message.parse sampleAsk).toOption.map (·.isRequest) = some true
      ∧ sampleCalled.transport.plain.inbox = [.datagram sampleAsk sampleScoped,
          .datagram sampleAsk sampleFlowing, .datagram sampleAsk sampleMapped]
      ∧ (sampleCalled.pollWith .idle).value.1 = .ok ()
      ∧ (sampleCalled.pollWith .idle).value.2.transport.plain.sent.map Prod.fst
        = [.v6 ⟨0xFE80, 0, 0, 0, 0, 0, 0, 2⟩ Endpoint.defaultPort 0 0,
          .v6 ⟨0xFE80, 0, 0, 0, 0, 0, 0, 2⟩ Endpoint.defaultPort 0 0,
          .v4 ⟨1, 2, 3, 4⟩ Endpoint.defaultPort]
      ∧ sampleScoped ∉ (sampleCalled.pollWith .idle).value.2.transport.plain.sent.map Prod.fst
      ∧ sampleFlowing ∉ (sampleCalled.pollWith .idle).value.2.transport.plain.sent.map Prod.fst
      ∧ sampleMapped ∉ (sampleCalled.pollWith .idle).value.2.transport.plain.sent.map Prod.fst := by
  decide +kernel

theorem answers_return_sampleCalled :
    (sampleCalled.watched.pollWith .idle).value.1 = .ok ()
      ∧ ∃ visits last, sampleCalled.watched.Drains .idle visits (.ok (), last)
        ∧ sampleCalled.watched.transport.Handed
          (sampleCalled.watched.pollWith .idle).value.2.transport
          ((visits.flatMap fun visit => visit.replies .idle) ++ delivered last.layer.tend.trace)
        ∧ ∀ visit ∈ visits, ∀ address msg, visit.CameFrom address →
            Message.parse visit.datagram.bytes = .ok msg → msg.isRequest = true →
            (visit.node.receive .idle visit.datagram).value.2.transport.plain.sent
              = visit.node.transport.plain.sent
                ++ [(address.canonical, (visit.node.layer.answer .idle ⟨msg⟩).encode)] := by
  have hok : (sampleCalled.watched.pollWith .idle).value.1 = .ok () := by decide +kernel
  obtain ⟨visits, last, hdrains, hhanded, -, -, hanswers⟩ :=
    answers_return sampleCalled.watched .idle hok
  refine ⟨hok, visits, last, hdrains, hhanded, ?_⟩
  intro visit hvisit address msg hfrom hparse hrequest
  exact (hanswers visit hvisit address msg hfrom hparse hrequest).1

end Node

end CoapNode
