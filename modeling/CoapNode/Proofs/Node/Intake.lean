import CoapNode.Proofs.Network.Origin
import CoapNode.Proofs.Node.Reaction

set_option autoImplicit false

/-! # What a node takes in

A node takes one datagram after the other from its transport and handles each at once, until there
is none left or something fails (`Node.Drains`). So what it delivers meanwhile are the answers to
these datagrams, in the order in which they were taken (`Node.drains_drain`), and what handling a
datagram keeps of the message layer holds whenever a datagram is taken (`Node.Drains.layer`).
-/

namespace CoapNode

/-- A datagram that a node takes in, and the node as it is when it has the datagram. -/
structure Visit (σ χ κ ω : Type) where
  node : Node σ χ κ ω
  datagram : Datagram

section

variable {σ χ κ ω ε δ : Type} [Socket σ ε] [SecureChannel χ δ] [Clock κ]

/-- What the node delivers while it handles the datagram. -/
def Visit.replies (visit : Visit σ χ κ ω) (observer : Observer ω) : List Delivery :=
  delivered (visit.node.receive observer visit.datagram).trace

/-- **Whatever a datagram is answered with** is for its sender. -/
theorem Visit.to_sender (visit : Visit σ χ κ ω) (observer : Observer ω) :
    ∀ delivery ∈ visit.replies observer, delivery.1 = visit.datagram.peer := by
  rw [Visit.replies, Node.delivered_receive]
  intro delivery hdelivery
  split at hdelivery
  · cases hdelivery
  · obtain ⟨reply, -, rfl⟩ := by simpa using hdelivery
    rfl

/-- **The datagram came from the endpoint that it says**: it was yielded by a transport that became
the one of the node, and its sender counts as secure if it came in through the secure channel. -/
def Visit.Genuine (visit : Visit σ χ κ ω) : Prop :=
  ∃ (before : Transport σ χ) (secure : Bool),
    before.Yields secure visit.datagram visit.node.transport
      ∧ visit.datagram.peer.secure = secure

namespace Node

variable {observer : Observer ω} {node next : Node σ χ κ ω} {visits : List (Visit σ χ κ ω)}
  {result : Except (NodeError ε δ) Unit × Node σ χ κ ω}

/-- The node with another transport. -/
def withTransport (node : Node σ χ κ ω) (transport : Transport σ χ) : Node σ χ κ ω :=
  { node with transport := transport }

/-- **A node takes in datagrams** one after the other, with the given result. -/
inductive Drains (observer : Observer ω) : Node σ χ κ ω → List (Visit σ χ κ ω) →
    Except (NodeError ε δ) Unit × Node σ χ κ ω → Prop where
  /-- There is none left. -/
  | empty {node : Node σ χ κ ω} {transport : Transport σ χ}
      (hpoll : node.transport.poll.value = (.error .wouldBlock, transport)) :
      Drains observer node [] (.ok (), node.withTransport transport)
  /-- The transport fails. -/
  | broken {node : Node σ χ κ ω} {transport : Transport σ χ} {e : TransportError ε δ}
      (hpoll : node.transport.poll.value = (.error (.failed e), transport)) :
      Drains observer node [] (.error (.transport e), node.withTransport transport)
  /-- A datagram is taken, but handling it fails. -/
  | failed {node next : Node σ χ κ ω} {transport : Transport σ χ} {datagram : Datagram}
      {e : LayerError} (hpoll : node.transport.poll.value = (.ok datagram, transport))
      (hreceive : ((node.withTransport transport).receive observer datagram).value
        = (.error e, next)) :
      Drains observer node [⟨node.withTransport transport, datagram⟩] (.error (.layer e), next)
  /-- A datagram is taken and handled. -/
  | took {node next : Node σ χ κ ω} {transport : Transport σ χ} {datagram : Datagram}
      {visits : List (Visit σ χ κ ω)} {result : Except (NodeError ε δ) Unit × Node σ χ κ ω}
      (hpoll : node.transport.poll.value = (.ok datagram, transport))
      (hreceive : ((node.withTransport transport).receive observer datagram).value = (.ok (), next))
      (hrest : Drains observer next visits result) :
      Drains observer node (⟨node.withTransport transport, datagram⟩ :: visits) result

/-- **Draining takes in datagrams and delivers the answers to them**, in the same order. -/
theorem drains_drain (node : Node σ χ κ ω) (observer : Observer ω) :
    ∃ visits, node.Drains observer visits (node.drain observer).value
      ∧ delivered (node.drain observer).trace
        = visits.flatMap fun visit => visit.replies observer := by
  fun_induction drain node observer with
  | case1 node polled told transport hpoll => exact ⟨[], .empty hpoll, by simp [told]⟩
  | case2 node polled told e transport hpoll => exact ⟨[], .broken hpoll, by simp [told]⟩
  | case3 node polled told datagram transport hpoll handled e next hhandled =>
      exact ⟨_, .failed hpoll hhandled, by simp [told, Visit.replies]; rfl⟩
  | case4 node polled told datagram transport hpoll handled next hhandled rest ih =>
      obtain ⟨visits, hdrains, hreplies⟩ := ih
      have hnext : handled.value = (.ok (), handled.value.2) := by rw [hhandled]
      have hrest : delivered rest.trace = visits.flatMap fun visit => visit.replies observer :=
        hreplies
      refine ⟨_, .took hpoll hnext hdrains, ?_⟩
      rw [delivered_append, delivered_append, delivered_map_log, List.nil_append, hrest,
        List.flatMap_cons]
      rfl

namespace Drains

/-- **What handling any datagram keeps of the message layer** holds whenever a datagram is taken,
and in the end. -/
theorem layer {P : MessageLayer κ ω → Prop}
    (hhandle : ∀ layer peer bytes, P layer → P (layer.handle observer peer bytes).value.2)
    (h : node.Drains observer visits result) (hnode : P node.layer) :
    (∀ visit ∈ visits, P visit.node.layer) ∧ P result.2.layer := by
  induction h with
  | empty hpoll | broken hpoll => exact ⟨List.forall_mem_nil _, hnode⟩
  | @failed node next transport datagram e hpoll hreceive =>
      have hnext : next.layer = (node.layer.handle observer datagram.peer datagram.bytes).value.2 :=
        (congrArg (fun received => received.2.layer) hreceive).symm
      refine ⟨fun visit hvisit => ?_, hnext ▸ hhandle _ _ _ hnode⟩
      obtain rfl := List.mem_singleton.1 hvisit
      exact hnode
  | @took node next transport datagram visits result hpoll hreceive hrest ih =>
      have hnext : next.layer = (node.layer.handle observer datagram.peer datagram.bytes).value.2 :=
        (congrArg (fun received => received.2.layer) hreceive).symm
      obtain ⟨hvisits, hresult⟩ := ih (hnext ▸ hhandle _ _ _ hnode)
      exact ⟨List.forall_mem_cons.2 ⟨hnode, hvisits⟩, hresult⟩

/-- Every datagram that is taken is genuine. -/
theorem genuine (h : node.Drains observer visits result) : ∀ visit ∈ visits, visit.Genuine := by
  have htaken {node : Node σ χ κ ω} {transport : Transport σ χ} {datagram : Datagram}
      (hpoll : node.transport.poll.value = (.ok datagram, transport)) :
      (⟨node.withTransport transport, datagram⟩ : Visit σ χ κ ω).Genuine := by
    obtain ⟨secure, hyields⟩ := Transport.exists_yields hpoll
    exact ⟨node.transport, secure, hyields, hyields.secure_eq⟩
  induction h with
  | empty hpoll | broken hpoll => exact List.forall_mem_nil _
  | failed hpoll hreceive => exact List.forall_mem_singleton.2 (htaken hpoll)
  | took hpoll hreceive hrest ih => exact List.forall_mem_cons.2 ⟨htaken hpoll, ih⟩

end Drains

end Node

end

end CoapNode
