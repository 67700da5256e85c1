import CoapNode.Proofs.Network.Queued
import CoapNode.Proofs.Node.Service
import CoapNode.Proofs.Resource.Recorded

set_option autoImplicit false

/-! # Strays

Among the datagrams that wait for a node there may be strays: datagrams on the plaintext socket that
are no messages, and records that the channel rejects. Each is dropped when it is taken, and does
nothing to the node but to be logged. So a turn of a node comes to the same with and without them
(`Node.strays_invisible`).
-/

namespace CoapNode

/-! ## What is done for a datagram -/

/-- What is done, without what is logged about it. -/
def withoutLog (trace : List Activity) : List Activity :=
  trace.filter fun activity => activity.line?.isNone

@[simp] theorem withoutLog_nil : withoutLog [] = [] := rfl

@[simp] theorem withoutLog_append (before after : List Activity) :
    withoutLog (before ++ after) = withoutLog before ++ withoutLog after :=
  List.filter_append ..

@[simp] theorem withoutLog_map_log (lines : List LogLine) : withoutLog (lines.map .log) = [] := by
  induction lines with
  | nil => rfl
  | cons line lines ih => exact ih

theorem delivered_withoutLog (trace : List Activity) :
    delivered (withoutLog trace) = delivered trace := by
  induction trace with
  | nil => rfl
  | cons activity rest ih =>
      rw [delivered_cons activity, ← ih]
      cases activity <;> rfl

/-- Is the datagram a message? -/
def Visit.isMessage {σ χ κ ω : Type} (visit : Visit σ χ κ ω) : Bool :=
  (Message.parse visit.datagram.bytes).isOk

/-- **The calls into the resources** that the datagram leads to. -/
def Visit.calls {σ χ κ ω : Type} (visit : Visit σ χ κ ω) (observer : Observer ω) : List (Call ω) :=
  match Message.parse visit.datagram.bytes with
  | .error _ => []
  | .ok msg =>
    if msg.isRequest then
      visit.node.layer.registry.calls observer ⟨msg⟩
        (.new ⟨msg⟩ (visit.node.layer.draft ⟨msg⟩).1 visit.node.layer.config.block.chunkSize)
        visit.node.layer.world
    else []

theorem Visit.calls_of_not_isMessage {σ χ κ ω : Type} {visit : Visit σ χ κ ω}
    (h : visit.isMessage = false) (observer : Observer ω) : visit.calls observer = [] := by
  rw [isMessage] at h
  rw [calls]
  cases hparse : Message.parse visit.datagram.bytes with
  | error e => rfl
  | ok msg =>
      rw [hparse] at h
      cases h

section

variable {σ χ κ ω ε δ : Type} [Socket σ ε] [SecureChannel χ δ] [Clock κ]

/-- **What is no message** is dropped: nothing is done but to log it. -/
theorem Node.receive_of_error {datagram : Datagram} {e : WireError}
    (hparse : Message.parse datagram.bytes = .error e) (node : Node σ χ κ ω)
    (observer : Observer ω) :
    (node.receive observer datagram).value = (.ok (), node)
      ∧ withoutLog (node.receive observer datagram).trace = [] := by
  have hnone :
      delivered (node.layer.handle observer datagram.peer datagram.bytes).trace = [] := by
    rw [MessageLayer.delivered_handle, hparse]
  rw [receive, act, Transport.perform_of_delivered_eq_nil _ hnone, MessageLayer.handle, hparse]
  exact ⟨rfl, rfl⟩

/-- What the node does for the datagram. -/
def Visit.effects (visit : Visit σ χ κ ω) (observer : Observer ω) : List Activity :=
  withoutLog (visit.node.receive observer visit.datagram).trace

theorem Visit.effects_of_not_isMessage {visit : Visit σ χ κ ω} (h : visit.isMessage = false)
    (observer : Observer ω) : visit.effects observer = [] := by
  rw [isMessage] at h
  cases hparse : Message.parse visit.datagram.bytes with
  | error e => exact (Node.receive_of_error hparse visit.node observer).2
  | ok msg =>
      rw [hparse] at h
      cases h

/-- Draining, one datagram at a time. -/
theorem Node.drain_eq (node : Node σ χ κ ω) (observer : Observer ω) :
    node.drain observer =
      (let told := node.transport.poll.trace.map Activity.log
      match node.transport.poll.value with
      | (.error .wouldBlock, transport) => ⟨(.ok (), node.withTransport transport), told⟩
      | (.error (.failed e), transport) =>
        ⟨(.error (.transport e), node.withTransport transport), told⟩
      | (.ok datagram, transport) =>
        let received := (node.withTransport transport).receive observer datagram
        match received.value with
        | (.error e, next) => ⟨(.error (.layer e), next), told ++ received.trace⟩
        | (.ok (), next) =>
          let rest := next.drain observer
          ⟨rest.value, told ++ received.trace ++ rest.trace⟩) := by
  rw [drain]
  dsimp only
  split
  · next hpoll => rw [hpoll]; rfl
  · next hpoll => rw [hpoll]; rfl
  · next datagram transport hpoll =>
      rw [hpoll]
      dsimp only
      split
      · next e next hhandled =>
          have hreceived : ((node.withTransport transport).receive observer datagram).value
              = (.error e, next) := hhandled
          rw [hreceived]
          rfl
      · next next hhandled =>
          have hreceived : ((node.withTransport transport).receive observer datagram).value
              = (.ok (), next) := hhandled
          rw [hreceived, hhandled]
          rfl

/-- **Draining is determined**: what a node takes in says what draining comes to, and what is done
meanwhile. -/
theorem Node.Drains.drain_eq {node : Node σ χ κ ω} {observer : Observer ω}
    {visits : List (Visit σ χ κ ω)} {result : Except (NodeError ε δ) Unit × Node σ χ κ ω}
    (h : node.Drains observer visits result) :
    (node.drain observer).value = result
      ∧ withoutLog (node.drain observer).trace
        = visits.flatMap fun visit => visit.effects observer := by
  induction h with
  | empty hpoll | broken hpoll =>
      rw [Node.drain_eq, hpoll]
      exact ⟨rfl, withoutLog_map_log _⟩
  | failed hpoll hreceive =>
      rw [Node.drain_eq, hpoll]
      dsimp only
      rw [hreceive]
      refine ⟨rfl, ?_⟩
      rw [withoutLog_append, withoutLog_map_log, List.flatMap_singleton]
      rfl
  | took hpoll hreceive hrest ih =>
      rw [Node.drain_eq, hpoll]
      dsimp only
      rw [hreceive]
      refine ⟨ih.1, ?_⟩
      dsimp only
      rw [withoutLog_append, withoutLog_append, withoutLog_map_log, ih.2, List.flatMap_cons]
      rfl

end

/-! ## Nodes behind queues -/

section

variable {σ χ κ ω ε δ : Type}

/-- The node without the strays in its queues. -/
def Node.purged (node : Node (Queued σ ε) χ κ ω) : Node (Queued σ ε) χ κ ω :=
  node.withTransport node.transport.purged

/-- The datagram, as it is taken by the node without strays. -/
def Visit.purged (visit : Visit (Queued σ ε) χ κ ω) : Visit (Queued σ ε) χ κ ω :=
  ⟨visit.node.purged, visit.datagram⟩

theorem Visit.filter_map_purged (visits : List (Visit (Queued σ ε) χ κ ω)) :
    (visits.map purged).filter isMessage = (visits.filter isMessage).map purged :=
  List.filter_map

/-- **What vanishes for all that is no message** is the same for visits with the same messages. -/
theorem Visit.flatMap_eq_of_messages {α : Type} {F : Visit (Queued σ ε) χ κ ω → List α}
    {visits visits' : List (Visit (Queued σ ε) χ κ ω)}
    (hother : ∀ visit, visit.isMessage = false → F visit = [])
    (hpurged : ∀ visit, F visit.purged = F visit)
    (h : visits'.filter Visit.isMessage = (visits.filter Visit.isMessage).map Visit.purged) :
    visits'.flatMap F = visits.flatMap F := by
  have hfilter (visits : List (Visit (Queued σ ε) χ κ ω)) :
      (visits.filter Visit.isMessage).flatMap F = visits.flatMap F := by
    induction visits with
    | nil => rfl
    | cons visit rest ih =>
        rw [List.filter_cons, List.flatMap_cons, ← ih]
        split
        · rw [List.flatMap_cons]
        · next hvisit => rw [hother visit (Bool.eq_false_iff.2 hvisit), List.nil_append]
  rw [← hfilter, h, List.flatMap_map, ← hfilter]
  simp only [hpurged]

/-- **The strays on the plaintext socket** are no messages, as far as they fit into the buffer. -/
def Transport.StraysUnreadable (t : Transport (Queued σ ε) χ) : Prop :=
  ∀ bytes address, .datagram true bytes address ∈ t.plain.inbox →
    ∃ e, Message.parse (bytes.take t.bufferSize) = .error e

theorem Transport.RestOf.straysUnreadable {t t' : Transport (Queued σ ε) χ} (h : t'.RestOf t)
    (ht : t.StraysUnreadable) : t'.StraysUnreadable := by
  intro bytes address hmem
  rw [h.bufferSize]
  exact ht bytes address (h.plain hmem)

variable [Socket σ ε] [SecureChannel χ δ]

namespace Node

/-- **What the message layer wants done** is done in the same way without strays. -/
theorem act_purged {α : Type} (transport : Transport (Queued σ ε) χ)
    (step : Traced Activity (α × MessageLayer κ ω)) :
    act transport.purged step = Prod.map id purged <$> act transport step := by
  rw [act, act, Transport.perform_purged, map_bind, bind_map_left]
  rfl

variable [Clock κ] {node : Node (Queued σ ε) χ κ ω} {observer : Observer ω}

theorem receive_purged (node : Node (Queued σ ε) χ κ ω) (observer : Observer ω)
    (datagram : Datagram) :
    node.purged.receive observer datagram
      = Prod.map id purged <$> node.receive observer datagram :=
  act_purged node.transport (node.layer.handle observer datagram.peer datagram.bytes)

/-- **A node looks at its sockets** with the given transport while it takes in datagrams. -/
inductive Looks (observer : Observer ω) :
    Node (Queued σ ε) χ κ ω → Transport (Queued σ ε) χ → Prop where
  /-- It does before it takes the next datagram. -/
  | now {node : Node (Queued σ ε) χ κ ω} {t : Transport (Queued σ ε) χ}
      (h : node.transport.Looks t) : Looks observer node t
  /-- It does after it has taken a datagram and handled it. -/
  | later {node next : Node (Queued σ ε) χ κ ω} {transport t : Transport (Queued σ ε) χ}
      {datagram : Datagram} (hpoll : node.transport.poll.value = (.ok datagram, transport))
      (hreceive : ((node.withTransport transport).receive observer datagram).value = (.ok (), next))
      (h : Looks observer next t) : Looks observer node t

/-- Nothing is put into the queues while a datagram is taken and handled. -/
theorem restOf_receive {transport : Transport (Queued σ ε) χ} {datagram : Datagram}
    {next : Node (Queued σ ε) χ κ ω} {answer : Except LayerError Unit}
    (hpoll : node.transport.poll.value = (.ok datagram, transport))
    (hreceive : ((node.withTransport transport).receive observer datagram).value
      = (answer, next)) :
    next.transport.RestOf node.transport := by
  have hpolled := node.transport.restOf_poll
  rw [hpoll] at hpolled
  have hnext : next.transport = (transport.perform
      (node.layer.handle observer datagram.peer datagram.bytes).trace).value :=
    (congrArg (fun received => received.2.transport) hreceive).symm
  rw [hnext]
  exact (transport.restOf_perform _).trans hpolled

theorem Looks.restOf {t : Transport (Queued σ ε) χ} (h : node.Looks observer t) :
    t.RestOf node.transport := by
  induction h with
  | now h => exact h.restOf
  | later hpoll hreceive h ih => exact ih.trans (restOf_receive hpoll hreceive)

/-- **Records that the channel rejects in every state** are rejected when their turn comes. -/
theorem rejectsStray_of_always
    (h : ∀ link bytes address, node.transport.secure = some link →
      .datagram true bytes address ∈ link.socket.inbox → ∀ channel : χ, ∃ e,
        SecureChannel.handleInbound channel (.ofAddress address true)
          (bytes.take node.transport.bufferSize) = .done (.error e, channel)) :
    ∀ t, node.Looks observer t → t.RejectsStray := by
  intro t ht link bytes address rest _ hlink hinbox
  have hrest := ht.restOf
  obtain ⟨link', hlink', hsub⟩ := hrest.secure link hlink
  obtain ⟨e, hreject⟩ :=
    h link' bytes address hlink' (hsub (hinbox ▸ List.mem_cons_self ..)) link.channel
  refine ⟨e, ?_⟩
  rw [hrest.bufferSize, hreject]
  rfl

/-- Where a node comes upon no datagram, it comes upon none without strays. -/
theorem poll_purged_of_error {stall : Stall (TransportError ε δ)}
    {transport : Transport (Queued σ ε) χ}
    (hpoll : node.transport.poll.value = (.error stall, transport))
    (hsecure : ∀ t, node.Looks observer t → t.RejectsStray) :
    node.purged.transport.poll.value = (.error stall, transport.purged) := by
  rcases Transport.poll_cases fun t h => hsecure t (.now h) with
    ⟨bytes, address, next, -, hstray, -⟩ | hsame
  · rw [hpoll] at hstray
    cases hstray
  · rw [hpoll] at hsame
    exact hsame

/-- **What a node makes of a datagram that it takes**: nothing if that is a stray, and the same as
without strays if it is not. -/
theorem took_cases {transport : Transport (Queued σ ε) χ} {datagram : Datagram}
    {answer : Except LayerError Unit} {next : Node (Queued σ ε) χ κ ω}
    (hpoll : node.transport.poll.value = (.ok datagram, transport))
    (hreceive : ((node.withTransport transport).receive observer datagram).value = (answer, next))
    (hplain : node.transport.StraysUnreadable)
    (hsecure : ∀ t, node.Looks observer t → t.RejectsStray) :
    (answer = .ok () ∧ (Message.parse datagram.bytes).isOk = false ∧ next.purged = node.purged)
      ∨ node.purged.transport.poll.value = (.ok datagram, transport.purged)
        ∧ ((node.purged.withTransport transport.purged).receive observer datagram).value
          = (answer, next.purged) := by
  rcases Transport.poll_cases fun t h => hsecure t (.now h) with
    ⟨bytes, address, stray, hmem, hstray, hpurged⟩ | hsame
  · obtain ⟨e, hparse⟩ := hplain bytes address hmem
    rw [hpoll] at hstray
    cases hstray
    rw [(receive_of_error hparse (node.withTransport transport) observer).1] at hreceive
    cases hreceive
    exact .inl ⟨rfl, by rw [hparse]; rfl, congrArg node.withTransport hpurged⟩
  · rw [hpoll] at hsame
    have hpurged := congrArg Traced.value
      ((node.withTransport transport).receive_purged observer datagram)
    rw [Traced.value_map, hreceive] at hpurged
    exact .inr ⟨hsame, hpurged⟩

/-- **Draining takes in the same messages** without strays, in the same order and in the same
states of the node, and comes to the same. -/
theorem Drains.purged {visits : List (Visit (Queued σ ε) χ κ ω)}
    {result : Except (NodeError ε δ) Unit × Node (Queued σ ε) χ κ ω}
    (h : node.Drains observer visits result) (hplain : node.transport.StraysUnreadable)
    (hsecure : ∀ t, node.Looks observer t → t.RejectsStray) :
    ∃ visits', node.purged.Drains observer visits' (Prod.map id Node.purged result)
      ∧ visits'.filter Visit.isMessage = (visits.filter Visit.isMessage).map Visit.purged := by
  induction h with
  | empty hpoll => exact ⟨[], .empty (poll_purged_of_error hpoll hsecure), rfl⟩
  | broken hpoll => exact ⟨[], .broken (poll_purged_of_error hpoll hsecure), rfl⟩
  | @failed node next transport datagram e hpoll hreceive =>
      rcases took_cases hpoll hreceive hplain hsecure with ⟨hfails, -⟩ | ⟨hpoll', hreceive'⟩
      · cases hfails
      · exact ⟨_, .failed hpoll' hreceive',
          Visit.filter_map_purged [⟨node.withTransport transport, datagram⟩]⟩
  | @took node next transport datagram visits result hpoll hreceive hrest ih =>
      obtain ⟨visits', hdrains, hvisits⟩ :=
        ih ((restOf_receive hpoll hreceive).straysUnreadable hplain)
          fun t h => hsecure t (.later hpoll hreceive h)
      rcases took_cases hpoll hreceive hplain hsecure with
        ⟨-, hstray, hpurged⟩ | ⟨hpoll', hreceive'⟩
      · -- the stray leaves the node without strays where it is
        rw [hpurged] at hdrains
        refine ⟨visits', hdrains, hvisits.trans ?_⟩
        rw [List.filter_cons_of_neg]
        exact Bool.eq_false_iff.1 hstray
      · refine ⟨_, .took hpoll' hreceive' hdrains, ?_⟩
        have hsame : (Visit.mk (node.purged.withTransport transport.purged) datagram).isMessage
            = (Visit.mk (node.withTransport transport) datagram).isMessage := rfl
        rw [List.filter_cons, List.filter_cons, hvisits, hsame]
        split <;> rfl

end Node

variable [Clock κ]

theorem Visit.effects_purged (visit : Visit (Queued σ ε) χ κ ω) (observer : Observer ω) :
    visit.purged.effects observer = visit.effects observer := by
  have htrace := congrArg Traced.trace (visit.node.receive_purged observer visit.datagram)
  rw [Traced.trace_map] at htrace
  exact congrArg withoutLog htrace

namespace Node

/-- The rest of a turn once the node has drained what can be received: unless that has failed, the
node does what is due. -/
def finish : Except (NodeError ε δ) Unit × Node σ χ κ ω →
    Traced Activity (Except (NodeError ε δ) Unit × Node σ χ κ ω)
  | (.error e, node) => pure (.error e, node)
  | (.ok (), node) => do
    let (result, node) ← act node.transport node.layer.tend
    pure (result.mapError .layer, node)

theorem pollWith_eq (node : Node σ χ κ ω) (observer : Observer ω) :
    node.pollWith observer = node.drain observer >>= finish :=
  rfl

theorem finish_purged (drained : Except (NodeError ε δ) Unit × Node (Queued σ ε) χ κ ω) :
    finish (Prod.map id purged drained) = Prod.map id purged <$> finish drained := by
  rcases drained with ⟨e | ⟨⟩, node⟩
  · rfl
  · calc finish (.ok (), node.purged)
        = act node.transport.purged node.layer.tend >>= fun answer =>
            pure (answer.1.mapError .layer, answer.2) := rfl
      _ = Prod.map id purged <$> act node.transport node.layer.tend >>= fun answer =>
            pure (answer.1.mapError .layer, answer.2) := by rw [act_purged]
      _ = Prod.map id purged <$> finish (.ok (), node) := by
            rw [bind_map_left, finish, map_bind]
            rfl

/-! ## Main result -/

/-- **Strays are invisible.** Let some of the datagrams that wait for a node be strays: those on the
plaintext socket are no messages, and the channel rejects those among its records when their turn
comes, and leaves itself and its socket as they are. Then a turn of the node comes to the same as if
they were not there, whether or not it succeeds, up to strays that are still waiting. The message
layer is the same in the end, with the resources, the transactions and the choices of ids and
tokens; the same is delivered and handed over to sockets and channel, in the same order. The same
messages are taken in, each with the message layer in the same state, so they lead to the same calls
to handlers and observer; and what is due at the end is done from the same state. -/
theorem strays_invisible (node : Node (Queued σ ε) χ κ ω) (observer : Observer ω)
    (hplain : node.transport.StraysUnreadable)
    (hsecure : ∀ t, node.Looks observer t → t.RejectsStray) :
    (node.purged.pollWith observer).value = Prod.map id purged (node.pollWith observer).value
      ∧ (node.purged.pollWith observer).value.2.layer = (node.pollWith observer).value.2.layer
      ∧ withoutLog (node.purged.pollWith observer).trace
        = withoutLog (node.pollWith observer).trace
      ∧ delivered (node.purged.pollWith observer).trace = delivered (node.pollWith observer).trace
      ∧ ∃ visits visits', node.Drains observer visits (node.drain observer).value
        ∧ node.purged.Drains observer visits' (node.purged.drain observer).value
        ∧ visits'.filter Visit.isMessage = (visits.filter Visit.isMessage).map Visit.purged
        ∧ (visits'.flatMap fun visit => visit.calls observer)
          = (visits.flatMap fun visit => visit.calls observer)
        ∧ (node.purged.drain observer).value.2.layer = (node.drain observer).value.2.layer := by
  obtain ⟨visits, hdrains, -⟩ := node.drains_drain observer
  obtain ⟨visits', hdrains', hvisits⟩ := hdrains.purged hplain hsecure
  obtain ⟨-, heffects⟩ := hdrains.drain_eq
  obtain ⟨hvalue', heffects'⟩ := hdrains'.drain_eq
  have hcalls : (visits'.flatMap fun visit => visit.calls observer)
      = visits.flatMap fun visit => visit.calls observer :=
    Visit.flatMap_eq_of_messages (fun _ h => Visit.calls_of_not_isMessage h observer)
      (fun _ => rfl) hvisits
  have hdone : withoutLog (node.purged.drain observer).trace
      = withoutLog (node.drain observer).trace := by
    rw [heffects, heffects']
    exact Visit.flatMap_eq_of_messages (fun _ h => Visit.effects_of_not_isMessage h observer)
      (fun visit => visit.effects_purged observer) hvisits
  have hlayer : (node.purged.drain observer).value.2.layer
      = (node.drain observer).value.2.layer := by
    rw [hvalue']
    rfl
  rw [← hvalue'] at hdrains'
  have hfinish := finish_purged (node.drain observer).value
  have hpoll : (node.purged.pollWith observer).value
      = Prod.map id purged (node.pollWith observer).value := by
    rw [pollWith_eq, pollWith_eq, Traced.value_bind, Traced.value_bind, hvalue', hfinish,
      Traced.value_map]
  have htrace : withoutLog (node.purged.pollWith observer).trace
      = withoutLog (node.pollWith observer).trace := by
    rw [pollWith_eq, pollWith_eq, Traced.trace_bind, Traced.trace_bind, withoutLog_append,
      withoutLog_append, hdone, hvalue', hfinish, Traced.trace_map]
  refine ⟨hpoll, by rw [hpoll]; rfl, htrace, ?_, visits, visits', hdrains, hdrains', hvisits,
    hcalls, hlayer⟩
  rw [← delivered_withoutLog, htrace, delivered_withoutLog]

/-! ## A node with strays in its queues -/

open Simulation

/-- A record that no channel in memory can make sense of. -/
def sampleNoise : Bytes := Utf8.ofString "noise"

theorem handleInbound_sampleNoise (channel : OpenChannel) (peer : Endpoint) :
    ∃ e, SecureChannel.handleInbound channel peer sampleNoise = .done (.error e, channel) := by
  have hgreeting : sampleNoise ≠ OpenChannel.greeting := by decide +kernel
  have hid : OpenChannel.untagged? "id:" sampleNoise = none := by decide +kernel
  have henc : OpenChannel.untagged? "enc:" sampleNoise = none := by decide +kernel
  by_cases hnone : channel.handshake = .none
  · refine ⟨.disabled, ?_⟩
    show OpenChannel.handleInbound channel peer sampleNoise = _
    rw [OpenChannel.handleInbound, if_pos hnone]
    rfl
  · refine ⟨.badRecord, ?_⟩
    show OpenChannel.handleInbound channel peer sampleNoise = _
    rw [OpenChannel.handleInbound, if_neg hnone, if_neg hgreeting, hid, henc]
    rfl

/-- The node that greets, with a request on each of its sockets and strays around them. -/
def sampleHaunted : Node (Queued MemorySocket SocketFault) OpenChannel ManualClock World where
  transport :=
    let arrival (stray : Bool) (bytes : Bytes) : Arrival SocketFault :=
      .datagram stray bytes sampleClient.socketAddress
    { plain := ⟨MemoryTransport.hostSocket Endpoint.defaultPort,
        [arrival true [0xFF], arrival false [0x41, 0x01, 0, 7, 0xAA, 0xB1, 0x61], arrival true []]⟩
      secure := some ⟨⟨MemoryTransport.hostSocket Endpoint.defaultSecurePort,
        [arrival true sampleNoise,
          arrival false (OpenChannel.tagged "enc:" [0x51, 0x01, 0, 8, 0xBB, 0xB1, 0x61]),
          arrival true sampleNoise]⟩, ⟨.greeting, false, []⟩⟩
      keystore := {}
      routeAvailable := true
      bufferSize := 1152 }
  layer := sampleGreeter.layer

theorem strays_invisible_sampleHaunted :
    sampleHaunted.transport.StraysUnreadable
      ∧ (∀ t, sampleHaunted.Looks .idle t → t.RejectsStray)
      ∧ (sampleHaunted.purged.pollWith .idle).value.2.layer
        = (sampleHaunted.pollWith .idle).value.2.layer
      ∧ withoutLog (sampleHaunted.purged.pollWith .idle).trace
        = withoutLog (sampleHaunted.pollWith .idle).trace
      ∧ (delivered (sampleHaunted.pollWith .idle).trace).map Prod.fst
        = [sampleClient, sampleClient.withSecure true] := by
  have hplain : sampleHaunted.transport.StraysUnreadable := by
    intro bytes address hmem
    obtain ⟨rfl, -⟩ | ⟨rfl, -⟩ : bytes = [0xFF] ∧ address = sampleClient.socketAddress
        ∨ bytes = [] ∧ address = sampleClient.socketAddress := by
      simpa [sampleHaunted] using hmem
    · exact ⟨_, rfl⟩
    · exact ⟨_, rfl⟩
  have hsecure : ∀ t, sampleHaunted.Looks .idle t → t.RejectsStray := by
    refine rejectsStray_of_always fun link bytes address hlink hmem channel => ?_
    obtain rfl := Option.some.inj hlink
    obtain ⟨rfl, -⟩ : bytes = sampleNoise ∧ address = sampleClient.socketAddress := by
      simpa using hmem
    exact handleInbound_sampleNoise channel _
  obtain ⟨-, hlayer, hdone, -⟩ := strays_invisible sampleHaunted .idle hplain hsecure
  exact ⟨hplain, hsecure, hlayer, hdone, by decide +kernel⟩

end Node

end

end CoapNode
