import CoapNode.Proofs.Network.Recorded
import CoapNode.Proofs.Node.Service
import CoapNode.Proofs.Transaction.Addressee

set_option autoImplicit false

/-! # Secure traffic stays secure

A node may be watched at its sockets and its channel while it is used in any way: it is polled,
requests are made through it, sessions begin and end, and everything around it changes
(`Node.Operation`). Whatever happens, what is for a secure endpoint is handed to the channel and
never to the plaintext socket, and what a datagram from the channel is answered with is for a secure
endpoint again (`Node.secure_stays_secure`).
-/

namespace CoapNode

/-! ## What a turn wants delivered -/

namespace MessageLayer

variable {κ ω : Type} [Clock κ]

/-- A request without a token gets one before it is sent, which leaves the transactions alone. -/
theorem live_tokened (table : TransactionTable) (token : Token) :
    (if token.isEmpty then table.nextToken else (token, table)).2.live = table.live := by
  split <;> rfl

/-- **What sending a request wants delivered** is a packet of a transaction. -/
theorem sends_send (layer : MessageLayer κ ω) (id : MessageId) (req : Request) :
    ∀ delivery ∈ delivered (layer.send id req).trace,
      ∃ t ∈ layer.transactions.live, t.Sends delivery := by
  have hlive := live_tokened layer.transactions req.message.token
  rw [send]
  rcases Clock.now layer.clock with ⟨_ | now, clock⟩
  · simp
  · dsimp only
    rw [Traced.trace_bind, delivered_append, ← hlive]
    intro delivery hdelivery
    rcases List.mem_append.1 hdelivery with hsend | hrest
    · exact TransactionTable.sends_send _ id _ _ now delivery hsend
    · split at hrest <;> simp at hrest

/-- Sending a request enters no transaction. -/
theorem descends_send (layer : MessageLayer κ ω) (id : MessageId) (req : Request) :
    (layer.send id req).value.2.transactions.Descends layer.transactions := by
  have hlive := live_tokened layer.transactions req.message.token
  rw [send]
  rcases Clock.now layer.clock with ⟨_ | now, clock⟩
  · exact .refl _
  · dsimp only
    rw [Traced.value_bind, TransactionTable.Descends, ← hlive]
    exact TransactionTable.comesOf_send _ id _ _ now

/-- **What has become due** are packets of transactions. -/
theorem sends_tend (layer : MessageLayer κ ω) :
    ∀ delivery ∈ delivered layer.tend.trace,
      ∃ t ∈ layer.transactions.live, t.Sends delivery := by
  rw [tend]
  rcases Clock.now layer.clock with ⟨_ | now, clock⟩
  · simp
  · dsimp only
    rw [Traced.trace_bind, delivered_append]
    intro delivery hdelivery
    rcases List.mem_append.1 hdelivery with hpoll | hrest
    · exact layer.transactions.sends_pollRetransmit now delivery hpoll
    · -- the timers of the registry only log
      rw [Traced.trace_bind, delivered_append, Traced.trace_liftM, delivered_map_log] at hrest
      simp at hrest

end MessageLayer

namespace Node

variable {σ χ κ ω ε δ : Type} [Socket σ ε] [SecureChannel χ δ] [Clock κ]
  {node : Node σ χ κ ω} {observer : Observer ω}

/-- **What comes of a turn**: the node drains what can be received and, unless it fails, does what
is due. -/
theorem pollWith_cases (node : Node σ χ κ ω) (observer : Observer ω) :
    (∃ e last, (node.drain observer).value = (.error e, last)
        ∧ (node.pollWith observer).value.2 = last
        ∧ delivered (node.pollWith observer).trace = delivered (node.drain observer).trace)
      ∨ ∃ last, (node.drain observer).value = (.ok (), last)
        ∧ (node.pollWith observer).value.2 = (act last.transport last.layer.tend).value.2
        ∧ delivered (node.pollWith observer).trace
          = delivered (node.drain observer).trace ++ delivered last.layer.tend.trace := by
  rcases hdrain : (node.drain observer).value with ⟨e | ⟨⟩, last⟩
  · refine .inl ⟨e, last, rfl, ?_, ?_⟩
    · rw [pollWith, Traced.value_bind, hdrain]
      rfl
    · rw [pollWith, Traced.trace_bind, hdrain, Traced.trace_pure, List.append_nil]
  · refine .inr ⟨last, rfl, ?_, delivered_pollWith hdrain⟩
    rw [pollWith, Traced.value_bind, hdrain]
    rfl

/-- Draining enters no transaction. -/
theorem descends_drain (node : Node σ χ κ ω) (observer : Observer ω) :
    (node.drain observer).value.2.layer.transactions.Descends node.layer.transactions :=
  layer_drain (P := fun layer => layer.transactions.Descends node.layer.transactions)
    (fun layer peer bytes hlayer => (layer.passes_handle observer peer bytes).descends.trans hlayer)
    node (.refl _)

/-- What a turn wants delivered are answers to what is taken in, or packets of transactions. -/
theorem mem_delivered_pollWith {delivery : Delivery}
    (h : delivery ∈ delivered (node.pollWith observer).trace) :
    (∃ visits, node.Drains observer visits (node.drain observer).value
        ∧ ∃ visit ∈ visits, delivery ∈ visit.replies observer)
      ∨ ∃ t ∈ node.layer.transactions.live, t.Sends delivery := by
  have hdrained : delivery ∈ delivered (node.drain observer).trace →
      ∃ visits, node.Drains observer visits (node.drain observer).value
        ∧ ∃ visit ∈ visits, delivery ∈ visit.replies observer := by
    obtain ⟨visits, hdrains, hreplies⟩ := drains_drain node observer
    rw [hreplies, List.mem_flatMap]
    exact fun hvisit => ⟨visits, hdrains, hvisit⟩
  rcases node.pollWith_cases observer with
    ⟨e, last, hdrain, -, hdelivered⟩ | ⟨last, hdrain, -, hdelivered⟩
  · rw [hdelivered] at h
    exact .inl (hdrained h)
  · rw [hdelivered] at h
    rcases List.mem_append.1 h with hmem | hmem
    · exact .inl (hdrained hmem)
    · obtain ⟨t', ht', hsends⟩ := last.layer.sends_tend delivery hmem
      have hdescends := node.descends_drain observer
      rw [hdrain] at hdescends
      obtain ⟨t, ht, hof⟩ := hdescends t' ht'
      exact .inr ⟨t, ht, hsends.of_comesOf hof⟩

end Node

/-! ## Nodes that are watched -/

/-- A node with recorders at its sockets and at its channel. -/
abbrev WatchedNode (σ χ κ ω : Type) := Node (Recorded σ) (RecordedChannel χ) κ ω

/-- The node with recorders that have nothing on record. -/
def Node.watched {σ χ κ ω : Type} (node : Node σ χ κ ω) : WatchedNode σ χ κ ω where
  transport :=
    { plain := ⟨node.transport.plain, []⟩
      secure := node.transport.secure.map fun link => ⟨⟨link.socket, []⟩, { channel := link.channel }⟩
      keystore := node.transport.keystore
      routeAvailable := node.transport.routeAvailable
      bufferSize := node.transport.bufferSize }
  layer := node.layer

/-- What changes around a node between two operations: sockets and channel receive something, or
fail from then on, time passes, and credentials and resources are replaced. -/
structure Surroundings (σ χ κ ω : Type) where
  plain : σ → σ
  secure : σ → σ
  channel : χ → χ
  keystore : Keystore
  routeAvailable : Bool
  registry : Registry ω
  clock : κ
  world : ω

/-- One use of a node, with its arguments. -/
inductive Node.Operation (σ χ κ ω : Type) where
  | poll (observer : Observer ω)
  | nextId
  | allocate (id : MessageId) (peer : Endpoint)
  | send (id : MessageId) (req : Request)
  | await (id : MessageId)
  | cancel (id : MessageId)
  | connect (peer : Endpoint)
  | disconnect (peer : Endpoint)
  | surround (surroundings : Surroundings σ χ κ ω)

namespace Node

variable {σ χ κ ω ε δ : Type}

/-- The observer of the requests that are served meanwhile, if datagrams are taken in. -/
def Operation.observer? : Operation σ χ κ ω → Option (Observer ω)
  | .poll observer => some observer
  | .await _ => some .idle
  | _ => none

/-- The transaction that an operation enters if there is room. -/
def Operation.entered : Operation σ χ κ ω → List Transaction
  | .allocate id peer => [.new id peer]
  | _ => []

/-- The node with its surroundings changed. -/
def surround (node : WatchedNode σ χ κ ω) (around : Surroundings σ χ κ ω) :
    WatchedNode σ χ κ ω where
  transport :=
    { plain := { node.transport.plain with socket := around.plain node.transport.plain.socket }
      secure := node.transport.secure.map fun link =>
        ⟨{ link.socket with socket := around.secure link.socket.socket },
          { link.channel with channel := around.channel link.channel.channel }⟩
      keystore := around.keystore
      routeAvailable := around.routeAvailable
      bufferSize := node.transport.bufferSize }
  layer :=
    { node.layer with
      registry := around.registry
      clock := around.clock
      world := around.world }

variable [Socket σ ε] [SecureChannel χ δ] [Clock κ]

/-- The node after one operation, whether or not the operation succeeds. -/
def step (node : WatchedNode σ χ κ ω) :
    Operation σ χ κ ω → Traced Activity (WatchedNode σ χ κ ω)
  | .poll observer => Prod.snd <$> node.pollWith observer
  | .nextId => pure (Exchange.nextId node).2
  | .allocate id peer => Prod.snd <$> Exchange.allocate node id peer
  | .send id req => Prod.snd <$> Exchange.send node id req
  | .await id => Prod.snd <$> Exchange.poll node id
  | .cancel id => pure (Exchange.cancel node id)
  | .connect peer => do
    let (_, transport) ← node.transport.connect peer
    pure (node.withTransport transport)
  | .disconnect peer => do
    let transport ← node.transport.disconnect peer
    pure (node.withTransport transport)
  | .surround around => pure (node.surround around)

/-- The node after a list of operations, first operation first. -/
def run (node : WatchedNode σ χ κ ω) (ops : List (Operation σ χ κ ω)) :
    Traced Activity (WatchedNode σ χ κ ω) :=
  ops.foldlM step node

/-- A datagram is taken in during an operation, while requests are served with an observer. -/
def TakesDuring (node : WatchedNode σ χ κ ω) (op : Operation σ χ κ ω) (observer : Observer ω)
    (visit : Visit (Recorded σ) (RecordedChannel χ) κ ω) : Prop :=
  op.observer? = some observer
    ∧ ∃ visits, node.Drains observer visits (node.drain observer).value ∧ visit ∈ visits

/-- A datagram is taken in during a list of operations. -/
inductive Takes : WatchedNode σ χ κ ω → List (Operation σ χ κ ω) → Observer ω →
    Visit (Recorded σ) (RecordedChannel χ) κ ω → Prop where
  | now {node : WatchedNode σ χ κ ω} {op : Operation σ χ κ ω} {ops : List (Operation σ χ κ ω)}
      {observer : Observer ω} {visit : Visit (Recorded σ) (RecordedChannel χ) κ ω}
      (hnow : node.TakesDuring op observer visit) : Takes node (op :: ops) observer visit
  | later {node : WatchedNode σ χ κ ω} {op : Operation σ χ κ ω} {ops : List (Operation σ χ κ ω)}
      {observer : Observer ω} {visit : Visit (Recorded σ) (RecordedChannel χ) κ ω}
      (hrest : Takes (node.step op).value ops observer visit) :
      Takes node (op :: ops) observer visit

/-! ## One turn -/

variable {node : WatchedNode σ χ κ ω} {observer : Observer ω}
  {visits : List (Visit (Recorded σ) (RecordedChannel χ) κ ω)}

omit [Clock κ] in
theorem handed_act {α : Type} (transport : Transport (Recorded σ) (RecordedChannel χ))
    (step : Traced Activity (α × MessageLayer κ ω)) :
    transport.Handed (act transport step).value.2.transport
      (delivered (act transport step).trace) := by
  rw [delivered_act]
  exact transport.handed_perform step.trace

/-- Taking a datagram hands over what it is answered with. -/
theorem handed_visit {transport : Transport (Recorded σ) (RecordedChannel χ)} {datagram : Datagram}
    {answer : Except LayerError Unit} {next : WatchedNode σ χ κ ω}
    (hpoll : node.transport.poll.value = (.ok datagram, transport))
    (hreceive : ((node.withTransport transport).receive observer datagram).value = (answer, next)) :
    node.transport.Handed next.transport
      (Visit.replies ⟨node.withTransport transport, datagram⟩ observer) := by
  have htaken := node.transport.handed_poll
  rw [hpoll] at htaken
  have hreceived := handed_act transport (node.layer.handle observer datagram.peer datagram.bytes)
  have hnext : ((node.withTransport transport).receive observer datagram).value.2 = next := by
    rw [hreceive]
  rw [← hnext]
  exact htaken.trans hreceived

/-- **Draining** hands over the answers to what is taken in. -/
theorem Drains.handed {result : Except (NodeError ε δ) Unit × WatchedNode σ χ κ ω}
    (h : node.Drains observer visits result) :
    node.transport.Handed result.2.transport
      (visits.flatMap fun visit => visit.replies observer) := by
  induction h with
  | @empty node transport hpoll | @broken node transport e hpoll =>
      have hpolled := node.transport.handed_poll
      rwa [hpoll] at hpolled
  | failed hpoll hreceive =>
      rw [List.flatMap_singleton]
      exact handed_visit hpoll hreceive
  | took hpoll hreceive hrest ih => exact (handed_visit hpoll hreceive).trans ih

theorem handed_drain (node : WatchedNode σ χ κ ω) (observer : Observer ω) :
    node.transport.Handed (node.drain observer).value.2.transport
      (delivered (node.drain observer).trace) := by
  obtain ⟨visits, hdrains, hreplies⟩ := drains_drain node observer
  rw [hreplies]
  exact hdrains.handed

theorem handed_pollWith (node : WatchedNode σ χ κ ω) (observer : Observer ω) :
    node.transport.Handed (node.pollWith observer).value.2.transport
      (delivered (node.pollWith observer).trace) := by
  have hdrained := node.handed_drain observer
  rcases node.pollWith_cases observer with
    ⟨e, last, hdrain, hnode, hdelivered⟩ | ⟨last, hdrain, hnode, hdelivered⟩
  · rw [hnode, hdelivered]
    rwa [hdrain] at hdrained
  · rw [hdrain] at hdrained
    rw [hnode, hdelivered, ← delivered_act last.transport]
    exact hdrained.trans (handed_act ..)

/-! ## One operation -/

/-- Awaiting a request is one turn, after which its outcome is looked up if the turn succeeds. -/
theorem await_cases (node : WatchedNode σ χ κ ω) (id : MessageId) :
    (Exchange.poll node id).trace = (node.pollWith .idle).trace
      ∧ (Exchange.poll node id).value.2.transport = (node.pollWith .idle).value.2.transport
      ∧ (Exchange.poll node id).value.2.layer.transactions.Descends
          (node.pollWith .idle).value.2.layer.transactions := by
  simp only [Exchange.poll, Node.poll, Traced.trace_bind, Traced.value_bind]
  rcases (node.pollWith .idle).value with ⟨e | ⟨⟩, last⟩
  · exact ⟨List.append_nil _, rfl, .refl _⟩
  · exact ⟨List.append_nil _, rfl, .of_step (.take id) nofun rfl⟩

/-- **An operation** hands over what it wants delivered. -/
theorem handed_step (node : WatchedNode σ χ κ ω) (op : Operation σ χ κ ω) :
    node.transport.Handed (node.step op).value.transport (delivered (node.step op).trace) := by
  cases op with
  | poll observer =>
      rw [step, Traced.value_map, Traced.trace_map]
      exact node.handed_pollWith observer
  | nextId | cancel id => exact .of_eq rfl rfl
  | allocate id peer =>
      rw [step, Traced.value_map, Traced.trace_map]
      simp only [Exchange.allocate, Traced.value_bind, Traced.trace_bind, delivered_append,
        Traced.trace_liftM, delivered_map_log]
      exact .of_eq rfl rfl
  | send id req =>
      rw [step, Traced.value_map, Traced.trace_map]
      exact handed_act ..
  | await id =>
      obtain ⟨htrace, htransport, -⟩ := node.await_cases id
      rw [step, Traced.value_map, Traced.trace_map, htrace, htransport]
      exact node.handed_pollWith .idle
  | connect peer =>
      simp only [step, Traced.value_bind, Traced.trace_bind, delivered_append, Traced.trace_liftM,
        delivered_map_log]
      exact node.transport.handed_connect peer
  | disconnect peer =>
      simp only [step, Traced.value_bind, Traced.trace_bind, delivered_append, Traced.trace_liftM,
        delivered_map_log]
      exact node.transport.handed_disconnect peer
  | surround around =>
      refine .of_eq rfl ?_
      show Option.map _ (Option.map _ node.transport.secure) = _
      rw [Option.map_map]
      rfl

/-- **What an operation wants delivered** are answers to what it takes in, or packets of
transactions. -/
theorem mem_delivered_step {op : Operation σ χ κ ω} {delivery : Delivery}
    (h : delivery ∈ delivered (node.step op).trace) :
    (∃ observer visit, node.TakesDuring op observer visit ∧ delivery ∈ visit.replies observer)
      ∨ ∃ t ∈ node.layer.transactions.live, t.Sends delivery := by
  have hturn {observer : Observer ω} (hop : op.observer? = some observer)
      (hmem : delivery ∈ delivered (node.pollWith observer).trace) :
      (∃ observer visit, node.TakesDuring op observer visit ∧ delivery ∈ visit.replies observer)
        ∨ ∃ t ∈ node.layer.transactions.live, t.Sends delivery := by
    rcases mem_delivered_pollWith hmem with ⟨visits, hdrains, visit, hvisit, hreply⟩ | hsends
    · exact .inl ⟨observer, visit, ⟨hop, visits, hdrains, hvisit⟩, hreply⟩
    · exact .inr hsends
  -- datagrams are taken in by two of the operations, and both of them are turns
  cases op with
  | poll observer =>
      rw [step, Traced.trace_map] at h
      exact hturn rfl h
  | nextId | cancel id | surround around => cases h
  | allocate id peer =>
      rw [step, Traced.trace_map] at h
      simp only [Exchange.allocate, Traced.trace_bind, delivered_append, Traced.trace_liftM,
        delivered_map_log] at h
      cases h
  | send id req =>
      rw [step, Traced.trace_map] at h
      simp only [Exchange.send, delivered_act] at h
      exact .inr (node.layer.sends_send id req delivery h)
  | await id =>
      rw [step, Traced.trace_map, (node.await_cases id).1] at h
      exact hturn rfl h
  | connect peer | disconnect peer =>
      simp only [step, Traced.trace_bind, delivered_append, Traced.trace_liftM,
        delivered_map_log] at h
      cases h

/-- **The transactions after an operation** have become of those before, or it has entered them. -/
theorem live_step (node : WatchedNode σ χ κ ω) (op : Operation σ χ κ ω) :
    ∀ t' ∈ (node.step op).value.layer.transactions.live,
      ∃ t ∈ node.layer.transactions.live ++ op.entered, t'.ComesOf t := by
  have hkept (hdescends : (node.step op).value.layer.transactions.Descends
      node.layer.transactions) :
      ∀ t' ∈ (node.step op).value.layer.transactions.live,
        ∃ t ∈ node.layer.transactions.live ++ op.entered, t'.ComesOf t := by
    intro t' ht'
    obtain ⟨t, ht, hof⟩ := hdescends t' ht'
    exact ⟨t, List.mem_append_left _ ht, hof⟩
  cases op with
  | poll observer => exact hkept (node.passes_pollWith observer).descends
  | nextId => exact hkept (.of_step .nextId nofun rfl)
  | allocate id peer =>
      intro t' ht'
      rw [step, Traced.value_map] at ht'
      refine ⟨t', List.mem_append.2 ?_, .refl t'⟩
      rcases TransactionTable.mem_live_allocate ht' with hmem | rfl
      · exact .inl hmem
      · exact .inr (List.mem_singleton_self _)
  | send id req => exact hkept (node.layer.descends_send id req)
  | await id =>
      exact hkept ((node.await_cases id).2.2.trans (node.passes_pollWith .idle).descends)
  | cancel id => exact hkept (.of_step (.cancel id) nofun rfl)
  | connect peer | disconnect peer | surround around => exact hkept (.refl _)

/-! ## Runs -/

/-- **A run** hands over what its operations want delivered. -/
theorem handed_run (node : WatchedNode σ χ κ ω) (ops : List (Operation σ χ κ ω)) :
    node.transport.Handed (node.run ops).value.transport (delivered (node.run ops).trace) := by
  rw [run]
  induction ops generalizing node with
  | nil => exact .of_eq rfl rfl
  | cons op ops ih =>
      rw [List.foldlM_cons, Traced.value_bind, Traced.trace_bind, delivered_append]
      exact (node.handed_step op).trans (ih _)

theorem Takes.genuine {ops : List (Operation σ χ κ ω)}
    {visit : Visit (Recorded σ) (RecordedChannel χ) κ ω} (h : node.Takes ops observer visit) :
    visit.Genuine := by
  induction h with
  | now hnow =>
      obtain ⟨-, visits, hdrains, hvisit⟩ := hnow
      exact hdrains.genuine _ hvisit
  | later hrest ih => exact ih

/-- **What a run wants delivered** are answers to what it takes in, or packets of transactions that
were in the table or have been entered. -/
theorem mem_delivered_run {ops : List (Operation σ χ κ ω)} {delivery : Delivery}
    (h : delivery ∈ delivered (node.run ops).trace) :
    (∃ observer visit, node.Takes ops observer visit ∧ delivery ∈ visit.replies observer)
      ∨ ∃ t ∈ node.layer.transactions.live ++ ops.flatMap Operation.entered, t.Sends delivery := by
  rw [run] at h
  induction ops generalizing node with
  | nil => cases h
  | cons op ops ih =>
      rw [List.foldlM_cons, Traced.trace_bind, delivered_append] at h
      rcases List.mem_append.1 h with hnow | hlater
      · rcases mem_delivered_step hnow with ⟨observer, visit, htakes, hreply⟩ | ⟨t, ht, hsends⟩
        · exact .inl ⟨observer, visit, .now htakes, hreply⟩
        · exact .inr ⟨t, List.mem_append_left _ ht, hsends⟩
      · rcases ih hlater with ⟨observer, visit, htakes, hreply⟩ | ⟨t', ht', hsends⟩
        · exact .inl ⟨observer, visit, .later htakes, hreply⟩
        · -- what is in the table by now has become of what is to be found
          rw [List.flatMap_cons, ← List.append_assoc]
          rcases List.mem_append.1 ht' with hlive | hentered
          · obtain ⟨t, ht, hof⟩ := node.live_step op t' hlive
            exact .inr ⟨t, List.mem_append_left _ ht, hsends.of_comesOf hof⟩
          · exact .inr ⟨t', List.mem_append_right _ hentered, hsends⟩

/-! ## Main result -/

/-- **Secure traffic stays secure**, whatever a node is used for and whatever happens around it.
Of the messages that it wants delivered, those for plaintext endpoints have been handed to the
plaintext socket, with the addresses of these endpoints, and those for secure endpoints to the
channel, if there is one; nothing else has been handed to either of them. Every datagram that has
been taken in comes from an endpoint that is secure exactly if the datagram came in on the socket of
the channel, and all that it is answered with is for that endpoint. Every other message is the
packet of a transaction that was in the table or has been entered, and is for the peer of this
transaction. -/
theorem secure_stays_secure (node : WatchedNode σ χ κ ω) (ops : List (Operation σ χ κ ω)) :
    node.transport.Handed (node.run ops).value.transport (delivered (node.run ops).trace)
      ∧ (∀ observer visit, node.Takes ops observer visit →
          visit.Genuine ∧ ∀ delivery ∈ visit.replies observer,
            delivery.1 = visit.datagram.peer)
      ∧ ∀ delivery ∈ delivered (node.run ops).trace,
          (∃ observer visit, node.Takes ops observer visit ∧ delivery ∈ visit.replies observer)
            ∨ ∃ t ∈ node.layer.transactions.live ++ ops.flatMap Operation.entered,
                t.Sends delivery :=
  ⟨node.handed_run ops,
    fun observer visit htakes => ⟨htakes.genuine, visit.to_sender observer⟩,
    fun _ hdelivery => mem_delivered_run hdelivery⟩

/-! ## A run on both sides -/

open Simulation

/-- A request that is made securely, while others wait to be answered on both sockets. -/
def sampleUse : List (Operation MemorySocket OpenChannel ManualClock World) :=
  let peer := sampleClient.withSecure true
  [.allocate 1 peer, .send 1 ⟨TransactionTable.sampleRequest 7⟩, .poll .idle]

theorem secure_stays_secure_sampleAsked :
    sampleAsked.watched.transport.Handed (sampleAsked.watched.run sampleUse).value.transport
        (delivered (sampleAsked.watched.run sampleUse).trace)
      ∧ (sampleAsked.watched.run sampleUse).value.transport.plain.sent.map Prod.fst
        = [sampleClient.socketAddress]
      ∧ (sampleAsked.watched.run sampleUse).value.transport.written.map (·.map Prod.fst)
        = some [sampleClient.withSecure true, sampleClient.withSecure true] := by
  obtain ⟨hhanded, -⟩ := secure_stays_secure sampleAsked.watched sampleUse
  exact ⟨hhanded, by decide +kernel, by decide +kernel⟩

end Node

end CoapNode
