import CoapNode.Proofs.Node.Intake
import CoapNode.Proofs.Node.Sender
import CoapNode.Proofs.Node.Service
import CoapNode.Proofs.Transaction.Addressee
import CoapNode.Proofs.Transaction.Retransmission

set_option autoImplicit false

/-! # Answers come before timeouts

In a turn a node handles every datagram that can be received before it looks at the clock to send
packets again and to give requests up. So a transaction that one of these datagrams completes is not
touched by the clock, however late it is (`Node.answers_precede_timeouts`): what is over stays as it
is while the rest is handled (`Node.Drains.get?_of_isOver`) and when the table is polled
(`Transaction.poll_of_isOver`). In the same way a request that has been acknowledged is not sent
again.
-/

namespace CoapNode

/-- The outcome of a transaction that a message ends: nothing if the message is a reset, and else
the message as the response. -/
def Message.outcome? (msg : Message) : Option Response :=
  if msg.kind = .reset then none else some ⟨msg⟩

/-! ## One transaction -/

namespace Transaction

variable {t t' : Transaction} {msg : Message} {con : Con} {now : Millis}

theorem retransmission_of_quiet (h : TransactionTable.Quiet (some t)) :
    t.retransmission now = [] := by
  rw [retransmission]
  split
  · next hpending _ =>
      have hacked := h t rfl (isPending_iff.2 hpending)
      simp [hacked]
  · rfl

/-- **A transaction that is over** is changed by no moment, and nothing is sent or logged for it. -/
theorem poll_of_isOver (h : t.isOver = true) (now : Millis) : t.poll now = pure t :=
  poll_of_not_isPending (not_isPending_of_isOver h)

/-- **A message that ends a transaction** decides about its outcome. -/
theorem eq_complete_of_isOver (hpending : t.isPending = true)
    (ht' : (t.receive msg con now).value = .ok t') (hover : t'.isOver = true) :
    t' = t.complete msg.outcome? := by
  rcases receive_cases ht' with ⟨hkind, rfl⟩ | ⟨-, -, timer, -, rfl⟩ | ⟨hkind, -, rfl⟩
  · rw [Message.outcome?, if_pos hkind]
  · -- a transaction that has only been acknowledged is still pending
    have hnot := not_isPending_of_isOver hover
    exact absurd hpending (Bool.eq_false_iff.1 hnot)
  · rw [Message.outcome?, if_neg hkind]

/-- A message that is received ends the transaction, unless it is an empty acknowledgement. -/
theorem isOver_of_receive (ht' : (t.receive msg con now).value = .ok t')
    (hmsg : ¬(msg.kind = .ack ∧ msg.code.isEmpty = true)) : t'.isOver = true := by
  rcases receive_cases ht' with ⟨-, rfl⟩ | ⟨hkind, hcode, -⟩ | ⟨-, -, rfl⟩
  · rfl
  · exact absurd ⟨hkind, hcode⟩ hmsg
  · rfl

/-- After a message has been received, the packet is not sent again. -/
theorem quiet_receive (ht' : (t.receive msg con now).value = .ok t') :
    TransactionTable.Quiet (some t') := by
  rintro u ⟨⟩ hpending'
  rcases receive_cases ht' with ⟨-, rfl⟩ | ⟨-, -, timer, -, rfl⟩ | ⟨-, -, rfl⟩
  · cases hpending'
  · rfl
  · cases hpending'

end Transaction

/-! ## One datagram -/

namespace MessageLayer

variable {κ ω : Type} [Clock κ] {layer : MessageLayer κ ω} {msg : Message}

/-- Where a message is credited, the clock could be read, and the table has received it. -/
theorem onResponse_of_credit {answer : Option MessageId}
    (h : (layer.credit msg).value.1 = .ok answer) :
    ∃ now, (layer.transactions.onResponse msg layer.config.con now).value
      = .ok (answer, (layer.credit msg).value.2.transactions) := by
  rw [value_credit] at h ⊢
  split at h
  · cases h
  · next now clock hnow =>
      split at h
      · cases h
      · next credited table hanswer =>
          obtain rfl := Except.ok.inj h
          exact ⟨now, by rw [hanswer]⟩

end MessageLayer

/-- **What a datagram makes of the transaction with an id** that it completes: the datagram is a
message that the transaction awaits, and the transaction is over with the outcome that the message
gives it. -/
def Visit.Ends {σ χ κ ω : Type} (visit : Visit σ χ κ ω) (k : MessageId) (ended : Transaction) :
    Prop :=
  ∃ t msg, visit.node.layer.transactions.get? k = some t
    ∧ Message.parse visit.datagram.bytes = .ok msg ∧ t.awaits msg = true
    ∧ ended = t.complete msg.outcome?

theorem Visit.Ends.isOver {σ χ κ ω : Type} {visit : Visit σ χ κ ω} {k : MessageId}
    {ended : Transaction} (h : visit.Ends k ended) : ended.isOver = true := by
  obtain ⟨t, msg, -, -, -, rfl⟩ := h
  rfl

section

variable {σ χ κ ω ε δ : Type} [Socket σ ε] [SecureChannel χ δ] [Clock κ]

/-- **A datagram completes the transaction with an id**: the transaction is pending when the
datagram is taken, and over when the datagram has been handled. -/
def Visit.Completes (visit : Visit σ χ κ ω) (observer : Observer ω) (k : MessageId) : Prop :=
  ∃ t t', visit.node.layer.transactions.get? k = some t ∧ t.isPending = true
    ∧ (visit.node.layerAfter observer visit.datagram).transactions.get? k = some t'
    ∧ t'.isOver = true

variable {visit : Visit σ χ κ ω} {observer : Observer ω} {k : MessageId} {t : Transaction}
  {msg : Message}

/-- **A datagram that completes a transaction** decides about its outcome. -/
theorem Visit.Completes.exists_ends (h : visit.Completes observer k) :
    ∃ ended, visit.Ends k ended
      ∧ (visit.node.layerAfter observer visit.datagram).transactions.get? k = some ended := by
  obtain ⟨t, t', ht, hpending, ht', hover⟩ := h
  rcases visit.node.get?_layerAfter observer visit.datagram ht with
    hsame | ⟨msg, now, u, hparse, -, hawaits, -, hreceive, hu⟩
  · -- a transaction that stays as it is stays pending
    obtain rfl : t' = t := Option.some.inj (ht'.symm.trans hsame)
    rw [Transaction.not_isPending_of_isOver hover] at hpending
    cases hpending
  · obtain rfl : t' = u := Option.some.inj (ht'.symm.trans hu)
    obtain rfl := Transaction.eq_complete_of_isOver hpending hreceive hover
    exact ⟨_, ⟨t, msg, ht, hparse, hawaits, rfl⟩, ht'⟩

/-- **A message that a transaction awaits is received by it**, if those that await it have its id
and handling the datagram succeeds. -/
theorem Visit.exists_receive (ht : visit.node.layer.transactions.get? k = some t)
    (hparse : Message.parse visit.datagram.bytes = .ok msg) (hcredited : msg.isCredited = true)
    (hawaits : t.awaits msg = true)
    (honly : ∀ u ∈ visit.node.layer.transactions.live, u.awaits msg = true → u.id = k)
    (hok : (visit.node.receive observer visit.datagram).value.1 = .ok ()) :
    ∃ con now t', (t.receive msg con now).value = .ok t'
      ∧ (visit.node.layerAfter observer visit.datagram).transactions.get? k = some t' := by
  have hhandle : (visit.node.layer.handle observer visit.datagram.peer visit.datagram.bytes).value.1
      = .ok () := hok
  rw [MessageLayer.value_handle_of_isCredited hparse hcredited] at hhandle
  rw [Node.layerAfter_eq, MessageLayer.layer_handle_of_isCredited hparse hcredited]
  cases hcredit : (visit.node.layer.credit msg).value.1 with
  | error e =>
      rw [hcredit] at hhandle
      cases hhandle
  | ok answer =>
      obtain ⟨now, hanswer⟩ := MessageLayer.onResponse_of_credit hcredit
      obtain ⟨-, t', ht', hget⟩ :=
        TransactionTable.get?_onResponse_of_awaits ht hawaits honly hanswer
      exact ⟨_, now, t', ht', hget⟩

/-! ## The rest of a turn -/

namespace Node.Drains

variable {node last : Node σ χ κ ω} {before after visits : List (Visit σ χ κ ω)}
  {result : Except (NodeError ε δ) Unit × Node σ χ κ ω}

/-- **After a datagram** that a successful turn takes in, the node goes on with those behind it. -/
theorem cut (h : node.Drains observer (before ++ visit :: after) (.ok (), last)) :
    ∃ next, (visit.node.receive observer visit.datagram).value = (.ok (), next)
      ∧ next.Drains observer after (.ok (), last) := by
  induction before generalizing node with
  | nil =>
      cases h with
      | took hpoll hreceive hrest => exact ⟨_, hreceive, hrest⟩
  | cons first before ih =>
      rw [List.cons_append] at h
      generalize hvisits : before ++ visit :: after = visits at h
      cases h with
      | took hpoll hreceive hrest => exact ih (hvisits ▸ hrest)

/-- **What a pending transaction keeps when it receives a message** holds of the transaction with an
id whenever a datagram is taken, and in the end. -/
theorem get?_invariant {P : Transaction → Prop}
    (hreceive : ∀ t t' msg con now, P t → t.isPending = true →
      (t.receive msg con now).value = .ok t' → P t')
    (h : node.Drains observer visits result) (ht : node.layer.transactions.get? k = some t)
    (hP : P t) :
    (∀ visit ∈ visits, ∃ u, visit.node.layer.transactions.get? k = some u ∧ P u)
      ∧ ∃ u, result.2.layer.transactions.get? k = some u ∧ P u := by
  refine h.layer (P := fun layer => ∃ u, layer.transactions.get? k = some u ∧ P u)
    (fun layer peer bytes hlayer => ?_) ⟨t, ht, hP⟩
  obtain ⟨u, hu, hPu⟩ := hlayer
  rcases Node.get?_layerAfter ⟨node.transport, layer⟩ observer ⟨peer, bytes⟩ hu with
    hsame | ⟨msg, now, u', -, -, hawaits, -, hu', hget⟩
  · exact ⟨u, hsame, hPu⟩
  · exact ⟨u', hget, hreceive u u' msg _ now hPu (Transaction.isPending_of_awaits hawaits) hu'⟩

/-- **A transaction that is over** stays as it is. -/
theorem get?_of_isOver (h : node.Drains observer visits result)
    (ht : node.layer.transactions.get? k = some t) (hover : t.isOver = true) :
    (∀ visit ∈ visits, visit.node.layer.transactions.get? k = some t)
      ∧ result.2.layer.transactions.get? k = some t := by
  have hreceive (u t' : Transaction) (msg : Message) (con : Con) (now : Millis) (hu : u = t)
      (hpending : u.isPending = true) (_ : (u.receive msg con now).value = .ok t') : t' = t := by
    rw [hu, Transaction.not_isPending_of_isOver hover] at hpending
    cases hpending
  obtain ⟨hvisits, u, hu, rfl⟩ := h.get?_invariant (P := (· = t)) hreceive ht rfl
  refine ⟨fun visit hvisit => ?_, hu⟩
  obtain ⟨u', hu', rfl⟩ := hvisits visit hvisit
  exact hu'

/-- **A datagram that completes a transaction** is the only one to do so, and the transaction is in
the end what the datagram has made of it. -/
theorem get?_of_completes (h : node.Drains observer (before ++ visit :: after) (.ok (), last))
    (hcompletes : visit.Completes observer k) :
    last.layer.transactions.get? k
        = (visit.node.layerAfter observer visit.datagram).transactions.get? k
      ∧ ∀ other ∈ before ++ after, ¬other.Completes observer k := by
  -- after a datagram that completes the transaction it is over whenever another one is taken
  have hafter {before after : List (Visit σ χ κ ω)} {visit : Visit σ χ κ ω}
      (h : node.Drains observer (before ++ visit :: after) (.ok (), last))
      (hcompletes : visit.Completes observer k) :
      last.layer.transactions.get? k
          = (visit.node.layerAfter observer visit.datagram).transactions.get? k
        ∧ ∀ other ∈ after, ∀ t, other.node.layer.transactions.get? k = some t →
          t.isPending = false := by
    obtain ⟨-, t', -, -, ht', hover⟩ := hcompletes
    obtain ⟨next, hreceive, hrest⟩ := h.cut
    have hnext : next.layer = visit.node.layerAfter observer visit.datagram :=
      (congrArg (fun received => received.2.layer) hreceive).symm
    obtain ⟨hothers, hlast⟩ := hrest.get?_of_isOver (hnext ▸ ht') hover
    refine ⟨hlast.trans ht'.symm, fun other hother t ht => ?_⟩
    obtain rfl : t' = t := Option.some.inj ((hothers other hother).symm.trans ht)
    exact Transaction.not_isPending_of_isOver hover
  obtain ⟨hlast, hothers⟩ := hafter h hcompletes
  refine ⟨hlast, fun other hother hagain => ?_⟩
  rcases List.mem_append.1 hother with hbefore | hbehind
  · obtain ⟨front, back, rfl⟩ := List.append_of_mem hbefore
    rw [List.append_assoc, List.cons_append] at h
    obtain ⟨t, -, ht, hpending, -⟩ := hcompletes
    rw [(hafter h hagain).2 visit (by simp) t ht] at hpending
    cases hpending
  · obtain ⟨t, -, ht, hpending, -⟩ := hagain
    rw [hothers other hbehind t ht] at hpending
    cases hpending

end Node.Drains

namespace MessageLayer

/-- **What has become due** are the packets that the timers of the transactions ask for, and the
transactions are those that the moment has made of them. -/
theorem tend_of_ok {layer : MessageLayer κ ω} (hok : layer.tend.value.1 = .ok ()) :
    ∃ now, (Clock.now layer.clock).1 = .ok now
      ∧ layer.tend.value.2.transactions = (layer.transactions.pollRetransmit now).value
      ∧ delivered layer.tend.trace
        = layer.transactions.live.flatMap fun t => t.retransmission now := by
  rw [tend] at hok ⊢
  rcases hnow : Clock.now layer.clock with ⟨_ | now, clock⟩
  · rw [hnow] at hok
    cases hok
  · refine ⟨now, rfl, ?_, ?_⟩
    · rfl
    · -- the timers of the registry only log
      dsimp only
      rw [Traced.trace_bind, delivered_append, TransactionTable.delivered_pollRetransmit,
        Traced.trace_bind, delivered_append, Traced.trace_liftM, delivered_map_log, List.nil_append]
      exact List.append_nil _

end MessageLayer

namespace TransactionTable

/-- **An empty acknowledgement with the id of a pending transaction** is awaited by that one, and by
no transaction with another id, unless it has the token of that one. -/
theorem awaits_of_emptyAck {table : TransactionTable} (ht : table.get? k = some t)
    (hpending : t.isPending = true) (hkind : msg.kind = .ack) (hid : msg.id = k)
    (htoken : msg.token.isEmpty = true
      ∨ ∀ u ∈ table.live, u.isPending = true → u.token? = some msg.token → u.id = k) :
    t.awaits msg = true ∧ ∀ u ∈ table.live, u.awaits msg = true → u.id = k := by
  constructor
  · have hanswers : t.answeredBy msg = true :=
      Transaction.answeredBy_iff.2 (.inl ⟨.inl hkind, hid.trans (mem_live_of_get? ht).2.symm⟩)
    exact (Bool.and_eq_true _ _).mpr ⟨hpending, hanswers⟩
  · intro u hu hawaits
    rcases Transaction.answeredBy_iff.1 (Transaction.answeredBy_of_awaits hawaits) with
      ⟨-, huid⟩ | ⟨hne, hutoken⟩
    · exact huid.symm.trans hid
    · rcases htoken with hempty | hothers
      · rw [hempty] at hne
        cases hne
      · exact hothers u hu (Transaction.isPending_of_awaits hawaits) hutoken

end TransactionTable

namespace Node

/-- **A successful turn** takes in datagrams until there are none left, and then polls the
transactions at the moment that the clock shows. -/
theorem exists_pollRetransmit {node : Node σ χ κ ω}
    (hok : (node.pollWith observer).value.1 = .ok ()) :
    ∃ last now, (node.drain observer).value = (.ok (), last)
      ∧ (Clock.now last.layer.clock).1 = .ok now
      ∧ (node.pollWith observer).value.2.layer.transactions
        = (last.layer.transactions.pollRetransmit now).value
      ∧ delivered (node.pollWith observer).trace
        = delivered (node.drain observer).trace
          ++ (last.layer.transactions.live.flatMap fun t => t.retransmission now) := by
  obtain ⟨last, hdrain⟩ := drain_of_pollWith hok
  have hvalue := value_pollWith hdrain
  have htend : last.layer.tend.value.1 = .ok () := by
    rw [hvalue] at hok
    cases htend : last.layer.tend.value.1 with
    | error e =>
        rw [htend] at hok
        cases hok
    | ok => rfl
  obtain ⟨now, hnow, htable, hdue⟩ := MessageLayer.tend_of_ok htend
  refine ⟨last, now, hdrain, hnow, ?_, ?_⟩
  · rw [hvalue, ← htable]
    rfl
  · rw [delivered_pollWith hdrain, hdue]

variable {node last : Node σ χ κ ω} {visits : List (Visit σ χ κ ω)}

/-- **A message that a transaction awaits** completes it when a successful turn takes it in, unless
it is an empty acknowledgement. -/
theorem Drains.completes_of_awaits (h : node.Drains observer visits (.ok (), last))
    (hvisit : visit ∈ visits) (ht : visit.node.layer.transactions.get? k = some t)
    (hparse : Message.parse visit.datagram.bytes = .ok msg) (hcredited : msg.isCredited = true)
    (hawaits : t.awaits msg = true)
    (honly : ∀ u ∈ visit.node.layer.transactions.live, u.awaits msg = true → u.id = k)
    (hmsg : ¬(msg.kind = .ack ∧ msg.code.isEmpty = true)) : visit.Completes observer k := by
  obtain ⟨before, after, rfl⟩ := List.append_of_mem hvisit
  obtain ⟨next, hreceive, -⟩ := h.cut
  obtain ⟨con, moment, t', ht', hget⟩ :=
    visit.exists_receive ht hparse hcredited hawaits honly (congrArg Prod.fst hreceive)
  have hpending := Transaction.isPending_of_awaits hawaits
  exact ⟨t, t', ht, hpending, hget, Transaction.isOver_of_receive ht' hmsg⟩

/-- **An empty acknowledgement of a pending transaction** that a successful turn takes in keeps the
packet from being sent again at the end, at whatever moment. -/
theorem Drains.retransmission_of_emptyAck (h : node.Drains observer visits (.ok (), last))
    (hvisit : visit ∈ visits) (ht : visit.node.layer.transactions.get? k = some t)
    (hpending : t.isPending = true) (hparse : Message.parse visit.datagram.bytes = .ok msg)
    (hkind : msg.kind = .ack) (hcode : msg.code.isEmpty = true) (hid : msg.id = k)
    (htoken : msg.token.isEmpty = true ∨ ∀ u ∈ visit.node.layer.transactions.live,
      u.isPending = true → u.token? = some msg.token → u.id = k) (now : Millis) :
    ∃ u, last.layer.transactions.get? k = some u ∧ u.retransmission now = [] := by
  obtain ⟨before, after, rfl⟩ := List.append_of_mem hvisit
  obtain ⟨next, hreceive, hrest⟩ := h.cut
  obtain ⟨hawaits, honly⟩ := TransactionTable.awaits_of_emptyAck ht hpending hkind hid htoken
  have hcredited : msg.isCredited = true := by simp [Message.isCredited, hcode, hkind]
  obtain ⟨con, moment, t', ht', hget⟩ :=
    visit.exists_receive ht hparse hcredited hawaits honly (congrArg Prod.fst hreceive)
  have hnext : next.layer = visit.node.layerAfter observer visit.datagram :=
    (congrArg (fun received => received.2.layer) hreceive).symm
  -- the acknowledgement silences the transaction, and whatever is received later keeps it silent
  obtain ⟨-, u, hu, hquiet⟩ := hrest.get?_invariant
    (P := fun t => TransactionTable.Quiet (some t))
    (fun _ _ _ _ _ _ _ hreceive => Transaction.quiet_receive hreceive)
    (hnext ▸ hget) (Transaction.quiet_receive ht')
  exact ⟨u, hu, Transaction.retransmission_of_quiet hquiet⟩

/-! ## Main result -/

/-- **Answers come before timeouts.** If a turn succeeds, the node has taken in datagrams until
there were none left, and then polled its transactions at one moment, which may be any. What it has
delivered are the replies to these datagrams and then the packets that the timers asked for. Where
one of the datagrams completes a transaction, no other one does, and the transaction has the outcome
that this datagram gives it when the clock is looked at: nothing is sent or logged for it then, and
it is the same at the end of the turn. A message completes the transaction that awaits it, unless it
is an empty acknowledgement; after such a one, the packet of the transaction is not sent again. -/
theorem answers_precede_timeouts (node : Node σ χ κ ω) (observer : Observer ω)
    (hok : (node.pollWith observer).value.1 = .ok ()) :
    ∃ visits last now, node.Drains observer visits (.ok (), last)
      ∧ (Clock.now last.layer.clock).1 = .ok now
      ∧ (node.pollWith observer).value.2.layer.transactions
        = (last.layer.transactions.pollRetransmit now).value
      ∧ delivered (node.pollWith observer).trace
        = (visits.flatMap fun visit => visit.replies observer)
          ++ (last.layer.transactions.live.flatMap fun t => t.retransmission now)
      ∧ (∀ before visit after k, visits = before ++ visit :: after → visit.Completes observer k →
          (∃ ended, visit.Ends k ended ∧ last.layer.transactions.get? k = some ended
            ∧ (ended.poll now).trace = [] ∧ ended.retransmission now = []
            ∧ (node.pollWith observer).value.2.layer.transactions.get? k = some ended)
          ∧ ∀ other ∈ before ++ after, ¬other.Completes observer k)
      ∧ (∀ visit ∈ visits, ∀ k t msg, visit.node.layer.transactions.get? k = some t →
          Message.parse visit.datagram.bytes = .ok msg → msg.isCredited = true →
          t.awaits msg = true →
          (∀ u ∈ visit.node.layer.transactions.live, u.awaits msg = true → u.id = k) →
          ¬(msg.kind = .ack ∧ msg.code.isEmpty = true) → visit.Completes observer k)
      ∧ ∀ visit ∈ visits, ∀ k t msg, visit.node.layer.transactions.get? k = some t →
          t.isPending = true → Message.parse visit.datagram.bytes = .ok msg →
          msg.kind = .ack → msg.code.isEmpty = true → msg.id = k →
          (msg.token.isEmpty = true ∨ ∀ u ∈ visit.node.layer.transactions.live,
            u.isPending = true → u.token? = some msg.token → u.id = k) →
          ∃ u, last.layer.transactions.get? k = some u ∧ u.retransmission now = [] := by
  obtain ⟨visits, hdrains, hreplies⟩ := node.drains_drain observer
  obtain ⟨last, now, hdrain, hnow, htable, hdue⟩ := exists_pollRetransmit hok
  rw [hdrain] at hdrains
  refine ⟨visits, last, now, hdrains, hnow, htable, by rw [hdue, hreplies], ?_, ?_, ?_⟩
  · rintro before visit after k rfl hcompletes
    obtain ⟨hlast, honly⟩ := hdrains.get?_of_completes hcompletes
    obtain ⟨ended, hends, hover⟩ := hcompletes.exists_ends
    have hpoll := Transaction.poll_of_isOver hends.isOver now
    have htrace : (ended.poll now).trace = [] := by rw [hpoll, Traced.trace_pure]
    refine ⟨⟨ended, hends, hlast.trans hover, htrace, ?_, ?_⟩, honly⟩
    · rw [← Transaction.delivered_poll, htrace, delivered_nil]
    · rw [htable, TransactionTable.get?_pollRetransmit, hlast, hover, Option.map_some, hpoll,
        Traced.value_pure]
  · intro visit hvisit k t msg ht hparse hcredited hawaits honly hmsg
    exact hdrains.completes_of_awaits hvisit ht hparse hcredited hawaits honly hmsg
  · intro visit hvisit k t msg ht hpending hparse hkind hcode hid htoken
    exact hdrains.retransmission_of_emptyAck hvisit ht hpending hparse hkind hcode hid htoken now

/-! ## A response that waits for a late node -/

open Simulation TransactionTable

/-- The node that has sent a request, long after it should have sent it again, with messages from a
stranger waiting for it. -/
def sampleLate (arrivals : List Message) : Except LayerError MemoryNode :=
  sampleNode.map fun node =>
    let transport : MemoryTransport := node.transport
    (MemoryNode.withClock node { now := 1000000 }).withTransport
      (transport.onSocket false fun socket =>
        arrivals.foldl (fun socket msg =>
          socket.enqueue (.datagram msg.encode sampleStranger.socketAddress)) socket)

/-- Without a message the node sends the request again. Behind an acknowledgement it takes the
first response and nothing of what comes later, and sends nothing. -/
theorem answers_precede_timeouts_sampleLate :
    (∃ node, sampleLate [] = .ok node
      ∧ (delivered (node.pollWith .idle).trace).map Prod.fst = [sampleSecurePeer])
    ∧ ∃ node, sampleLate [.blank .ack 1, sampleForgery, .blank .reset 1] = .ok node
      ∧ (node.pollWith .idle).value.1 = .ok ()
      ∧ delivered (node.pollWith .idle).trace = []
      ∧ ((node.pollWith .idle).value.2.layer.transactions.get? 1).map (·.status)
        = some (.complete (some ⟨sampleForgery⟩))
      ∧ ∃ visits last now, node.Drains .idle visits (.ok (), last)
        ∧ (∀ before visit after k, visits = before ++ visit :: after →
          visit.Completes .idle k →
          (∃ ended, visit.Ends k ended ∧ (ended.poll now).trace = []
            ∧ (node.pollWith .idle).value.2.layer.transactions.get? k = some ended)
          ∧ ∀ other ∈ before ++ after, ¬other.Completes .idle k) := by
  have hsample : ∃ node, sampleLate [.blank .ack 1, sampleForgery, .blank .reset 1] = .ok node
      ∧ (node.pollWith .idle).value.1 = .ok ()
      ∧ delivered (node.pollWith .idle).trace = []
      ∧ ((node.pollWith .idle).value.2.layer.transactions.get? 1).map (·.status)
        = some (.complete (some ⟨sampleForgery⟩)) :=
    ⟨_, rfl, by decide +kernel, by decide +kernel, by decide +kernel⟩
  refine ⟨⟨_, rfl, by decide +kernel⟩, ?_⟩
  obtain ⟨node, hnode, hok, hsilent, hget⟩ := hsample
  obtain ⟨visits, last, now, hdrains, -, -, -, hcompletes, -⟩ :=
    answers_precede_timeouts node .idle hok
  refine ⟨node, hnode, hok, hsilent, hget, visits, last, now, hdrains,
    fun before visit after k hvisits hcompleted => ?_⟩
  obtain ⟨⟨ended, hends, -, htrace, -, hget⟩, honly⟩ :=
    hcompletes before visit after k hvisits hcompleted
  exact ⟨⟨ended, hends, htrace, hget⟩, honly⟩

end Node

end

end CoapNode
