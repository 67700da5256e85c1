import CoapNode.Proofs.Network.Delivered
import CoapNode.Proofs.Transaction.Run

set_option autoImplicit false

/-! # Where the packets of a request go

The peer of a transaction is given once, when the transaction is entered, and its packets carry its
id. Whatever happens to the table, a transaction in it is one that was there before, with the same
peer, or has just been entered (`TransactionTable.comesOf_step`), and what the table wants delivered
goes to the peer of the transaction that it is a packet of (`TransactionTable.sends_step`).
-/

namespace CoapNode

namespace Transaction

variable {t t' u : Transaction} {msg : Message} {con : Con} {now : Millis} {delivery : Delivery}

/-- **The first transaction is what has become of the second one.** It has the same id and the same
peer, and the packet that it retransmits is the one of the second, or has its id. -/
structure ComesOf (t u : Transaction) : Prop where
  id : t.id = u.id
  peer : t.peer = u.peer
  packet : t.isPending = true →
    u.isPending = true ∧ t.packet = u.packet ∨ Message.headerId? t.packet = some t.id

/-- **A delivery is of a packet of the transaction**, to its peer. -/
def Sends (t : Transaction) (delivery : Delivery) : Prop :=
  delivery.1 = t.peer
    ∧ (t.isPending = true ∧ delivery.2 = t.packet ∨ Message.headerId? delivery.2 = some t.id)

theorem ComesOf.refl (t : Transaction) : t.ComesOf t where
  id := rfl
  peer := rfl
  packet hpending := .inl ⟨hpending, rfl⟩

theorem ComesOf.trans (h : t.ComesOf t') (h' : t'.ComesOf u) : t.ComesOf u where
  id := h.id.trans h'.id
  peer := h.peer.trans h'.peer
  packet hpending := by
    rcases h.packet hpending with ⟨hpending', hpacket⟩ | hheader
    · rw [hpacket, h.id]
      exact h'.packet hpending'
    · exact .inr hheader

/-- A transaction that is not pending comes of every one with its id and its peer. -/
theorem ComesOf.of_not_isPending (hid : t.id = u.id) (hpeer : t.peer = u.peer)
    (h : t.isPending = false) : t.ComesOf u where
  id := hid
  peer := hpeer
  packet hpending := by simp [h] at hpending

theorem Sends.of_comesOf (h : t.Sends delivery) (hof : t.ComesOf u) : u.Sends delivery := by
  obtain ⟨hpeer, hpacket⟩ := h
  refine ⟨hpeer.trans hof.peer, ?_⟩
  rcases hpacket with ⟨hpending, hpacket⟩ | hheader
  · rcases hof.packet hpending with ⟨hpending', hsame⟩ | hheader
    · exact .inl ⟨hpending', hpacket.trans hsame⟩
    · rw [hpacket, hheader, hof.id]
      exact .inr rfl
  · rw [hheader, hof.id]
    exact .inr rfl

theorem comesOf_sent (t : Transaction) (msg : Message) (timer : RetryTimer) :
    (t.sent msg.token { msg with id := t.id }.encode timer).ComesOf t where
  id := rfl
  peer := rfl
  packet _ := .inr (Message.headerId?_encode _)

theorem comesOf_receive (hpending : t.isPending = true)
    (h : (t.receive msg con now).value = .ok t') : t'.ComesOf t := by
  rcases receive_cases h with ⟨-, rfl⟩ | ⟨-, -, timer, -, rfl⟩ | ⟨-, -, rfl⟩
  · exact .of_not_isPending rfl rfl rfl
  · exact ⟨rfl, rfl, fun _ => .inl ⟨hpending, rfl⟩⟩
  · exact .of_not_isPending rfl rfl rfl

theorem comesOf_poll (now : Millis) (t : Transaction) : (t.poll now).value.ComesOf t := by
  rcases poll_cases now t with h | ⟨hpending, ⟨timer, h⟩ | h⟩ <;> rw [h]
  · exact .refl t
  · exact ⟨rfl, rfl, fun _ => .inl ⟨hpending, rfl⟩⟩
  · exact .of_not_isPending rfl rfl rfl

/-- What a moment wants delivered for a transaction. -/
theorem delivered_poll (now : Millis) (t : Transaction) :
    delivered (t.poll now).trace = t.retransmission now := by
  cases hpending : t.isPending with
  | false =>
      rw [poll_of_not_isPending hpending, retransmission_of_not_isPending hpending]
      rfl
  | true =>
      rw [poll, retransmission, isPending_iff.1 hpending]
      cases t.retry? with
      | none => rfl
      | some timer =>
          simp only
          rcases timer.poll now with ⟨_ | _ | _, next⟩
          · simp
          · cases t.acked <;> simp
          · simp

/-- What a moment wants delivered is the packet of the transaction. -/
theorem sends_retransmission (now : Millis) (t : Transaction) :
    ∀ delivery ∈ t.retransmission now, t.Sends delivery := by
  intro delivery hdelivery
  cases hpending : t.isPending with
  | false =>
      rw [retransmission_of_not_isPending hpending] at hdelivery
      exact absurd hdelivery List.not_mem_nil
  | true =>
      rw [retransmission, isPending_iff.1 hpending] at hdelivery
      split at hdelivery
      · rw [List.mem_ite_nil_right, List.mem_singleton] at hdelivery
        obtain ⟨-, rfl⟩ := hdelivery
        exact ⟨rfl, .inl ⟨hpending, rfl⟩⟩
      · exact absurd hdelivery List.not_mem_nil

end Transaction

namespace TransactionTable

variable {table table' : TransactionTable} {op : Operation}

/-! ## One operation -/

/-- One transaction may be replaced by what has become of it. -/
theorem comesOf_replace {t t' : Transaction} {front back : List Transaction}
    (h : t'.ComesOf t) : ∀ u' ∈ front ++ t' :: back, ∃ u ∈ front ++ t :: back, u'.ComesOf u := by
  intro u' hu'
  rcases List.mem_append.1 hu' with hfront | hback
  · exact ⟨u', List.mem_append_left _ hfront, .refl u'⟩
  · rcases List.mem_cons.1 hback with rfl | hback
    · exact ⟨t, by simp, h⟩
    · exact ⟨u', by simp [hback], .refl u'⟩

/-- What is in the table after a transaction was to be entered was there before, or is that one. -/
theorem mem_live_allocate {id : MessageId} {peer : Endpoint} {t : Transaction}
    (ht : t ∈ (table.allocate id peer).value.2.live) : t ∈ table.live ∨ t = .new id peer := by
  cases halloc : (table.allocate id peer).value with
  | mk result next =>
      rw [halloc] at ht
      cases result with
      | error e => exact .inl (allocate_of_error halloc ▸ ht)
      | ok =>
          obtain ⟨-, front, back, hlive, hlive'⟩ := live_allocate halloc
          rw [hlive', List.mem_append, List.mem_cons] at ht
          rw [hlive, List.mem_append]
          rcases ht with hfront | rfl | hback
          · exact .inl (.inl hfront)
          · exact .inr rfl
          · exact .inl (.inr hback)

/-- Sending a request enters no transaction. -/
theorem comesOf_send (table : TransactionTable) (id : MessageId) (msg : Message) (con : Con)
    (now : Millis) :
    ∀ t' ∈ (table.send id msg con now).value.2.live, ∃ t ∈ table.live, t'.ComesOf t := by
  cases hsend : (table.send id msg con now).value with
  | mk result next =>
      cases result with
      | error e =>
          obtain rfl := send_of_error hsend
          exact fun t' ht' => ⟨t', ht', .refl t'⟩
      | ok =>
          obtain ⟨t, timer, rfl, -, -, front, back, hlive, -, hlive'⟩ := live_send hsend
          rw [hlive, hlive']
          exact comesOf_replace (t.comesOf_sent msg timer)

/-- **What is in the table after an operation** has become of what was there before, or has been
entered by the operation. -/
theorem comesOf_step (h : (table.step op).value = .ok table') :
    ∀ t' ∈ table'.live, (∃ t ∈ table.live, t'.ComesOf t)
      ∨ op = .allocate t'.id t'.peer ∧ t'.status = .fresh := by
  intro t' ht'
  -- a place is filled by `allocate` only; what fills other places has been in them before
  cases op with
  | nextId | nextToken =>
      obtain rfl := Except.ok.inj h
      exact .inl ⟨t', ht', .refl t'⟩
  | allocate id peer =>
      obtain rfl := Except.ok.inj h
      rcases mem_live_allocate ht' with hmem | rfl
      · exact .inl ⟨t', hmem, .refl t'⟩
      · exact .inr ⟨rfl, rfl⟩
  | send id msg con now =>
      rcases step_send h with ⟨-, rfl⟩ | h
      · exact .inl ⟨t', ht', .refl t'⟩
      · have hof := table.comesOf_send id msg con now
        rw [h] at hof
        exact .inl (hof t' ht')
  | receive msg con now =>
      obtain ⟨answer, hanswer⟩ := step_receive h
      rcases onResponse_cases hanswer with
        ⟨-, rfl, -⟩ | ⟨t, next, front, back, -, hawaits, hnext, hlive, -, hlive'⟩
      · exact .inl ⟨t', ht', .refl t'⟩
      · rw [hlive'] at ht'
        rw [hlive]
        have hpending := Transaction.isPending_of_awaits hawaits
        exact .inl (comesOf_replace (Transaction.comesOf_receive hpending hnext) t' ht')
  | poll now =>
      obtain rfl := Except.ok.inj h
      have hmem : t' ∈ (table.pollRetransmit now).value.live := ht'
      rw [live_pollRetransmit] at hmem
      obtain ⟨t, ht, rfl⟩ := List.mem_map.1 hmem
      exact .inl ⟨t, ht, t.comesOf_poll now⟩
  | take id =>
      obtain rfl := Except.ok.inj h
      rcases table.take_cases id with ⟨hsame, -⟩ | ⟨t, outcome, ht, hstatus⟩
      · rw [hsame] at ht'
        exact .inl ⟨t', ht', .refl t'⟩
      · obtain ⟨-, front, back, hlive, hlive'⟩ := live_take ht hstatus
        rw [hlive'] at ht'
        rw [hlive]
        have hsub := ((List.sublist_cons_self t back).append_left front).subset
        exact .inl ⟨t', hsub ht', .refl t'⟩
  | cancel id =>
      obtain rfl := Except.ok.inj h
      rw [live_cancel] at ht'
      exact .inl ⟨t', (List.mem_filter.1 ht').1, .refl t'⟩

/-- **All of the first table has become of what is in the second one.** -/
def Descends (table' table : TransactionTable) : Prop :=
  ∀ t' ∈ table'.live, ∃ t ∈ table.live, t'.ComesOf t

theorem Descends.refl (table : TransactionTable) : table.Descends table :=
  fun t ht => ⟨t, ht, .refl t⟩

theorem Descends.trans {table'' : TransactionTable} (h : table''.Descends table')
    (h' : table'.Descends table) : table''.Descends table := by
  intro t'' ht''
  obtain ⟨t', ht', hof⟩ := h t'' ht''
  obtain ⟨t, ht, hof'⟩ := h' t' ht'
  exact ⟨t, ht, hof.trans hof'⟩

/-- Only entering a transaction adds to the table. -/
theorem Descends.of_step (op : Operation) (hop : ∀ id peer, op ≠ .allocate id peer)
    (h : (table.step op).value = .ok table') : table'.Descends table := by
  intro t' ht'
  rcases comesOf_step h t' ht' with hof | ⟨hentered, -⟩
  · exact hof
  · exact absurd hentered (hop _ _)

theorem Passes.descends (h : table.Passes table') : table'.Descends table := by
  obtain ⟨ops, hops, hrun⟩ := h
  refine run_invariant (P := fun _ next => next.Descends table)
    (fun past next op next' hop hnext hstep => ?_) [] (.refl table) hrun
  refine Descends.trans (.of_step op (fun id peer heq => ?_) hstep) hnext
  have hpassive := hops op hop
  rw [heq] at hpassive
  cases hpassive

/-- What sending a request wants delivered is a packet of the transaction with its id. -/
theorem sends_send (table : TransactionTable) (id : MessageId) (msg : Message) (con : Con)
    (now : Millis) :
    ∀ delivery ∈ delivered (table.send id msg con now).trace,
      ∃ t ∈ table.live, t.Sends delivery := by
  rw [send]
  split
  · simp
  · next t ht =>
      split
      · simp
      · obtain ⟨hmem, rfl⟩ := mem_live_of_get? ht
        simp only [Traced.trace_bind, delivered_append, Traced.trace_liftM, delivered_map_log,
          Traced.trace_emit, Traced.trace_pure, delivered_deliver, delivered_nil, List.nil_append,
          List.append_nil, List.mem_singleton]
        rintro delivery rfl
        exact ⟨t, hmem, rfl, .inr (Message.headerId?_encode _)⟩

/-- **What retransmitting wants delivered** are the packets that the timers ask for. -/
theorem delivered_pollRetransmit (table : TransactionTable) (now : Millis) :
    delivered (table.pollRetransmit now).trace
      = table.live.flatMap fun t => t.retransmission now := by
  rw [trace_pollRetransmit, delivered, List.filterMap_flatMap]
  exact congrArg table.live.flatMap (funext fun t => t.delivered_poll now)

/-- Retransmitting wants packets of transactions in the table delivered. -/
theorem sends_pollRetransmit (table : TransactionTable) (now : Millis) :
    ∀ delivery ∈ delivered (table.pollRetransmit now).trace,
      ∃ t ∈ table.live, t.Sends delivery := by
  intro delivery hdelivery
  rw [delivered_pollRetransmit, List.mem_flatMap] at hdelivery
  obtain ⟨t, ht, hmem⟩ := hdelivery
  exact ⟨t, ht, t.sends_retransmission now delivery hmem⟩

end TransactionTable

end CoapNode
