import CoapNode.Proofs.Message.Header
import CoapNode.Proofs.Transaction.Consistency

set_option autoImplicit false

/-! # Which deliveries belong to a request

The table asks for the packets of all its requests to be delivered, one after the other. Those of
one request are told apart by the message id in their header (`deliveries`). In a table that is in
order (`TransactionTable.InOrder`) what an operation adds to them depends on the transaction with
that id alone: the packet when the request is sent, the same packet again when its timer asks for
that and nothing has been acknowledged, and nothing else (`deliveries_step`). So deliveries can be
followed along a run together with the transaction (`run_deliveries`).
-/

namespace CoapNode

/-- To whom something is delivered, and which bytes. -/
abbrev Delivery := Endpoint × Bytes

/-- The delivery of a packet with a message id, if that is what an activity is. -/
def Activity.deliveryOf? (k : MessageId) : Activity → Option Delivery
  | .deliver peer bytes => if Message.headerId? bytes = some k then some (peer, bytes) else none
  | _ => none

/-- **The deliveries of the request with a message id**, first delivery first. -/
def deliveries (k : MessageId) (trace : List Activity) : List Delivery :=
  trace.filterMap (Activity.deliveryOf? k)

section

variable {k : MessageId}

@[simp] theorem deliveries_nil : deliveries k [] = [] := rfl

@[simp] theorem deliveries_append (before after : List Activity) :
    deliveries k (before ++ after) = deliveries k before ++ deliveries k after :=
  List.filterMap_append

@[simp] theorem deliveries_log (line : LogLine) (rest : List Activity) :
    deliveries k (.log line :: rest) = deliveries k rest :=
  rfl

@[simp] theorem deliveries_map_log (lines : List LogLine) :
    deliveries k (lines.map .log) = [] := by
  induction lines with
  | nil => rfl
  | cons line lines ih => exact ih

/-- A packet belongs to the request whose id it was given. -/
theorem deliveries_encode (peer : Endpoint) (msg : Message) :
    deliveries k [.deliver peer msg.encode] = if msg.id = k then [(peer, msg.encode)] else [] := by
  by_cases h : msg.id = k <;> simp [deliveries, Activity.deliveryOf?, h]

end

/-! ## One transaction -/

namespace Transaction

variable {t : Transaction} {k : MessageId} {now : Millis}

/-- The packet of a pending transaction, if its timer asks for another attempt at a moment and
nothing has been acknowledged. -/
def retransmission (t : Transaction) (now : Millis) : List Delivery :=
  match t.status, t.retry? with
  | .pending, some timer =>
    if t.acked = false ∧ (timer.poll now).1 = .retry then [(t.peer, t.packet)] else []
  | _, _ => []

theorem retransmission_pending {timer : RetryTimer} (hpending : t.isPending = true)
    (htimer : t.retry? = some timer) :
    t.retransmission now
      = if t.acked = false ∧ (timer.poll now).1 = .retry then [(t.peer, t.packet)] else [] := by
  rw [retransmission, isPending_iff.1 hpending, htimer]

theorem retransmission_of_not_isPending (h : t.isPending = false) : t.retransmission now = [] := by
  rw [retransmission]
  split
  · next hpending _ => simp [isPending, hpending] at h
  · rfl

/-- A moment brings deliveries of the transaction's own request only. -/
theorem deliveries_poll (h : t.Consistent) :
    deliveries k (t.poll now).trace = if t.id = k then t.retransmission now else [] := by
  cases hpending : t.isPending with
  | false =>
      rw [poll_of_not_isPending hpending, retransmission_of_not_isPending hpending, ite_self]
      rfl
  | true =>
      obtain ⟨timer, htimer⟩ := h.exists_timer hpending
      obtain ⟨-, msg, hid, -, hpacket⟩ := h.pending (isPending_iff.1 hpending)
      rw [retransmission_pending hpending htimer]
      simp only [poll, isPending_iff.1 hpending, htimer]
      cases hpoll : timer.poll now with
      | mk decision next =>
          cases decision with
          | wait => simp
          | giveUp => simp
          | retry =>
              cases hacked : t.acked with
              | true => simp
              | false => simp [hpacket, deliveries_encode, hid]

end Transaction

namespace TransactionTable

variable {table table' : TransactionTable} {op : Operation} {ops : List Operation}
  {k : MessageId} {capacity : Nat}

/-! ## Tables in order -/

/-- **A table in order** is well formed, and every transaction in it is consistent. -/
structure InOrder (capacity : Nat) (table : TransactionTable) : Prop where
  wellFormed : table.WellFormed capacity
  consistent : ∀ t ∈ table.live, t.Consistent

theorem inOrder_new (capacity : Nat) (seed : UInt64) : (new capacity seed).InOrder capacity where
  wellFormed := wellFormed_new capacity seed
  consistent _ ht := absurd ht List.not_mem_nil

theorem InOrder.step (h : table.InOrder capacity) (hstep : (table.step op).value = .ok table') :
    table'.InOrder capacity := by
  have hw := h.wellFormed.step hstep
  refine ⟨hw, ?_⟩
  intro t ht
  have hget : table'.get? t.id = some t := hw.distinct.get?_eq_some_iff.2 ⟨ht, rfl⟩
  have hevolves := step_evolves h.wellFormed.distinct hstep t.id
  refine (hevolves.consistent ?_ t hget).2
  intro u hu
  obtain ⟨hmem, hid⟩ := mem_live_of_get? hu
  exact ⟨hid, h.consistent u hmem⟩

theorem InOrder.run (h : table.InOrder capacity) (hrun : (table.run ops).value = .ok table') :
    table'.InOrder capacity :=
  run_invariant (P := fun _ table => table.InOrder capacity)
    (fun _ _ _ _ _ h hstep => h.step hstep) [] h hrun

/-! ## One operation -/

/-- What an operation adds to the deliveries of the request with an id, given the transaction with
that id. -/
def Operation.deliveries (k : MessageId) : Operation → Option Transaction → List Delivery
  | .send id msg _ _, some t => if id = k then [(t.peer, { msg with id := k }.encode)] else []
  | .poll now, some t => t.retransmission now
  | _, _ => []

theorem deliveries_send {id : MessageId} {msg : Message} {con : Con} {now : Millis}
    (h : (table.step (.send id msg con now)).value = .ok table') :
    deliveries k (table.step (.send id msg con now)).trace
      = Operation.deliveries k (.send id msg con now) (table.get? k) := by
  rw [trace_step_send]
  rcases step_send h with ⟨hnone, -⟩ | hsend
  · rw [send, hnone]
    by_cases hid : id = k
    · subst hid
      rw [hnone]
      rfl
    · cases table.get? k with
      | none => rfl
      | some u => exact (if_neg hid).symm
  · obtain ⟨t, timer, ht, htimer, -⟩ := get?_send hsend
    have hsent : deliveries k (table.send id msg con now).trace
        = if id = k then [(t.peer, { msg with id := id }.encode)] else [] := by
      rw [send, ht]
      simp only [htimer]
      exact deliveries_encode t.peer { msg with id := id }
    rw [hsent]
    by_cases hid : id = k
    · subst hid
      rw [ht]
      rfl
    · rw [if_neg hid]
      cases table.get? k with
      | none => rfl
      | some u => exact (if_neg hid).symm

theorem deliveries_pollRetransmit (h : table.InOrder capacity) (now : Millis) :
    deliveries k (table.pollRetransmit now).trace
      = Operation.deliveries k (.poll now) (table.get? k) := by
  have hothers (ts : List Transaction) (hts : ∀ t ∈ ts, t.Consistent ∧ t.id ≠ k) :
      deliveries k (ts.flatMap fun t => (t.poll now).trace) = [] := by
    rw [deliveries, List.filterMap_flatMap, List.flatMap_eq_nil_iff]
    intro t ht
    obtain ⟨hconsistent, hid⟩ := hts t ht
    exact (Transaction.deliveries_poll hconsistent).trans (if_neg hid)
  rw [trace_pollRetransmit]
  cases hget : table.get? k with
  | none =>
      exact hothers _ fun t ht => ⟨h.consistent t ht, get?_eq_none_iff.1 hget t ht⟩
  | some t =>
      obtain ⟨hmem, rfl⟩ := mem_live_of_get? hget
      obtain ⟨front, back, hlive⟩ := List.append_of_mem hmem
      obtain ⟨hfront, hback⟩ := h.wellFormed.distinct.cut hlive
      have hconsistent := h.consistent
      rw [hlive] at hconsistent
      obtain ⟨hcfront, hcrest⟩ := List.forall_mem_append.1 hconsistent
      obtain ⟨hct, hcback⟩ := List.forall_mem_cons.1 hcrest
      rw [hlive, List.flatMap_append, List.flatMap_cons, deliveries_append, deliveries_append,
        hothers front fun u hu => ⟨hcfront u hu, hfront u hu⟩,
        hothers back fun u hu => ⟨hcback u hu, hback u hu⟩,
        Transaction.deliveries_poll hct, if_pos rfl, List.nil_append, List.append_nil]
      rfl

/-- **What an operation delivers for a request depends on its transaction alone.** -/
theorem deliveries_step (h : table.InOrder capacity)
    (hstep : (table.step op).value = .ok table') (k : MessageId) :
    deliveries k (table.step op).trace = op.deliveries k (table.get? k) := by
  cases op with
  | nextId => rfl
  | nextToken => rfl
  | take id => rfl
  | cancel id => rfl
  | allocate id peer =>
      simp only [step, Traced.trace_bind, Traced.trace_liftM, deliveries_append, deliveries_map_log,
        List.nil_append]
      rfl
  | receive msg con now =>
      simp only [step, Traced.trace_bind, Traced.trace_liftM, deliveries_append, deliveries_map_log,
        List.nil_append]
      rfl
  | send id msg con now => exact deliveries_send hstep
  | poll now =>
      simp only [step, Traced.trace_bind, Traced.trace_pure, List.append_nil]
      exact deliveries_pollRetransmit h now

/-! ## A run -/

theorem deliveries_run_cons {next : TransactionTable} (h : table.InOrder capacity)
    (hstep : (table.step op).value = .ok next) :
    deliveries k (table.run (op :: ops)).trace
      = op.deliveries k (table.get? k) ++ deliveries k (next.run ops).trace := by
  have htrace : (table.run (op :: ops)).trace = (table.step op).trace ++ (next.run ops).trace := by
    simp only [run, Traced.trace_bind, hstep]
  rw [htrace, deliveries_append, deliveries_step h hstep]

/-- **Deliveries along a run.** What ties the deliveries of a request so far to its transaction only
has to be kept in the cases of `Evolves`. -/
theorem run_deliveries {Q : List Operation → List Delivery → Option Transaction → Prop}
    (hstep : ∀ past sent op o o', op ∈ ops → Evolves k op o o' → Q past sent o →
      Q (past ++ [op]) (sent ++ op.deliveries k o) o')
    (h : table.InOrder capacity) (past : List Operation) (sent : List Delivery)
    (hq : Q past sent (table.get? k)) (hrun : (table.run ops).value = .ok table') :
    Q (past ++ ops) (sent ++ deliveries k (table.run ops).trace) (table'.get? k) := by
  induction ops generalizing table past sent with
  | nil =>
      obtain rfl := Except.ok.inj hrun
      have hnone : deliveries k (table.run []).trace = [] := rfl
      rw [hnone, List.append_nil, List.append_nil]
      exact hq
  | cons op ops ih =>
      obtain ⟨next, hnext, hrest⟩ := run_cons hrun
      have hevolves := step_evolves h.wellFormed.distinct hnext k
      have hq' := hstep past sent op _ _ (List.mem_cons_self ..) hevolves hq
      rw [deliveries_run_cons h hnext, List.append_cons past, ← List.append_assoc sent]
      refine ih ?_ (h.step hnext) _ _ hq' hrest
      intro past sent op' o o' hop
      exact hstep past sent op' o o' (List.mem_cons_of_mem op hop)

end TransactionTable

end CoapNode
