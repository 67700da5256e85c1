import CoapNode.Proofs.Transaction.Deliveries
import CoapNode.Proofs.Transaction.Timing

set_option autoImplicit false

/-! # When a request is sent again

The deliveries of a request since it was sent are tied to its transaction: they are copies of one
packet, not more than attempts are made, and as long as nothing has been acknowledged there are as
many of them as attempts that the timer has counted (`Delivered`). Together with what the timer has
seen (`Underway`) every operation keeps this, and the main result reads the rest off it
(`deliveries_since_send`): when a packet is sent again, that acknowledgements end this, and when a
request is given up.
-/

namespace CoapNode.TransactionTable

variable {con : Con} {k : MessageId} {request : Message} {start : Millis} {peer : Endpoint}
  {packet : Bytes} {past ops : List Operation} {op : Operation} {sent : List Delivery}
  {o o' : Option Transaction} {table table' : TransactionTable} {capacity : Nat}

/-! ## What is not sent again -/

/-- **A request that is not sent again**: its transaction is gone, or it is not pending, or the
request has been acknowledged. -/
def Quiet (o : Option Transaction) : Prop := ∀ t ∈ o, t.isPending = true → t.acked = true

theorem quiet_none : Quiet none := by
  rintro t ⟨⟩

/-- Among the operations that do not send a request, only a poll delivers it, when the timer asks
for another attempt. -/
theorem exists_poll_of_deliveries (hsends : op.sends k = false) (h : op.deliveries k o ≠ []) :
    ∃ now t timer, op = .poll now ∧ o = some t ∧ t.isPending = true ∧ t.acked = false
      ∧ t.retry? = some timer ∧ (timer.poll now).1 = .retry := by
  cases o with
  | none => cases op <;> exact absurd rfl h
  | some t =>
      cases op with
      | send id msg c now =>
          refine absurd ?_ h
          exact if_neg (beq_eq_false_iff_ne.1 hsends)
      | poll now =>
          have hretransmission : t.retransmission now ≠ [] := h
          rw [Transaction.retransmission] at hretransmission
          split at hretransmission
          · next timer hpending htimer =>
              rw [ite_ne_right_iff] at hretransmission
              obtain ⟨⟨hacked, hretry⟩, -⟩ := hretransmission
              exact ⟨now, t, timer, rfl, rfl, Transaction.isPending_iff.2 hpending, hacked, htimer,
                hretry⟩
          · exact absurd rfl hretransmission
      | _ => exact absurd rfl h

/-- Otherwise the transaction is pending, and the request has not been acknowledged. -/
theorem pending_of_not_quiet {t : Transaction} (h : ¬Quiet (some t)) :
    t.isPending = true ∧ t.acked = false := by
  simpa [Quiet] using h

theorem Quiet.deliveries_eq_nil (h : Quiet o) (hsends : op.sends k = false) :
    op.deliveries k o = [] := by
  by_contra hne
  obtain ⟨now, t, timer, -, rfl, hpending, hacked, -⟩ := exists_poll_of_deliveries hsends hne
  rw [h t rfl hpending] at hacked
  cases hacked

/-- **What can happen to a request that is not sent anew**: it is polled, or nothing is delivered
for it, and it stays as it is or is not sent again. -/
theorem Evolves.polled_or_quiet (h : Evolves k op o o') (hsends : op.sends k = false) :
    (∃ now t, op = .poll now ∧ o = some t ∧ o' = some (t.poll now).value)
      ∨ (op.deliveries k o = [] ∧ (o' = o ∨ Quiet o')) := by
  have hnone (hpoll : ∀ now, op ≠ .poll now) : op.deliveries k o = [] := by
    by_contra hne
    obtain ⟨now, -, -, rfl, -⟩ := exists_poll_of_deliveries hsends hne
    exact hpoll now rfl
  cases h with
  | nextId | nextToken | refused | passedOver | inFlight => exact .inr ⟨hnone nofun, .inl rfl⟩
  | elsewhere o hid hne =>
      refine .inr ⟨hnone ?_, .inl rfl⟩
      rintro now rfl
      cases hid
  | unknown | taken | cancelled => exact .inr ⟨hnone nofun, .inr quiet_none⟩
  | entered peer =>
      refine .inr ⟨rfl, .inr ?_⟩
      rintro t ⟨⟩ hpending
      cases hpending
  | sent msg t htimer => simp [Operation.sends] at hsends
  | @received msg c now t t' hawaits ht' =>
      -- a message that is credited ends the transaction, or it acknowledges the request
      refine .inr ⟨rfl, .inr ?_⟩
      rintro u ⟨⟩ hpending
      rcases Transaction.receive_cases ht' with ⟨-, rfl⟩ | ⟨-, -, timer, -, rfl⟩ | ⟨-, -, rfl⟩
      · cases hpending
      · rfl
      · cases hpending
  | polled now =>
      cases o with
      | none => exact .inr ⟨rfl, .inl rfl⟩
      | some t => exact .inl ⟨now, t, rfl, rfl, rfl⟩

/-- A request that is not sent again stays so, unless it is sent anew. -/
theorem Quiet.evolves (h : Quiet o) (hevolves : Evolves k op o o') (hsends : op.sends k = false) :
    Quiet o' := by
  rcases hevolves.polled_or_quiet hsends with ⟨now, t, -, rfl, rfl⟩ | ⟨-, rfl | hquiet⟩
  · rintro u ⟨⟩ hpending
    rcases Transaction.poll_cases now t with hsame | ⟨hbefore, ⟨timer, hmoved⟩ | hover⟩
    · rw [hsame] at hpending ⊢
      exact h t rfl hpending
    · rw [hmoved]
      exact h t rfl hbefore
    · rw [hover] at hpending
      cases hpending
  · exact h
  · exact hquiet

/-- **Nothing is delivered for a request that is not sent again**, in any run. -/
theorem deliveries_of_quiet (h : table.InOrder capacity) (hquiet : Quiet (table.get? k))
    (hops : ∀ op ∈ ops, op.sends k = false) (hrun : (table.run ops).value = .ok table') :
    deliveries k (table.run ops).trace = [] := by
  have hboth := run_deliveries (Q := fun _ sent o => sent = [] ∧ Quiet o)
    (fun past sent op o o' hop hevolves ⟨hsent, ho⟩ =>
      ⟨by rw [hsent, ho.deliveries_eq_nil (hops op hop), List.append_nil],
        ho.evolves hevolves (hops op hop)⟩)
    h [] [] ⟨rfl, hquiet⟩ hrun
  exact hboth.1

/-! ## What is sent again -/

/-- **The deliveries of a request fit its transaction.** They are copies of one packet, for one
peer, at least one of them and not more than attempts are made. As long as nothing has been
acknowledged there are as many as attempts that the timer has counted. -/
structure Delivered (con : Con) (peer : Endpoint) (packet : Bytes) (sent : List Delivery)
    (o : Option Transaction) : Prop where
  eq_replicate : sent = List.replicate sent.length (peer, packet)
  one_le : 1 ≤ sent.length
  le_attempts : sent.length ≤ con.attempts
  waiting : ∀ t ∈ o, t.isPending = true → t.acked = false → t.peer = peer ∧ t.packet = packet
    ∧ ∀ timer, t.retry? = some timer → timer.attempts.toNat = sent.length

theorem Delivered.of_quiet (h : Delivered con peer packet sent o) (ho' : Quiet o') :
    Delivered con peer packet sent o' where
  eq_replicate := h.eq_replicate
  one_le := h.one_le
  le_attempts := h.le_attempts
  waiting := by
    intro t ht hpending hacked
    rw [ho' t ht hpending] at hacked
    cases hacked

/-- **A request that is under way**, with the operations and the deliveries since it was sent. -/
structure Underway (con : Con) (k : MessageId) (request : Message) (start : Millis)
    (peer : Endpoint) (past : List Operation) (sent : List Delivery) (o : Option Transaction) :
    Prop where
  timed : ∀ t ∈ o, t.id = k ∧ t.Timed con request start past
  delivered : Delivered con peer { request with id := k }.encode sent o

/-- A timer that has not been started anew runs since the request was sent. -/
theorem Underway.running {t : Transaction}
    (h : Underway con k request start peer past sent (some t)) (hpending : t.isPending = true)
    (hacked : t.acked = false) :
    ∃ timer, t.retry? = some timer ∧ timer.Running con con.unacked start := by
  obtain ⟨-, timer, moment, strategy, since, htimer, hstarted, hrunning, -⟩ :=
    (h.timed t rfl).2 hpending
  rw [hacked] at hstarted
  cases hstarted with
  | sent => exact ⟨timer, htimer, hrunning⟩

/-- **A poll sends the packet again if the timer counts another attempt.** -/
theorem Underway.delivered_poll {t : Transaction}
    (h : Underway con k request start peer past sent (some t)) (hfits : con.Fits) (now : Millis) :
    Delivered con peer { request with id := k }.encode (sent ++ t.retransmission now)
      (some (t.poll now).value) := by
  by_cases hquiet : Quiet (some t)
  · have hsends : (Operation.poll now).sends k = false := rfl
    have hnone : t.retransmission now = [] := hquiet.deliveries_eq_nil hsends
    have hevolves : Evolves k (.poll now) (some t) (some (t.poll now).value) := .polled now (some t)
    rw [hnone, List.append_nil]
    exact h.delivered.of_quiet (hquiet.evolves hevolves hsends)
  · obtain ⟨hpending, hacked⟩ := pending_of_not_quiet hquiet
    obtain ⟨timer, htimer, hrunning⟩ := h.running hpending hacked
    obtain ⟨hpeer, hpacket, hattempts⟩ := h.delivered.waiting t rfl hpending hacked
    rw [Transaction.retransmission_pending hpending htimer]
    rcases hrunning.poll_cases hfits.1 now with
      ⟨hpoll, -⟩ | ⟨next, hpoll, hnext, hcount, -⟩ | ⟨hpoll, -, -⟩
    · rw [Transaction.poll_of_wait hpending htimer hpoll, if_neg (by simp [hpoll]),
        List.append_nil]
      exact h.delivered
    · -- one more delivery, and one more attempt that the timer has counted
      have hcopy : (t.peer, t.packet) = (peer, { request with id := k }.encode) :=
        Prod.ext hpeer hpacket
      rw [Transaction.poll_of_retry hpending htimer hpoll, if_pos ⟨hacked, by rw [hpoll]⟩, hcopy]
      have hlength : (sent ++ [(peer, { request with id := k }.encode)]).length
          = next.attempts.toNat := by
        rw [List.length_append, List.length_singleton, hcount, hattempts timer htimer]
      constructor
      · rw [List.length_append, List.length_singleton, List.replicate_succ',
          ← h.delivered.eq_replicate]
      · rw [hlength]
        exact hnext.one_le
      · rw [hlength]
        exact hnext.le_attempts
      · rintro u ⟨⟩ - -
        refine ⟨hpeer, hpacket, ?_⟩
        rintro timer' ⟨⟩
        exact hlength.symm
    · rw [Transaction.poll_of_giveUp hpending htimer hpoll, if_neg (by simp [hpoll]),
        List.append_nil]
      refine h.delivered.of_quiet ?_
      rintro u ⟨⟩ hpending
      cases hpending

/-- **One operation** keeps a request under way, unless it sends the request again. -/
theorem Underway.step (h : Underway con k request start peer past sent o)
    (hevolves : Evolves k op o o') (hunder : op.Under con) (hsends : op.sends k = false)
    (hfits : con.Fits) :
    Underway con k request start peer (past ++ [op]) (sent ++ op.deliveries k o) o' where
  timed := hevolves.timed hunder hsends hfits h.timed
  delivered := by
    rcases hevolves.polled_or_quiet hsends with ⟨now, t, rfl, rfl, rfl⟩ | ⟨hnone, rfl | hquiet⟩
    · exact h.delivered_poll hfits now
    · rw [hnone, List.append_nil]
      exact h.delivered
    · rw [hnone, List.append_nil]
      exact h.delivered.of_quiet hquiet

/-- **A request is under way after every run** since it was sent. -/
theorem underway_run {t : Transaction} (h : table.InOrder capacity) (ht : table.get? k = some t)
    (hfits : con.Fits) (hops : ∀ op ∈ ops, op.Under con ∧ op.sends k = false)
    (hrun : (table.run (.send k request con start :: ops)).value = .ok table') :
    Underway con k request start t.peer ops
      (deliveries k (table.run (.send k request con start :: ops)).trace)
      (table'.get? k) := by
  obtain ⟨next, hnext, hrest⟩ := run_cons hrun
  have hsent : Underway con k request start t.peer []
      (Operation.deliveries k (.send k request con start) (table.get? k)) (next.get? k) := by
    have hdeliveries : Operation.deliveries k (.send k request con start) (some t)
        = [(t.peer, { request with id := k }.encode)] := if_pos rfl
    obtain ⟨timer, htimer, hget⟩ := get?_step_send hnext ht
    obtain ⟨-, hone⟩ := RetryTimer.running_new htimer
    rw [ht, hdeliveries, hget]
    constructor
    · rintro v ⟨⟩
      exact ⟨(mem_live_of_get? ht).2, Transaction.timed_sent htimer⟩
    · refine ⟨rfl, Nat.le_refl 1, con.one_le_attempts, ?_⟩
      rintro v ⟨⟩ - -
      refine ⟨rfl, rfl, ?_⟩
      rintro timer' ⟨⟩
      exact hone
  rw [deliveries_run_cons h hnext]
  refine run_deliveries (Q := Underway con k request start t.peer)
    ?_ (h.step hnext) [] _ hsent hrest
  intro past sent op o o' hop hevolves hunderway
  exact hunderway.step hevolves (hops op hop).1 (hops op hop).2 hfits

/-! ## When it is sent again, and when it is given up -/

/-- **A packet is sent again by a poll**, when the delays of all attempts so far are over. -/
theorem Underway.retransmitted {init : Millis}
    (h : Underway con k request start peer past sent o) (hfits : con.Fits)
    (hinit : con.unacked.drawDelay start = .ok init) (hsends : op.sends k = false)
    (hne : op.deliveries k o ≠ []) :
    ∃ now, op = .poll now
      ∧ con.unacked.growth.delay init.toNat sent.length ≤ now.toNat - start.toNat := by
  obtain ⟨now, t, timer, rfl, rfl, hpending, hacked, htimer, hdue⟩ :=
    exists_poll_of_deliveries hsends hne
  obtain ⟨timer', htimer', hrunning⟩ := h.running hpending hacked
  obtain rfl : timer = timer' := Option.some.inj (htimer.symm.trans htimer')
  obtain ⟨-, -, hattempts⟩ := h.delivered.waiting t rfl hpending hacked
  refine ⟨now, rfl, ?_⟩
  -- the timer has counted as many attempts as there were deliveries, and it is ready
  have hpassed : timer.delay timer.attempts.toNat ≤ now.toNat - start.toNat := by
    rcases hrunning.poll_cases hfits.1 now with ⟨hpoll, -⟩ | ⟨_, -, -, -, hpassed⟩ | ⟨hpoll, -, -⟩
    · rw [hpoll] at hdue
      cases hdue
    · exact hpassed
    · rw [hpoll] at hdue
      cases hdue
  obtain ⟨drawn, hdrawn, heq⟩ := hrunning.exists_new
  rw [hinit] at hdrawn
  obtain rfl := Except.ok.inj hdrawn
  rw [hattempts timer htimer, heq] at hpassed
  exact hpassed

/-- An empty acknowledgement that is credited to a request silences it. -/
theorem quiet_of_acknowledged {ack : Message} {now : Millis} (hd : table'.Distinct)
    (h : (table.onResponse ack con now).value = .ok (some k, table')) (hkind : ack.kind = .ack)
    (hcode : ack.code.isEmpty = true) : Quiet (table'.get? k) := by
  rcases onResponse_cases h with
    ⟨hanswer, -, -⟩ | ⟨t, t', front, back, hanswer, -, ht', -, -, hlive'⟩
  · cases hanswer
  · have hid : t'.id = k := (Transaction.id_receive ht').trans (Option.some.inj hanswer).symm
    have hget : table'.get? k = some t' :=
      hd.get?_eq_some_iff.2 ⟨by simp [hlive'], hid⟩
    rw [hget]
    rintro u ⟨⟩ -
    rcases Transaction.receive_cases ht' with ⟨hreset, -⟩ | ⟨-, -, timer, -, rfl⟩ | ⟨-, hnot, -⟩
    · rw [hkind] at hreset
      cases hreset
    · rfl
    · exact absurd ⟨hkind, hcode⟩ hnot

/-- **A request is given up by a poll** only when its timer has counted all attempts, and their
delays are over since the timer was started. -/
theorem Underway.givenUp {t : Transaction} {now : Millis}
    (h : Underway con k request start peer past sent (some t)) (hfits : con.Fits)
    (hpending : t.isPending = true) (hover : (t.poll now).value.isPending = false) :
    (t.poll now).value = t.complete none
      ∧ ∃ timer moment strategy since, t.retry? = some timer
        ∧ StartedBy con k request start past t.acked moment strategy since
        ∧ timer.Running con strategy moment ∧ timer.attempts.toNat = con.attempts
        ∧ timer.delay con.attempts ≤ now.toNat - moment.toNat := by
  obtain ⟨rfl, htimed⟩ := h.timed t rfl
  obtain ⟨-, timer, moment, strategy, since, htimer, hstarted, hrunning, -⟩ := htimed hpending
  rcases hrunning.poll_cases (hstarted.longest_lt hfits) now with
    ⟨hpoll, -⟩ | ⟨next, hpoll, -⟩ | ⟨hpoll, hall, hpassed⟩
  · rw [Transaction.poll_of_wait hpending htimer hpoll, hpending] at hover
    cases hover
  · rw [Transaction.poll_of_retry hpending htimer hpoll] at hover
    exact absurd hpending (Bool.eq_false_iff.1 hover)
  · exact ⟨Transaction.poll_of_giveUp hpending htimer hpoll,
      timer, moment, strategy, since, htimer, hstarted, hrunning, hall, hpassed⟩

/-! ## Main result -/

/-- **What an operation may do to a request that was sent**, after the operations `first` and
`count` deliveries, if it makes the table `next` of the table `reached` and the operations `rest`
follow. -/
structure Paced (con : Con) (k : MessageId) (request : Message) (start init : Millis)
    (first rest : List Operation) (count : Nat) (op : Operation)
    (reached next : TransactionTable) : Prop where
  /-- It delivers the packet again as a poll only, and not before the delays of as many attempts
  are over as there were deliveries. -/
  resent : deliveries k (reached.step op).trace ≠ [] →
    ∃ now, op = .poll now ∧ con.unacked.growth.delay init.toNat count ≤ now.toNat - start.toNat
  /-- If it is an empty acknowledgement that is credited to the request, nothing is delivered
  later. -/
  silenced : ∀ ack now, op = .receive ack con now → ack.kind = .ack → ack.code.isEmpty = true →
    (reached.onResponse ack con now).value = .ok (some k, next) →
      deliveries k (next.run rest).trace = []
  /-- If it is a poll that ends the transaction, that is over without a response. Its timer has
  counted all attempts, and their delays are over since it was started last. -/
  givenUp : ∀ now t, op = .poll now → reached.get? k = some t → t.isPending = true →
    (∀ u ∈ next.get? k, u.isPending = false) →
      next.get? k = some (t.complete none)
        ∧ ∃ timer moment strategy later, t.retry? = some timer
          ∧ StartedBy con k request start first t.acked moment strategy later
          ∧ timer.Running con strategy moment ∧ timer.attempts.toNat = con.attempts
          ∧ timer.delay con.attempts ≤ now.toNat - moment.toNat

/-- **The deliveries of a request since it was sent.** Let a request be sent through a table that is
reached from an empty one, let any operations follow that do not send it again, and let all timers
be started by one configuration, whose strategies can be drawn from and whose delays fit. Then the
run goes through, and the packet of the request is delivered to its peer at least once and not more
often than attempts are made, always with the same bytes. Each operation of the run keeps to what
`Paced` says. -/
theorem deliveries_since_send {seed : UInt64} {before since : List Operation} {t : Transaction}
    (hcon : con.Valid) (hfits : con.Fits)
    (hbefore : ((new capacity seed).run before).value = .ok table) (ht : table.get? k = some t)
    (hsince : ∀ op ∈ since, op.Under con ∧ op.sends k = false) (request : Message)
    (start : Millis) :
    ∃ init n table', con.unacked.drawDelay start = .ok init
      ∧ (table.run (.send k request con start :: since)).value = .ok table'
      ∧ deliveries k (table.run (.send k request con start :: since)).trace
        = List.replicate n (t.peer, { request with id := k }.encode)
      ∧ 1 ≤ n ∧ n ≤ con.attempts
      ∧ ∀ first op rest, since = first ++ op :: rest →
        ∃ reached next, (table.run (.send k request con start :: first)).value = .ok reached
          ∧ (reached.step op).value = .ok next
          ∧ Paced con k request start init first rest
            (deliveries k (table.run (.send k request con start :: first)).trace).length
            op reached next := by
  have hinOrder : table.InOrder capacity := (inOrder_new capacity seed).run hbefore
  obtain ⟨init, hinit⟩ := (con.unacked.exists_drawDelay_iff start).2 hcon.1
  obtain ⟨table', hrun⟩ := exists_run_since hcon hsince table request start
  have hdelivered := (underway_run hinOrder ht hfits hsince hrun).delivered
  refine ⟨init, _, table', hinit, hrun, hdelivered.eq_replicate, hdelivered.one_le,
    hdelivered.le_attempts, ?_⟩
  rintro first op rest rfl
  obtain ⟨hfirst, hlater⟩ := List.forall_mem_append.1 hsince
  obtain ⟨⟨hunder, hsends⟩, hrest⟩ := List.forall_mem_cons.1 hlater
  obtain ⟨reached, hreached⟩ := exists_run_since hcon hfirst table request start
  obtain ⟨next, hnext⟩ := exists_step (hunder.valid hcon) reached
  have hunderway := underway_run hinOrder ht hfits hfirst hreached
  have hinOrder' : reached.InOrder capacity := hinOrder.run hreached
  have hinOrder'' : next.InOrder capacity := hinOrder'.step hnext
  refine ⟨reached, next, hreached, hnext, ?_, ?_, ?_⟩
  · intro hne
    rw [deliveries_step hinOrder' hnext] at hne
    exact hunderway.retransmitted hfits hinit hsends hne
  · rintro ack now rfl hkind hcode hcredited
    have hquiet := quiet_of_acknowledged hinOrder''.wellFormed.distinct hcredited hkind hcode
    obtain ⟨final, hfinal⟩ := exists_run (fun op hop => (hrest op hop).1.valid hcon) next
    exact deliveries_of_quiet hinOrder'' hquiet (fun op hop => (hrest op hop).2) hfinal
  · rintro now u rfl hu hpending hover
    have hget : next.get? k = some (u.poll now).value := by
      obtain rfl := Except.ok.inj hnext
      exact (get?_pollRetransmit reached now k).trans (by rw [hu]; rfl)
    rw [hu] at hunderway
    obtain ⟨hcomplete, htimer⟩ := hunderway.givenUp hfits hpending (hover _ hget)
    exact ⟨hget.trans (congrArg some hcomplete), htimer⟩

/-- Two requests are entered, and one of them is sent. -/
def sampleEntered : List Operation :=
  [.allocate 1 samplePeer, .allocate 2 samplePeer, .send 2 (sampleRequest 9) sampleCon 0]

/-- The other one is sent after that, and sent again once; then it is acknowledged, and in the end
it is given up. -/
def samplePolled : List Operation :=
  [.poll 60, .poll 150, .receive (Message.blank .ack 1) sampleCon 160, .poll 1200, .poll 2200,
    .poll 3200]

/-- The table after the first run. -/
def enteredTable : TransactionTable :=
  match ((new 2 0).run sampleEntered).value with
  | .ok table => table
  | .error _ => new 2 0

theorem deliveries_since_sampleSend :
    sampleCon.Valid ∧ sampleCon.Fits ∧ ((new 2 0).run sampleEntered).value = .ok enteredTable
      ∧ enteredTable.get? 1 = some (.new 1 samplePeer)
      ∧ (∀ op ∈ samplePolled, op.Under sampleCon ∧ op.sends 1 = false)
      ∧ ∃ init n table', sampleCon.unacked.drawDelay 50 = .ok init
        ∧ (enteredTable.run (.send 1 (sampleRequest 7) sampleCon 50 :: samplePolled)).value
          = .ok table'
        ∧ deliveries 1
            (enteredTable.run (.send 1 (sampleRequest 7) sampleCon 50 :: samplePolled)).trace
          = List.replicate n (samplePeer, { sampleRequest 7 with id := 1 }.encode)
        ∧ 1 ≤ n ∧ n ≤ sampleCon.attempts
        ∧ ∀ first op rest, samplePolled = first ++ op :: rest →
          ∃ reached next,
            (enteredTable.run (.send 1 (sampleRequest 7) sampleCon 50 :: first)).value = .ok reached
            ∧ (reached.step op).value = .ok next
            ∧ Paced sampleCon 1 (sampleRequest 7) 50 init first rest
              (deliveries 1
                (enteredTable.run (.send 1 (sampleRequest 7) sampleCon 50 :: first)).trace).length
              op reached next :=
  have hcon : sampleCon.Valid := by decide
  have hfits : sampleCon.Fits := by decide
  have hrun : ((new 2 0).run sampleEntered).value = .ok enteredTable := rfl
  have hget : enteredTable.get? 1 = some (.new 1 samplePeer) := rfl
  have hsince : ∀ op ∈ samplePolled, op.Under sampleCon ∧ op.sends 1 = false := by decide
  ⟨hcon, hfits, hrun, hget, hsince,
    deliveries_since_send hcon hfits hrun hget hsince (sampleRequest 7) 50⟩

end CoapNode.TransactionTable
