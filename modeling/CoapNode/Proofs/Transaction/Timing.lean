import CoapNode.Proofs.Time.Delay
import CoapNode.Proofs.Transaction.Run

set_option autoImplicit false

/-! # What the timer of a pending transaction has seen

The timer of a transaction is started when the request is sent, and started anew by every empty
acknowledgement that is credited to it (`StartedBy`). From then on it runs: apart from its attempts
nothing about it changes, and each poll that comes after the longest time its strategy can take
counts as an attempt or ends the transaction. So the attempts that are counted outnumber those polls
(`Transaction.Timed`), in every run since the request was sent (`Evolves.timed`).

All operations of such a run start their timers by one configuration (`Operation.Under`).
-/

namespace CoapNode

/-! ## One transaction -/

namespace Transaction

variable {t : Transaction} {timer next : RetryTimer} {now : Millis}

theorem poll_of_wait (hpending : t.isPending = true) (htimer : t.retry? = some timer)
    (hpoll : timer.poll now = (.wait, next)) : (t.poll now).value = t := by
  simp only [poll, isPending_iff.1 hpending, htimer, hpoll, Traced.value_pure]

theorem poll_of_retry (hpending : t.isPending = true) (htimer : t.retry? = some timer)
    (hpoll : timer.poll now = (.retry, next)) :
    (t.poll now).value = { t with retry? := some next } := by
  simp only [poll, isPending_iff.1 hpending, htimer, hpoll]
  cases t.acked <;> rfl

theorem poll_of_giveUp (hpending : t.isPending = true) (htimer : t.retry? = some timer)
    (hpoll : timer.poll now = (.giveUp, next)) : (t.poll now).value = t.complete none := by
  simp only [poll, isPending_iff.1 hpending, htimer, hpoll, Traced.value_bind, Traced.value_pure]

end Transaction

namespace TransactionTable

/-! ## The operations since a timer was started -/

namespace Operation

/-- The timers that the operation starts are started by a configuration. -/
def Under (con : Con) : Operation → Prop
  | .send _ _ c _ => c = con
  | .receive _ c _ => c = con
  | _ => True

instance (con : Con) : DecidablePred (Under con)
  | .send _ _ c _ => inferInstanceAs (Decidable (c = con))
  | .receive _ c _ => inferInstanceAs (Decidable (c = con))
  | .nextId | .nextToken | .allocate .. | .poll _ | .take _ | .cancel _ => .isTrue trivial

/-- Is it a poll at a moment or later? -/
def pollsFrom (moment : Nat) : Operation → Bool
  | .poll now => moment ≤ now.toNat
  | _ => false

theorem Under.valid {con : Con} {op : Operation} (h : op.Under con) (hcon : con.Valid) :
    op.Valid := by
  cases op with
  | send id msg c now =>
      obtain rfl : c = con := h
      exact hcon
  | receive msg c now =>
      obtain rfl : c = con := h
      exact hcon
  | _ => trivial

end Operation

/-- **An empty acknowledgement of a request** that was sent with an id: it carries no code, and it
answers to the id or to the token. -/
structure Acknowledges (k : MessageId) (request ack : Message) : Prop where
  kind : ack.kind = .ack
  code : ack.code.isEmpty = true
  matched : ack.id = k ∨ ack.token.isEmpty = false ∧ ack.token = request.token

/-- **How the timer of a request was started last**, depending on whether the request has been
acknowledged: at which moment, by which strategy, and which operations came after that. -/
inductive StartedBy (con : Con) (k : MessageId) (request : Message) (start : Millis)
    (past : List Operation) : Bool → Millis → RetryStrategy → List Operation → Prop where
  /-- It was started when the request was sent. -/
  | sent : StartedBy con k request start past false start con.unacked past
  /-- It was started by an empty acknowledgement. -/
  | acknowledged {before since : List Operation} {ack : Message} {now : Millis}
      (hack : Acknowledges k request ack)
      (hpast : past = before ++ .receive ack con now :: since) :
      StartedBy con k request start past true now con.acked since

variable {con : Con} {k : MessageId} {request : Message} {start moment : Millis}
  {past since : List Operation} {op : Operation} {acked : Bool} {strategy : RetryStrategy}
  {o o' : Option Transaction}

theorem StartedBy.concat (h : StartedBy con k request start past acked moment strategy since)
    (op : Operation) :
    StartedBy con k request start (past ++ [op]) acked moment strategy (since ++ [op]) := by
  cases h with
  | sent => exact .sent
  | @acknowledged before since ack moment hack hpast =>
      have hpast' : past ++ [op] = before ++ .receive ack con moment :: (since ++ [op]) := by
        rw [hpast, List.append_assoc, List.cons_append]
      exact .acknowledged hack hpast'

theorem StartedBy.longest_lt (h : StartedBy con k request start past acked moment strategy since)
    (hfits : con.Fits) : con.longest strategy < 2 ^ 64 := by
  cases h with
  | sent => exact hfits.1
  | acknowledged => exact hfits.2

end TransactionTable

open TransactionTable

/-! ## The invariant -/

/-- **The timer of a pending transaction is explained by the operations since its request was
sent.** It runs since it was started last, and it has counted more attempts than there were polls
after the longest time that its strategy can take. -/
def Transaction.Timed (con : Con) (request : Message) (start : Millis) (past : List Operation)
    (t : Transaction) : Prop :=
  t.isPending = true → t.token? = some request.token
    ∧ ∃ timer moment strategy since, t.retry? = some timer
      ∧ StartedBy con t.id request start past t.acked moment strategy since
      ∧ timer.Running con strategy moment
      ∧ since.countP (Operation.pollsFrom (moment.toNat + con.longest strategy))
        < timer.attempts.toNat

namespace Transaction

variable {con : Con} {request : Message} {start now : Millis} {past : List Operation}
  {op : Operation} {t t' : Transaction} {msg : Message}

theorem timed_of_not_isPending (h : t.isPending = false) : t.Timed con request start past := by
  intro hpending
  rw [h] at hpending
  cases hpending

/-- Sending a request starts its timer. -/
theorem timed_sent {timer : RetryTimer} {packet : Bytes}
    (h : RetryTimer.new start con.unacked con.maxAttempts = .ok timer) :
    (t.sent request.token packet timer).Timed con request start [] := by
  intro _
  obtain ⟨hrunning, hone⟩ := RetryTimer.running_new h
  refine ⟨rfl, timer, start, con.unacked, [], rfl, .sent, hrunning, ?_⟩
  rw [hone]
  exact Nat.one_pos

/-- Whatever is not a poll that comes late leaves the explanation in place. -/
theorem Timed.concat (h : t.Timed con request start past)
    (hop : ∀ moment, op.pollsFrom moment = false) : t.Timed con request start (past ++ [op]) := by
  intro hpending
  obtain ⟨htoken, timer, moment, strategy, since, htimer, hstarted, hrunning, hcount⟩ := h hpending
  refine ⟨htoken, timer, moment, strategy, since ++ [op], htimer, hstarted.concat op, hrunning, ?_⟩
  rw [List.countP_append, List.countP_singleton, hop]
  exact hcount

/-- **A message starts the timer anew**, if it leaves the transaction pending. -/
theorem Timed.receive (h : t.Timed con request start past) (hawaits : t.awaits msg = true)
    (ht' : (t.receive msg con now).value = .ok t') :
    t'.Timed con request start (past ++ [.receive msg con now]) := by
  obtain ⟨htoken, -⟩ := h (isPending_of_awaits hawaits)
  rcases receive_cases ht' with ⟨-, rfl⟩ | ⟨hkind, hcode, timer, htimer, rfl⟩ | ⟨-, -, rfl⟩
  · exact timed_of_not_isPending rfl
  · have hmatched : msg.id = t.id ∨ msg.token.isEmpty = false ∧ msg.token = request.token := by
      rcases answeredBy_iff.1 (answeredBy_of_awaits hawaits) with ⟨-, hid⟩ | ⟨hne, heq⟩
      · exact .inl hid
      · rw [htoken] at heq
        exact .inr ⟨hne, (Option.some.inj heq).symm⟩
    -- nothing has come after the acknowledgement yet
    intro _
    obtain ⟨hrunning, hone⟩ := RetryTimer.running_new htimer
    refine ⟨htoken, timer, now, con.acked, [], rfl, .acknowledged ⟨hkind, hcode, hmatched⟩ rfl,
      hrunning, ?_⟩
    rw [hone]
    exact Nat.one_pos
  · exact timed_of_not_isPending rfl

/-- **A poll that comes late counts as an attempt**, if it leaves the transaction pending. -/
theorem Timed.poll (h : t.Timed con request start past) (hfits : con.Fits) (now : Millis) :
    (t.poll now).value.Timed con request start (past ++ [.poll now]) := by
  cases hpending : t.isPending with
  | false =>
      rw [poll_of_not_isPending hpending]
      exact timed_of_not_isPending hpending
  | true =>
      obtain ⟨htoken, timer, moment, strategy, since, htimer, hstarted, hrunning, hcount⟩ :=
        h hpending
      have hfits' := hstarted.longest_lt hfits
      rcases hrunning.poll_cases hfits' now with
        ⟨hpoll, hearly⟩ | ⟨next, hpoll, hnext, hattempts, -⟩ | ⟨hpoll, -, -⟩
      · -- a poll at which the timer still waits has not come late
        rw [poll_of_wait hpending htimer hpoll]
        have hlate :
            Operation.pollsFrom (moment.toNat + con.longest strategy) (.poll now) = false := by
          have hle := hrunning.delay_le_longest hrunning.le_attempts
          rw [Operation.pollsFrom, decide_eq_false_iff_not]
          omega
        intro _
        refine ⟨htoken, timer, moment, strategy, since ++ [.poll now], htimer, hstarted.concat _,
          hrunning, ?_⟩
        rw [List.countP_append, List.countP_singleton, hlate]
        exact hcount
      · -- there is one more attempt, and at most one more late poll
        rw [poll_of_retry hpending htimer hpoll]
        intro _
        refine ⟨htoken, next, moment, strategy, since ++ [.poll now], rfl, hstarted.concat _, hnext,
          ?_⟩
        rw [List.countP_append, List.countP_singleton, hattempts]
        split <;> omega
      · rw [poll_of_giveUp hpending htimer hpoll]
        exact timed_of_not_isPending rfl

end Transaction

namespace TransactionTable

variable {con : Con} {k : MessageId} {request : Message} {start : Millis} {past : List Operation}
  {op : Operation} {o o' : Option Transaction}

/-- Sending a request that was entered starts its timer. -/
theorem get?_step_send {table next : TransactionTable} {t : Transaction}
    (hstep : (table.step (.send k request con start)).value = .ok next)
    (ht : table.get? k = some t) :
    ∃ timer, RetryTimer.new start con.unacked con.maxAttempts = .ok timer
      ∧ next.get? k = some (t.sent request.token { request with id := k }.encode timer) := by
  rcases step_send hstep with ⟨hnone, -⟩ | hsend
  · rw [ht] at hnone
    cases hnone
  · obtain ⟨u, timer, hu, htimer, hget⟩ := get?_send hsend
    rw [ht] at hu
    obtain rfl := Option.some.inj hu
    exact ⟨timer, htimer, (hget k).trans (if_pos rfl)⟩

/-- What follows a send goes through, as long as all timers are started by one configuration. -/
theorem exists_run_since {since : List Operation} (hcon : con.Valid)
    (hsince : ∀ op ∈ since, op.Under con ∧ op.sends k = false) (table : TransactionTable)
    (request : Message) (start : Millis) :
    ∃ table', (table.run (.send k request con start :: since)).value = .ok table' := by
  refine exists_run ?_ table
  intro op hop
  rcases List.mem_cons.1 hop with rfl | hop
  · exact hcon
  · exact (hsince op hop).1.valid hcon

/-- **One operation** leaves the timer of the transaction with an id explained, unless it sends
the request again. -/
theorem Evolves.timed (h : Evolves k op o o') (hunder : op.Under con) (hsends : op.sends k = false)
    (hfits : con.Fits) (ho : ∀ t ∈ o, t.id = k ∧ t.Timed con request start past) :
    ∀ t ∈ o', t.id = k ∧ t.Timed con request start (past ++ [op]) := by
  -- an operation that is no poll leaves the explanation in place
  have hkeep (hop : ∀ moment, op.pollsFrom moment = false) :
      ∀ t ∈ o, t.id = k ∧ t.Timed con request start (past ++ [op]) := by
    intro t ht
    obtain ⟨hid, htimed⟩ := ho t ht
    exact ⟨hid, htimed.concat hop⟩
  cases h with
  | nextId | nextToken | refused | passedOver | inFlight => exact hkeep fun _ => rfl
  | unknown | taken | cancelled => rintro t ⟨⟩
  | elsewhere o hid hne =>
      refine hkeep fun _ => ?_
      cases op with
      | poll now => cases hid
      | _ => rfl
  | entered peer =>
      rintro t ⟨⟩
      exact ⟨rfl, Transaction.timed_of_not_isPending rfl⟩
  | sent msg t htimer => simp [Operation.sends] at hsends
  | @received msg c now t t' hawaits ht' =>
      obtain rfl : c = con := hunder
      obtain ⟨hid, htimed⟩ := ho t rfl
      rintro u ⟨⟩
      exact ⟨(Transaction.id_receive ht').trans hid, htimed.receive hawaits ht'⟩
  | polled now =>
      intro t' ht'
      obtain ⟨t, ht, rfl⟩ := Option.map_eq_some_iff.1 ht'
      obtain ⟨hid, htimed⟩ := ho t ht
      exact ⟨(Transaction.id_poll now t).trans hid, htimed.poll hfits now⟩

end TransactionTable

end CoapNode
