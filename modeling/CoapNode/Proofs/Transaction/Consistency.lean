import CoapNode.Proofs.Transaction.Run

set_option autoImplicit false

/-! # Every transaction is in a consistent state

The fields of a transaction are independent of each other; what ties them together is an invariant
(`Transaction.Consistent`): nothing but its id and its peer before it is sent, everything that
retransmitting takes while an answer is awaited, and neither a timer nor a packet once it is over.
Every operation keeps this (`Evolves.consistent`), so it holds of every transaction in the table
after any run (`run_consistent`).
-/

namespace CoapNode

/-- **What a transaction holds fits its status.** The packet of a pending transaction is a message
with the id of the transaction and with its token. -/
structure Transaction.Consistent (t : Transaction) : Prop where
  fresh : t.status = .fresh → t.token? = none ∧ t.retry? = none ∧ t.packet = [] ∧ t.acked = false
  pending : t.status = .pending → t.retry?.isSome = true
    ∧ ∃ msg : Message, msg.id = t.id ∧ t.token? = some msg.token ∧ t.packet = msg.encode
  complete : ∀ outcome, t.status = .complete outcome → t.retry? = none ∧ t.packet = []

namespace Transaction

variable {t t' : Transaction} {con : Con} {now : Millis}

theorem consistent_new (id : MessageId) (peer : Endpoint) : (new id peer).Consistent where
  fresh _ := ⟨rfl, rfl, rfl, rfl⟩
  pending := nofun
  complete := nofun

/-- Whatever a transaction held, it lets go of its timer and its packet when it is over. -/
theorem consistent_complete (t : Transaction) (outcome : Option Response) :
    (t.complete outcome).Consistent where
  fresh := nofun
  pending := nofun
  complete _ _ := ⟨rfl, rfl⟩

theorem consistent_sent (t : Transaction) (msg : Message) (timer : RetryTimer) :
    (t.sent msg.token { msg with id := t.id }.encode timer).Consistent where
  fresh := nofun
  pending _ := ⟨rfl, { msg with id := t.id }, rfl, rfl, rfl⟩
  complete := nofun

/-- A pending transaction may get another timer. -/
theorem Consistent.setTimer (h : t.Consistent) (hpending : t.isPending = true)
    (timer : RetryTimer) (acked : Bool) :
    { t with retry? := some timer, acked := acked }.Consistent where
  fresh hfresh := by
    rw [isPending_iff.1 hpending] at hfresh
    cases hfresh
  pending hstatus := ⟨rfl, (h.pending hstatus).2⟩
  complete outcome hcomplete := by
    rw [isPending_iff.1 hpending] at hcomplete
    cases hcomplete

/-- **A message** leaves a pending transaction consistent. -/
theorem Consistent.receive {msg : Message} (h : t.Consistent) (hpending : t.isPending = true)
    (ht' : (t.receive msg con now).value = .ok t') : t'.Consistent := by
  rcases receive_cases ht' with ⟨-, rfl⟩ | ⟨-, -, timer, -, rfl⟩ | ⟨-, -, rfl⟩
  · exact consistent_complete t none
  · exact h.setTimer hpending timer true
  · exact consistent_complete t _

/-- **A moment** leaves a transaction consistent. -/
theorem Consistent.poll (h : t.Consistent) (now : Millis) : (t.poll now).value.Consistent := by
  rcases poll_cases now t with hsame | ⟨hpending, ⟨timer, hmoved⟩ | hover⟩
  · rw [hsame]
    exact h
  · rw [hmoved]
    exact h.setTimer hpending timer t.acked
  · rw [hover]
    exact consistent_complete t none

/-- A pending transaction has a timer. -/
theorem Consistent.exists_timer (h : t.Consistent) (hpending : t.isPending = true) :
    ∃ timer, t.retry? = some timer :=
  Option.isSome_iff_exists.1 (h.pending (isPending_iff.1 hpending)).1

end Transaction

namespace TransactionTable

variable {op : Operation} {o o' : Option Transaction} {k : MessageId}

/-- **One operation** leaves the transaction with an id consistent. -/
theorem Evolves.consistent (h : Evolves k op o o')
    (ho : ∀ t ∈ o, t.id = k ∧ t.Consistent) : ∀ t ∈ o', t.id = k ∧ t.Consistent := by
  cases h with
  | nextId | nextToken | elsewhere | refused | unknown | passedOver | inFlight => exact ho
  | taken | cancelled => rintro t ⟨⟩
  | entered peer =>
      rintro t ⟨⟩
      exact ⟨rfl, Transaction.consistent_new k peer⟩
  | sent msg t htimer =>
      obtain ⟨rfl, -⟩ := ho t rfl
      rintro t' ⟨⟩
      exact ⟨rfl, t.consistent_sent msg _⟩
  | @received msg con now t t' hawaits ht' =>
      obtain ⟨hid, hconsistent⟩ := ho t rfl
      rintro u ⟨⟩
      exact ⟨(Transaction.id_receive ht').trans hid,
        hconsistent.receive (Transaction.isPending_of_awaits hawaits) ht'⟩
  | polled now =>
      intro t' ht'
      obtain ⟨t, ht, rfl⟩ := Option.map_eq_some_iff.1 ht'
      obtain ⟨hid, hconsistent⟩ := ho t ht
      exact ⟨(Transaction.id_poll now t).trans hid, hconsistent.poll now⟩

/-! ## Main result -/

/-- **The table is consistent after every run.** Starting from an empty table, with strategies
that can be drawn from, every run goes through. After it there are no more transactions than
places, no two of them have the same message id, and each of them is consistent. -/
theorem run_consistent (capacity : Nat) (seed : UInt64) (ops : List Operation)
    (hvalid : ∀ op ∈ ops, op.Valid) :
    ∃ table, ((new capacity seed).run ops).value = .ok table
      ∧ table.size ≤ capacity ∧ table.Distinct ∧ ∀ t ∈ table.live, t.Consistent := by
  obtain ⟨table, hrun⟩ := exists_run hvalid (new capacity seed)
  have hnew := wellFormed_new capacity seed
  have hw := hnew.run hrun
  refine ⟨table, hrun, hw.size_le, hw.distinct, fun t ht => ?_⟩
  have hget : table.get? t.id = some t := hw.distinct.get?_eq_some_iff.2 ⟨ht, rfl⟩
  exact (run_evolves (Q := fun _ o => ∀ u ∈ o, u.id = t.id ∧ u.Consistent)
    (fun _ _ _ _ _ h ho => h.consistent ho) hnew.distinct [] (by simp) hrun t hget).2

/-- The peer of the sample runs. -/
def samplePeer : Endpoint := ⟨⟨0, 0, 0, 0, 0, 0, 0, 1⟩, 5683, false⟩

/-- Delays that are not drawn at random. -/
def sampleCon : Con := ⟨⟨.constant, 100, 100⟩, ⟨.constant, 1000, 1000⟩, 3⟩

/-- A request with a token of one byte. -/
def sampleRequest (byte : UInt8) : Message :=
  { Message.blank .con 0 with code := ⟨0, 1⟩, token := ⟨[byte], by simp⟩ }

/-- A response to a sample request, in an acknowledgement. -/
def sampleResponse (id : MessageId) (byte : UInt8) : Message :=
  { Message.blank .ack id with code := .content, token := ⟨[byte], by simp⟩ }

/-- A run in which one transaction is answered and sent again, and the place of another one is
used a second time. -/
def sampleRun : List Operation :=
  [.allocate 1 samplePeer, .send 1 (sampleRequest 7) sampleCon 0, .allocate 2 samplePeer,
    .receive (sampleResponse 1 7) sampleCon 5, .send 1 (sampleRequest 8) sampleCon 10,
    .send 2 (sampleRequest 9) sampleCon 20, .receive (Message.blank .ack 1) sampleCon 30,
    .poll 150, .receive (Message.blank .reset 2) sampleCon 160, .take 2, .allocate 3 samplePeer]

theorem consistent_sampleRun : (∀ op ∈ sampleRun, op.Valid)
    ∧ ∃ table, ((new 2 0).run sampleRun).value = .ok table
      ∧ table.size ≤ 2 ∧ table.Distinct ∧ ∀ t ∈ table.live, t.Consistent :=
  ⟨by decide, run_consistent 2 0 sampleRun (by decide)⟩

end TransactionTable

end CoapNode
