import CoapNode.Proofs.Transaction.Consistency
import CoapNode.Proofs.Transaction.Timing

set_option autoImplicit false

/-! # How long a transaction stays open

A transaction is over after as many polls as attempts are made, if these come after the longest time
that its strategy can take since its timer was started last (`pending_since_last_start`). As long as
the request is not acknowledged this is the longest time from the send, which is not more than
`Con.maxTransmitWait`. But an empty acknowledgement starts the timer anew, by the other strategy,
whereas `Con.maxTransmitWait` is the longer one of the two times and not their sum; so a transaction
may stay open beyond it (`pending_after_maxTransmitWait`).
-/

namespace CoapNode

/-! ## The longest times -/

theorem Con.longest_unacked_le {con : Con} (hfits : con.Fits) (hone : 1 ≤ con.maxAttempts) :
    con.longest con.unacked ≤ con.maxTransmitWait.toNat := by
  have hmax : con.unacked.maxTime con.maxAttempts ≤ con.maxTransmitWait := by
    show _ ≤ if _ ≤ _ then _ else _
    split
    · assumption
    · exact UInt64.le_refl _
  rw [longest_eq_maxTime hfits.1 hone]
  exact UInt64.le_iff_toNat_le.1 hmax

namespace TransactionTable

variable {con : Con} {k : MessageId} {request : Message} {start : Millis}
  {ops since : List Operation} {table table' : TransactionTable} {t : Transaction}

/-! ## A pending transaction -/

/-- **The timer of a transaction is explained after every run** since its request was sent. -/
theorem timed_run (hd : table.Distinct) (ht : table.get? k = some t)
    (hfits : con.Fits) (hops : ∀ op ∈ ops, op.Under con ∧ op.sends k = false)
    (hrun : (table.run (.send k request con start :: ops)).value = .ok table') :
    ∀ u ∈ table'.get? k, u.id = k ∧ u.Timed con request start ops := by
  obtain ⟨next, hnext, hrest⟩ := run_cons hrun
  have hsent : ∀ u ∈ next.get? k, u.id = k ∧ u.Timed con request start [] := by
    obtain ⟨timer, htimer, hget⟩ := get?_step_send hnext ht
    rw [hget]
    rintro u ⟨⟩
    exact ⟨(mem_live_of_get? ht).2, Transaction.timed_sent htimer⟩
  refine run_evolves (Q := fun past o => ∀ u ∈ o, u.id = k ∧ u.Timed con request start past)
    ?_ (hd.step hnext) [] hsent hrest
  intro past op o o' hop hevolves ho
  exact hevolves.timed (hops op hop).1 (hops op hop).2 hfits ho

/-- While a transaction is pending there were fewer late polls than attempts are made. -/
theorem exists_startedBy (ht : t.Timed con request start since) (hpending : t.isPending = true) :
    ∃ moment strategy later, StartedBy con t.id request start since t.acked moment strategy later
      ∧ later.countP (Operation.pollsFrom (moment.toNat + con.longest strategy))
        < con.attempts := by
  obtain ⟨-, timer, moment, strategy, later, -, hstarted, hrunning, hcount⟩ := ht hpending
  exact ⟨moment, strategy, later, hstarted, Nat.lt_of_lt_of_le hcount hrunning.le_attempts⟩

theorem countP_pollsFrom_le {moment moment' : Nat} (h : moment ≤ moment') (ops : List Operation) :
    ops.countP (Operation.pollsFrom moment') ≤ ops.countP (Operation.pollsFrom moment) := by
  refine List.countP_mono_left fun op _ hop => ?_
  cases op with
  | poll now => exact decide_eq_true (Nat.le_trans h (of_decide_eq_true hop))
  | _ => cases hop

/-- The time at which an operation is called, if it is called with one. -/
def Operation.time? : Operation → Option Millis
  | .send _ _ _ now => some now
  | .receive _ _ now => some now
  | .poll now => some now
  | _ => none

/-! ## Main result -/

/-- **When a transaction is over.** Let a request be sent, let any operations follow that do not
send it again, and let all timers be started by one configuration, whose strategies can be drawn
from and whose delays fit. Then the run goes through. If the transaction is pending afterwards,
fewer polls than attempts that are made came at the longest time of its strategy or later, counted
from where its timer was started last, by the send or by an empty acknowledgement. So if no empty
acknowledgement of the request came in, the transaction is over after that number of polls
at `Con.maxTransmitWait` after the send or later, provided that there is an attempt to make. -/
theorem pending_since_last_start (hcon : con.Valid) (hfits : con.Fits) (hd : table.Distinct)
    (ht : table.get? k = some t) (hsince : ∀ op ∈ since, op.Under con ∧ op.sends k = false)
    (request : Message) (start : Millis) :
    ∃ table', (table.run (.send k request con start :: since)).value = .ok table'
      ∧ (∀ u, table'.get? k = some u → u.isPending = true →
          ∃ moment strategy later, StartedBy con k request start since u.acked moment strategy later
            ∧ later.countP (Operation.pollsFrom (moment.toNat + con.longest strategy))
              < con.attempts)
      ∧ (1 ≤ con.maxAttempts →
          (∀ ack now, .receive ack con now ∈ since → ¬Acknowledges k request ack) →
          con.attempts
            ≤ since.countP (Operation.pollsFrom (start.toNat + con.maxTransmitWait.toNat)) →
          ∀ u ∈ table'.get? k, u.isPending = false) := by
  obtain ⟨table', hrun⟩ := exists_run_since hcon hsince table request start
  have htimed := timed_run hd ht hfits hsince hrun
  have hbound : ∀ u, table'.get? k = some u → u.isPending = true →
      ∃ moment strategy later, StartedBy con k request start since u.acked moment strategy later
        ∧ later.countP (Operation.pollsFrom (moment.toNat + con.longest strategy))
          < con.attempts := by
    intro u hu hpending
    obtain ⟨rfl, hu'⟩ := htimed u hu
    exact exists_startedBy hu' hpending
  refine ⟨table', hrun, hbound, ?_⟩
  intro hone hnone hlate u hu
  by_contra hpending
  rw [Bool.not_eq_false] at hpending
  obtain ⟨moment, strategy, later, hstarted, hcount⟩ := hbound u hu hpending
  generalize u.acked = acked at hstarted
  cases hstarted with
  | sent =>
      -- all operations came after the send, so the late polls among them are too many
      have hwait := Nat.add_le_add_left (con.longest_unacked_le hfits hone) start.toNat
      have hmany : con.attempts
          ≤ since.countP (Operation.pollsFrom (start.toNat + con.longest con.unacked)) :=
        calc con.attempts
            ≤ since.countP (Operation.pollsFrom (start.toNat + con.maxTransmitWait.toNat)) := hlate
          _ ≤ since.countP (Operation.pollsFrom (start.toNat + con.longest con.unacked)) :=
            countP_pollsFrom_le hwait since
      exact absurd hcount (Nat.not_lt.2 hmany)
  | @acknowledged before later ack moment hack hpast =>
      exact hnone ack moment (by simp [hpast]) hack

/-- A run in which a request is sent, sent again twice, acknowledged, and polled once more after
each delay of the other strategy; then it is polled three times at `Con.maxTransmitWait` and
later. -/
def sampleLate : List Operation :=
  [.poll 100, .poll 200, .receive (Message.blank .ack 1) sampleCon 290, .poll 1290, .poll 2290,
    .poll 3000, .poll 3100, .poll 3200]

/-- A table with one request that has not been sent. -/
def openedTable : TransactionTable :=
  match ((new 1 0).run [.allocate 1 samplePeer]).value with
  | .ok table => table
  | .error _ => new 1 0

/-- A transaction that stays open beyond `Con.maxTransmitWait`. -/
theorem pending_after_maxTransmitWait :
    sampleCon.Valid ∧ sampleCon.Fits
      ∧ ((new 1 0).run [.allocate 1 samplePeer]).value = .ok openedTable
      ∧ openedTable.get? 1 = some (.new 1 samplePeer)
      ∧ (∀ op ∈ sampleLate, op.Under sampleCon ∧ op.sends 1 = false)
      ∧ (sampleLate.filterMap Operation.time?).Pairwise (· ≤ ·)
      ∧ sampleCon.attempts
        ≤ sampleLate.countP (Operation.pollsFrom (0 + sampleCon.maxTransmitWait.toNat))
      ∧ ∃ table' t,
        (openedTable.run (.send 1 (sampleRequest 7) sampleCon 0 :: sampleLate)).value = .ok table'
        ∧ table'.get? 1 = some t ∧ t.isPending = true :=
  ⟨by decide, by decide, rfl, rfl, by decide, by decide, by decide, _, _, rfl, rfl, rfl⟩

theorem pending_since_sampleStart :
    sampleCon.Valid ∧ sampleCon.Fits ∧ openedTable.Distinct
      ∧ openedTable.get? 1 = some (.new 1 samplePeer)
      ∧ (∀ op ∈ sampleLate, op.Under sampleCon ∧ op.sends 1 = false)
      ∧ ∃ table',
        (openedTable.run (.send 1 (sampleRequest 7) sampleCon 0 :: sampleLate)).value = .ok table'
        ∧ (∀ u, table'.get? 1 = some u → u.isPending = true →
            ∃ moment strategy later,
              StartedBy sampleCon 1 (sampleRequest 7) 0 sampleLate u.acked moment strategy later
              ∧ later.countP (Operation.pollsFrom (moment.toNat + sampleCon.longest strategy))
                < sampleCon.attempts)
        ∧ (1 ≤ sampleCon.maxAttempts →
            (∀ ack now, .receive ack sampleCon now ∈ sampleLate →
              ¬Acknowledges 1 (sampleRequest 7) ack) →
            sampleCon.attempts
              ≤ sampleLate.countP (Operation.pollsFrom (0 + sampleCon.maxTransmitWait.toNat)) →
            ∀ u ∈ table'.get? 1, u.isPending = false) :=
  have hcon : sampleCon.Valid := by decide
  have hfits : sampleCon.Fits := by decide
  have hd : openedTable.Distinct := by decide +kernel
  have hget : openedTable.get? 1 = some (.new 1 samplePeer) := rfl
  have hsince : ∀ op ∈ sampleLate, op.Under sampleCon ∧ op.sends 1 = false := by decide
  ⟨hcon, hfits, hd, hget, hsince,
    pending_since_last_start hcon hfits hd hget hsince (sampleRequest 7) 0⟩

end TransactionTable

end CoapNode
