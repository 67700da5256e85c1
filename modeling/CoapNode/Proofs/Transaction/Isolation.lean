import CoapNode.Proofs.Transaction.Addressee
import CoapNode.Proofs.Transaction.Outcome

set_option autoImplicit false

/-! # Transactions do not get in each other's way

All transactions lie in one row of places, and every operation looks through it. In a table without
repeated ids it comes upon the transaction that it is meant for and no other one. An operation that
is called with an id leaves the transactions with other ids alone (`get?_step_of_ne`), a message
changes the one transaction that it is credited to, and time passes for each transaction by itself
(`pollRetransmit_eq`, `delivered_pollRetransmit`).

Sending, taking and dropping put something into the place of the transaction that they are called
for, and look at nothing else (`step_touching`). So two of them that are called for different
transactions can change places (`run_comm`), and what they answer is the same in either order
(`answer_congr`).
-/

namespace CoapNode.TransactionTable

variable {table table' : TransactionTable} {op x y : Operation} {a b id k : MessageId}
  {peer : Endpoint} {msg : Message} {con : Con} {now : Millis} {t : Transaction}
  {o o' : Option Transaction}

/-- **An operation that is called with an id** changes no transaction with another id. -/
theorem Evolves.frame (h : Evolves k op o o') (hid : op.id? = some id) (hne : id ≠ k) : o' = o := by
  cases h with
  | nextId | nextToken | elsewhere | passedOver | refused | unknown | inFlight => rfl
  | entered | sent | taken | cancelled => exact absurd (Option.some.inj hid).symm hne
  | received | polled => cases hid

/-! ## Messages and moments -/

/-- A message is credited to no transaction exactly if none awaits it. -/
theorem onResponse_none_iff :
    (table.onResponse msg con now).value = .ok (none, table)
      ↔ ∀ t ∈ table.live, t.awaits msg = false := by
  constructor
  · intro h
    rcases slots_onResponse h with ⟨-, -, hnone⟩ | ⟨t, t', front, back, hanswer, -⟩
    · exact hnone
    · cases hanswer
  · intro h
    have hfind : table.slots.find? (·.awaits msg) = none := by
      simpa [Slots.find?, live, List.find?_eq_none] using h
    rw [onResponse, hfind]
    rfl

/-- **A moment changes each transaction by itself**, in its place. -/
theorem pollRetransmit_eq (table : TransactionTable) (now : Millis) :
    (table.pollRetransmit now).value
      = { table with slots := table.slots.map (·.map fun t => (t.poll now).value) } := by
  show { table with slots := List.map _ table.slots } = _
  congr 2
  funext place
  cases place <;> rfl

/-! ## Operations on one transaction -/

namespace Operation

/-- What an operation leaves of the transaction that it is called for, if that is there. -/
def leaves : Operation → Option Transaction → Except DelayError (Option Transaction)
  | .send id msg con now, some t =>
      (RetryTimer.new now con.unacked con.maxAttempts).map fun timer =>
        some (t.sent msg.token { msg with id := id }.encode timer)
  | .take _, some t => .ok (if t.isOver then none else some t)
  | .cancel _, _ => .ok none
  | _, o => .ok o

/-- What an operation answers to its caller. -/
inductive Answer where
  /-- There is nothing to answer. -/
  | done
  /-- The request was sent, or it was refused for a reason. -/
  | sent (refusal : Option SendError)
  | taken (completion : Completion)
deriving DecidableEq, Repr

/-- What an operation answers, if it is performed on a table. -/
def answer (table : TransactionTable) : Operation → Answer
  | .send id msg con now =>
    match (table.send id msg con now).value.1 with
    | .ok () => .sent none
    | .error e => .sent (some e)
  | .take id => .taken (table.take id).1
  | _ => .done

/-- An operation that touches a transaction is called with its id. -/
theorem id?_of_touches (h : op.touches k = true) : op.id? = some k := by
  cases op with
  | send id | take id | cancel id => exact congrArg some (beq_iff_eq.1 h)
  | nextId | nextToken | allocate | receive | poll => cases h

/-- What is left of a transaction has its id. -/
theorem id_of_leaves {new : Option Transaction} (ho : ∀ t ∈ o, t.id = k)
    (h : op.leaves o = .ok new) : ∀ t ∈ new, t.id = k := by
  cases op with
  | send id msg con now =>
      cases o with
      | none =>
          obtain rfl := Except.ok.inj h
          rintro u ⟨⟩
      | some t =>
          rw [leaves] at h
          cases htimer : RetryTimer.new now con.unacked con.maxAttempts with
          | error e =>
              rw [htimer] at h
              cases h
          | ok timer =>
              rw [htimer] at h
              obtain rfl := Except.ok.inj h
              rintro u ⟨⟩
              exact ho t rfl
  | take id =>
      cases o with
      | none =>
          obtain rfl := Except.ok.inj h
          rintro u ⟨⟩
      | some t =>
          obtain rfl := Except.ok.inj h
          cases t.isOver with
          | true => rintro u ⟨⟩
          | false => exact ho
  | cancel id =>
      obtain rfl := Except.ok.inj h
      rintro u ⟨⟩
  | nextId | nextToken | allocate | receive | poll =>
      obtain rfl := Except.ok.inj h
      exact ho

end Operation

/-- **Another transaction, or none, in the place of the transaction with an id.** -/
def replace (table : TransactionTable) (id : MessageId) (new : Option Transaction) :
    TransactionTable :=
  { table with slots := table.slots.update (·.id == id) new }

/-- Without a transaction with the id, nothing is replaced. -/
theorem replace_of_none (h : table.get? id = none) (new : Option Transaction) :
    table.replace id new = table := by
  rw [replace, Slots.update_of_find?_eq_none h]

/-- A transaction in its own place changes nothing. -/
theorem replace_self (h : table.get? id = some t) : table.replace id (some t) = table := by
  obtain ⟨-, front, back, hslots, -, hupdate⟩ := split_of_get? h
  rw [replace, hupdate, ← hslots]

/-- Dropping a transaction frees its place. -/
theorem cancel_eq_replace (hd : table.Distinct) (id : MessageId) :
    table.cancel id = table.replace id none := by
  cases ht : table.get? id with
  | none => rw [replace_of_none ht, cancel_of_none ht]
  | some t =>
      obtain ⟨rfl, front, back, hslots, hfirst, hupdate⟩ := split_of_get? ht
      have hlive : table.live = front.occupants ++ t :: back.occupants := by simp [live, hslots]
      have hfront : ∀ u ∈ front.occupants, (u.id == t.id) = false := by simpa using hfirst
      have hback : ∀ u ∈ back.occupants, (u.id == t.id) = false := by
        simpa using (hd.cut hlive).2
      rw [replace, hupdate, cancel, hslots, Slots.erase_append, Slots.erase_eq_self hfront]
      show { table with slots := front ++ Option.filter _ _ :: Slots.erase back _ } = _
      rw [Slots.erase_eq_self hback]
      simp [Option.filter]

theorem replace_comm {new new' : Option Transaction} (hab : a ≠ b) (hnew : ∀ t ∈ new, t.id = a)
    (hnew' : ∀ t ∈ new', t.id = b) :
    (table.replace a new).replace b new' = (table.replace b new').replace a new := by
  have hold (t : Transaction) (ht : (t.id == a) = true) : (t.id == b) = false := by
    rw [beq_iff_eq.1 ht, beq_false_of_ne hab]
  have hput : ∀ t ∈ new, (t.id == b) = false := by
    intro t ht
    rw [hnew t ht, beq_false_of_ne hab]
  have hput' : ∀ t ∈ new', (t.id == a) = false := by
    intro t ht
    rw [hnew' t ht, beq_false_of_ne hab.symm]
  rw [replace, replace, replace, replace, Slots.update_comm hold hput hput']

/-- **Sending, taking and dropping** concern the place of one transaction, and depend on that
transaction alone. -/
theorem step_touching (hd : table.Distinct) (hop : op.touches k = true) :
    (table.step op).value = (op.leaves (table.get? k)).map (table.replace k) := by
  have hid := Operation.id?_of_touches hop
  cases op with
  | send id msg con now =>
      obtain rfl := Option.some.inj hid
      simp only [step, Traced.value_bind, value_send]
      cases ht : table.get? id with
      | none => exact congrArg Except.ok (replace_of_none ht none).symm
      | some t =>
          simp only [Operation.leaves]
          cases RetryTimer.new now con.unacked con.maxAttempts <;> rfl
  | take id =>
      obtain rfl := Option.some.inj hid
      show Except.ok (table.take id).2 = _
      cases ht : table.get? id with
      | none =>
          rw [take_of_none ht]
          exact congrArg Except.ok (replace_of_none ht none).symm
      | some t =>
          simp only [Operation.leaves]
          cases hover : t.isOver with
          | false =>
              rw [take_of_inFlight ht hover]
              exact congrArg Except.ok (replace_self ht).symm
          | true =>
              obtain ⟨outcome, hstatus⟩ := Transaction.isOver_iff.1 hover
              rw [take, ht]
              simp only [hstatus]
              rfl
  | cancel id =>
      obtain rfl := Option.some.inj hid
      exact congrArg Except.ok (cancel_eq_replace hd id)
  | nextId | nextToken | allocate | receive | poll => cases hop

/-- **What an operation on a transaction answers** and does to the outside depends on that
transaction alone. -/
theorem answer_congr (hop : op.touches k = true) (h : table.get? k = table'.get? k) :
    op.answer table = op.answer table' ∧ (table.step op).trace = (table'.step op).trace := by
  have hid := Operation.id?_of_touches hop
  cases op with
  | send id msg con now =>
      obtain rfl := Option.some.inj hid
      rw [trace_step_send, trace_step_send, send, send, Operation.answer, Operation.answer,
        value_send, value_send, h]
      cases table'.get? id with
      | none => exact ⟨rfl, rfl⟩
      | some t => cases RetryTimer.new now con.unacked con.maxAttempts <;> exact ⟨rfl, rfl⟩
  | take id =>
      obtain rfl := Option.some.inj hid
      refine ⟨?_, rfl⟩
      rw [Operation.answer, Operation.answer, take, take, h]
      cases table'.get? id with
      | none => rfl
      | some t => cases hstatus : t.status <;> simp only [hstatus]
  | cancel id => exact ⟨rfl, rfl⟩
  | nextId | nextToken | allocate | receive | poll => cases hop

/-! ## Either order -/

theorem value_run_pair (table : TransactionTable) (x y : Operation) :
    (table.run [x, y]).value
      = match (table.step x).value with
        | .ok next => (next.step y).value
        | .error e => .error e := by
  simp only [run, Traced.value_bind]
  cases (table.step x).value with
  | error e => rfl
  | ok next =>
      simp only [Traced.value_bind]
      cases (next.step y).value <;> rfl

theorem get?_step_of_ne (hd : table.Distinct) (hid : op.id? = some a) (hab : a ≠ b)
    (h : (table.step op).value = .ok table') : table'.get? b = table.get? b :=
  (step_evolves hd h b).frame hid hab

/-- Two operations on different transactions replace both, one after the other. -/
theorem value_run_touching (hd : table.Distinct) (hx : x.touches a = true)
    (hy : y.touches b = true) (hab : a ≠ b) :
    (table.run [x, y]).value
      = (x.leaves (table.get? a)).bind fun new => (y.leaves (table.get? b)).map fun new' =>
          (table.replace a new).replace b new' := by
  have hstep := step_touching hd hx
  rw [value_run_pair, hstep]
  cases hnew : x.leaves (table.get? a) with
  | error e => rfl
  | ok new =>
      rw [hnew] at hstep
      have hsame := get?_step_of_ne hd (Operation.id?_of_touches hx) hab hstep
      show ((table.replace a new).step y).value = _
      rw [step_touching (hd.step hstep) hy, hsame]
      rfl

/-- **Operations on different transactions can change places.** -/
theorem run_comm (hd : table.Distinct) (hx : x.touches a = true) (hy : y.touches b = true)
    (hab : a ≠ b) : (table.run [x, y]).value = (table.run [y, x]).value := by
  rw [value_run_touching hd hx hy hab, value_run_touching hd hy hx hab.symm]
  cases hnew : x.leaves (table.get? a) with
  | error e =>
      -- a run that ends says nothing but that a range of delays is empty
      cases e
      cases y.leaves (table.get? b) with
      | error e => cases e; rfl
      | ok new' => rfl
  | ok new =>
      cases hnew' : y.leaves (table.get? b) with
      | error e => rfl
      | ok new' =>
          have hid := Operation.id_of_leaves (fun t ht => (mem_live_of_get? ht).2) hnew
          have hid' := Operation.id_of_leaves (fun t ht => (mem_live_of_get? ht).2) hnew'
          exact congrArg Except.ok (replace_comm hab hid hid')

/-! ## Main result -/

/-- **Transactions are isolated from each other.** In a table without repeated ids, an operation
that is called with an id leaves the transactions with other ids as they are. A message is credited
to no transaction exactly if it answers none that is pending. Otherwise one transaction that is
pending and that it answers is replaced in its place, its id is what is yielded, and no other
transaction changes. What a moment makes of a transaction and wants delivered for it depends on that
transaction and the moment alone. So when two transactions are sent, taken or dropped, this can be
done in either order: the table is the same afterwards, and each operation answers and does to the
outside what it would without the other one. -/
theorem transactions_isolated (hd : table.Distinct) :
    (∀ op a b table', op.id? = some a → a ≠ b → (table.step op).value = .ok table' →
      table'.get? b = table.get? b)
    ∧ (∀ msg con now,
        (con.acked.Valid → ∃ result, (table.onResponse msg con now).value = .ok result)
        ∧ ((table.onResponse msg con now).value = .ok (none, table)
          ↔ ∀ t ∈ table.live, t.isPending = true → t.answeredBy msg = false)
        ∧ ∀ answer table', (table.onResponse msg con now).value = .ok (answer, table') →
            (answer = none ∧ table' = table)
            ∨ ∃ t t' front back, answer = some t.id ∧ table.get? t.id = some t
              ∧ t.isPending = true ∧ t.answeredBy msg = true ∧ t'.id = t.id
              ∧ table.slots = front ++ some t :: back
              ∧ table' = { table with slots := front ++ some t' :: back }
              ∧ ∀ k, k ≠ t.id → table'.get? k = table.get? k)
    ∧ (∀ now,
        (table.pollRetransmit now).value
          = { table with slots := table.slots.map (·.map fun t => (t.poll now).value) }
        ∧ delivered (table.pollRetransmit now).trace
          = table.live.flatMap (·.retransmission now))
    ∧ ∀ x y a b, x.touches a = true → y.touches b = true → a ≠ b →
        (table.run [x, y]).value = (table.run [y, x]).value
        ∧ ∀ next, (table.step y).value = .ok next →
            x.answer next = x.answer table ∧ (next.step x).trace = (table.step x).trace := by
  refine ⟨fun op a b table' hid hab h => get?_step_of_ne hd hid hab h,
    fun msg con now => ⟨fun hcon => exists_onResponse hcon table msg now, ?_, ?_⟩,
    fun now => ⟨table.pollRetransmit_eq now, table.delivered_pollRetransmit now⟩,
    fun x y a b hx hy hab => ⟨run_comm hd hx hy hab, fun next hnext => ?_⟩⟩
  · rw [onResponse_none_iff]
    simp only [Transaction.awaits, Bool.and_eq_false_imp]
  · intro answer table' h
    rcases slots_onResponse h with
      ⟨hanswer, hsame, -⟩ | ⟨t, t', front, back, hanswer, hawaits, ht', hslots, -, htable'⟩
    · exact .inl ⟨hanswer, hsame⟩
    · have hpending := Transaction.isPending_of_awaits hawaits
      have hmem : t ∈ table.live := by simp [live, hslots]
      have hget := hd.get?_eq_some_iff.2 ⟨hmem, rfl⟩
      refine .inr ⟨t, t', front, back, hanswer, hget, hpending,
        Transaction.answeredBy_of_awaits hawaits, Transaction.id_receive ht', hslots,
        htable', fun k hk => ?_⟩
      rcases get?_onResponse h k with hsame | ⟨u, u', -, hanswer', -⟩
      · exact hsame
      · rw [hanswer] at hanswer'
        exact absurd (Option.some.inj hanswer').symm hk
  · have hsame := get?_step_of_ne hd (Operation.id?_of_touches hy) hab.symm hnext
    exact answer_congr hx hsame

theorem isolated_sampleTable :
    sampleTable.Distinct
      ∧ sampleTable.get? 1 = some sampleSettled
      ∧ (sampleTable.get? 2).map (·.isPending) = some true
      ∧ (∀ table', (sampleTable.step (.cancel 1)).value = .ok table' →
          table'.get? 2 = sampleTable.get? 2)
      ∧ (sampleTable.run [.take 1, .send 2 (sampleRequest 9) sampleCon 200]).value
        = (sampleTable.run [.send 2 (sampleRequest 9) sampleCon 200, .take 1]).value
      ∧ ∀ next, (sampleTable.step (.send 2 (sampleRequest 9) sampleCon 200)).value = .ok next →
          Operation.answer next (.take 1) = .taken (.done (some ⟨sampleSeparate⟩)) := by
  have hd : sampleTable.Distinct := by decide +kernel
  obtain ⟨hframe, -, -, hcomm⟩ := transactions_isolated hd
  obtain ⟨horder, hanswer⟩ := hcomm (.take 1) (.send 2 (sampleRequest 9) sampleCon 200) 1 2
    rfl rfl (by decide)
  refine ⟨hd, by decide +kernel, by decide +kernel,
    fun table' h => hframe (.cancel 1) 1 2 table' rfl (by decide) h, horder, fun next hnext => ?_⟩
  rw [(hanswer next hnext).1]
  decide +kernel

end CoapNode.TransactionTable
