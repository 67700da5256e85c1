import CoapNode.Proofs.Time.Retry
import CoapNode.Proofs.Transaction.Lookup

set_option autoImplicit false

/-! # Runs of the table of transactions

A run of the table is a list of operations, each with its arguments (`TransactionTable.run`). What
one operation can make of the transaction with a given id is listed once, by the constructors of
`TransactionTable.Evolves`; `step_evolves` says that the list is complete. Invariants of single
transactions follow along a run from these cases alone (`run_evolves`).

What the table as a whole keeps is `WellFormed`: its number of places, and that no message id is
used twice.
-/

namespace CoapNode.TransactionTable

/-! ## Operations -/

/-- One operation on the table, with its arguments. -/
inductive Operation where
  | nextId
  | nextToken
  | allocate (id : MessageId) (peer : Endpoint)
  | send (id : MessageId) (msg : Message) (con : Con) (now : Millis)
  | receive (msg : Message) (con : Con) (now : Millis)
  | poll (now : Millis)
  | take (id : MessageId)
  | cancel (id : MessageId)
deriving DecidableEq, Repr

namespace Operation

/-- The strategies that the operation starts timers with can be drawn from. -/
def Valid : Operation → Prop
  | .send _ _ con _ => con.Valid
  | .receive _ con _ => con.Valid
  | _ => True

instance : DecidablePred Valid := fun op => by
  cases op <;> unfold Valid <;> infer_instance

/-- The message id that the operation is called with. -/
def id? : Operation → Option MessageId
  | .allocate id _ => some id
  | .send id _ _ _ => some id
  | .take id => some id
  | .cancel id => some id
  | _ => none

/-- Does the operation send the transaction with an id? -/
def sends (k : MessageId) : Operation → Bool
  | .send id _ _ _ => id == k
  | _ => false

/-- Is it an operation that a node performs by itself, when a datagram comes in or time passes? -/
def isPassive : Operation → Bool
  | .nextId => true
  | .receive .. => true
  | .poll _ => true
  | _ => false

end Operation

/-- The table after an operation, whether it has succeeded or was refused. Only a timer that cannot
be started ends a run. -/
def step (table : TransactionTable) :
    Operation → Traced Activity (Except DelayError TransactionTable)
  | .nextId => pure (.ok table.nextId.2)
  | .nextToken => pure (.ok table.nextToken.2)
  | .allocate id peer => do
    let (_, table) ← table.allocate id peer
    pure (.ok table)
  | .send id msg con now => do
    match ← table.send id msg con now with
    | (.error (.delay e), _) => pure (.error e)
    | (_, table) => pure (.ok table)
  | .receive msg con now => do
    let result ← table.onResponse msg con now
    pure (result.map Prod.snd)
  | .poll now => do
    let table ← table.pollRetransmit now
    pure (.ok table)
  | .take id => pure (.ok (table.take id).2)
  | .cancel id => pure (.ok (table.cancel id))

/-- The table after a list of operations, first operation first. -/
def run (table : TransactionTable) :
    List Operation → Traced Activity (Except DelayError TransactionTable)
  | [] => pure (.ok table)
  | op :: ops => do
    match ← table.step op with
    | .ok table => table.run ops
    | .error e => pure (.error e)

variable {table table' : TransactionTable} {op : Operation} {ops : List Operation}
  {id k : MessageId} {peer : Endpoint} {msg : Message} {con : Con} {now : Millis}

/-! ## What became of the table -/

theorem step_allocate (h : (table.step (.allocate id peer)).value = .ok table') :
    table' = table ∨ (table.allocate id peer).value = (.ok (), table') := by
  simp only [step, Traced.value_bind, Traced.value_liftM] at h
  obtain rfl := Except.ok.inj h
  cases halloc : (table.allocate id peer).value with
  | mk result next =>
      cases result with
      | error e => exact .inl (allocate_of_error halloc)
      | ok => exact .inr rfl

theorem step_send (h : (table.step (.send id msg con now)).value = .ok table') :
    (table.get? id = none ∧ table' = table)
      ∨ (table.send id msg con now).value = (.ok (), table') := by
  simp only [step, Traced.value_bind, value_send] at h
  rw [value_send]
  cases ht : table.get? id with
  | none =>
      rw [ht] at h
      exact .inl ⟨rfl, (Except.ok.inj h).symm⟩
  | some t =>
      rw [ht] at h
      cases htimer : RetryTimer.new now con.unacked con.maxAttempts with
      | error e =>
          rw [htimer] at h
          cases h
      | ok timer =>
          rw [htimer] at h
          exact .inr (congrArg (Prod.mk _) (Except.ok.inj h))

/-- Sending does the same to the outside as a step of a run. -/
theorem trace_step_send (table : TransactionTable) (id : MessageId) (msg : Message) (con : Con)
    (now : Millis) :
    (table.step (.send id msg con now)).trace = (table.send id msg con now).trace := by
  simp only [step, Traced.trace_bind]
  split <;> simp

theorem step_receive (h : (table.step (.receive msg con now)).value = .ok table') :
    ∃ answer, (table.onResponse msg con now).value = .ok (answer, table') := by
  simp only [step, Traced.value_bind, Traced.value_liftM, Traced.value_pure] at h
  cases hresult : (table.onResponse msg con now).value with
  | error e => simp [hresult, Except.map] at h
  | ok result =>
      rw [hresult] at h
      exact ⟨result.1, by rw [← Except.ok.inj h]⟩

theorem exists_onResponse (h : con.acked.Valid) (table : TransactionTable) (msg : Message)
    (now : Millis) : ∃ result, (table.onResponse msg con now).value = .ok result := by
  rw [onResponse]
  split
  · exact ⟨_, rfl⟩
  · next t _ =>
      obtain ⟨t', ht'⟩ := t.exists_receive (RetryTimer.exists_new h now con.maxAttempts) msg
      rw [Traced.value_bind, ht']
      exact ⟨_, rfl⟩

/-- **With strategies that can be drawn from, every operation goes through.** -/
theorem exists_step (h : op.Valid) (table : TransactionTable) :
    ∃ table', (table.step op).value = .ok table' := by
  cases op with
  | nextId => exact ⟨_, rfl⟩
  | nextToken => exact ⟨_, rfl⟩
  | allocate id peer => exact ⟨_, rfl⟩
  | send id msg con now =>
      obtain ⟨timer, htimer⟩ := RetryTimer.exists_new h.1 now con.maxAttempts
      simp only [step, Traced.value_bind, value_send, htimer]
      cases table.get? id with
      | none => exact ⟨table, rfl⟩
      | some t => exact ⟨_, rfl⟩
  | receive msg con now =>
      obtain ⟨answer, hanswer⟩ := exists_onResponse h.2 table msg now
      simp only [step, Traced.value_bind, Traced.value_liftM, hanswer]
      exact ⟨answer.2, rfl⟩
  | poll now => exact ⟨_, rfl⟩
  | take id => exact ⟨_, rfl⟩
  | cancel id => exact ⟨_, rfl⟩

theorem run_cons (h : (table.run (op :: ops)).value = .ok table') :
    ∃ next, (table.step op).value = .ok next ∧ (next.run ops).value = .ok table' := by
  simp only [run, Traced.value_bind] at h
  split at h
  · next hstep => exact ⟨_, hstep, h⟩
  · cases h

theorem exists_run (h : ∀ op ∈ ops, op.Valid) (table : TransactionTable) :
    ∃ table', (table.run ops).value = .ok table' := by
  induction ops generalizing table with
  | nil => exact ⟨table, rfl⟩
  | cons op ops ih =>
      obtain ⟨hop, hops⟩ := List.forall_mem_cons.1 h
      obtain ⟨next, hnext⟩ := exists_step hop table
      obtain ⟨table', htable'⟩ := ih hops next
      exact ⟨table', by simp only [run, Traced.value_bind, hnext, htable']⟩

/-- What a run does, it does first with its first operations and then with the others. -/
theorem run_append {ops' : List Operation} (h : (table.run ops).value = .ok table') :
    (table.run (ops ++ ops')).value = (table'.run ops').value
      ∧ (table.run (ops ++ ops')).trace = (table.run ops).trace ++ (table'.run ops').trace := by
  induction ops generalizing table with
  | nil =>
      obtain rfl := Except.ok.inj h
      exact ⟨rfl, rfl⟩
  | cons op ops ih =>
      obtain ⟨next, hnext, hrest⟩ := run_cons h
      obtain ⟨hvalue, htrace⟩ := ih hrest
      simp only [List.cons_append, run, Traced.value_bind, Traced.trace_bind, hnext]
      exact ⟨hvalue, by rw [htrace, List.append_assoc]⟩

theorem run_singleton (h : (table.step op).value = .ok table') :
    (table.run [op]).value = .ok table' ∧ (table.run [op]).trace = (table.step op).trace := by
  simp only [run, Traced.value_bind, Traced.trace_bind, h]
  exact ⟨rfl, List.append_nil _⟩

/-- **The history of a run**: its operations, each with the table that it is performed on. -/
def history (table : TransactionTable) : List Operation → List (TransactionTable × Operation)
  | [] => []
  | op :: ops => (table, op) :: match (table.step op).value with
    | .ok table => table.history ops
    | .error _ => []

theorem history_cons (h : (table.step op).value = .ok table') :
    table.history (op :: ops) = (table, op) :: table'.history ops := by
  rw [history, h]

/-! ## What one operation makes of one transaction -/

/-- **What an operation can make of the transaction with id `k`**, if there is one. -/
inductive Evolves (k : MessageId) : Operation → Option Transaction → Option Transaction → Prop where
  /-- Choosing an id changes no transaction. -/
  | nextId (o : Option Transaction) : Evolves k .nextId o o
  /-- Choosing a token changes no transaction. -/
  | nextToken (o : Option Transaction) : Evolves k .nextToken o o
  /-- An operation that is called with an id changes no transaction with another id. -/
  | elsewhere {op : Operation} {id : MessageId} (o : Option Transaction) (hid : op.id? = some id)
      (hne : id ≠ k) : Evolves k op o o
  /-- The id is in use, or all places are taken. -/
  | refused (peer : Endpoint) (o : Option Transaction) : Evolves k (.allocate k peer) o o
  | entered (peer : Endpoint) : Evolves k (.allocate k peer) none (some (.new k peer))
  | unknown (msg : Message) (con : Con) (now : Millis) : Evolves k (.send k msg con now) none none
  /-- A transaction is sent whatever its status is. -/
  | sent (msg : Message) {con : Con} {now : Millis} {timer : RetryTimer} (t : Transaction)
      (htimer : RetryTimer.new now con.unacked con.maxAttempts = .ok timer) :
      Evolves k (.send k msg con now) (some t)
        (some (t.sent msg.token { msg with id := k }.encode timer))
  /-- The message is credited to another transaction, or to none. -/
  | passedOver (msg : Message) (con : Con) (now : Millis) (o : Option Transaction) :
      Evolves k (.receive msg con now) o o
  | received {msg : Message} {con : Con} {now : Millis} {t t' : Transaction}
      (hawaits : t.awaits msg = true) (ht' : (t.receive msg con now).value = .ok t') :
      Evolves k (.receive msg con now) (some t) (some t')
  | polled (now : Millis) (o : Option Transaction) :
      Evolves k (.poll now) o (o.map fun t => (t.poll now).value)
  /-- There is no outcome to take. -/
  | inFlight {o : Option Transaction} (hover : ∀ t ∈ o, t.isOver = false) : Evolves k (.take k) o o
  | taken {t : Transaction} (hover : t.isOver = true) : Evolves k (.take k) (some t) none
  | cancelled (o : Option Transaction) : Evolves k (.cancel k) o none

/-- Taking an outcome concerns the transaction with that id only. -/
theorem take_evolves (hd : table.Distinct) (id k : MessageId) :
    Evolves k (.take id) (table.get? k) ((table.take id).2.get? k) := by
  rcases table.take_cases id with ⟨hsame, hover⟩ | ⟨t, outcome, ht, hstatus⟩
  · rw [hsame]
    by_cases hk : id = k
    · subst hk
      exact .inFlight hover
    · exact .elsewhere _ rfl hk
  · rw [get?_take hd ht hstatus]
    by_cases hk : id = k
    · subst hk
      rw [if_pos rfl, ht]
      exact .taken (Transaction.isOver_iff.2 ⟨outcome, hstatus⟩)
    · rw [if_neg (Ne.symm hk)]
      exact .elsewhere _ rfl hk

/-- **The list of cases is complete.** -/
theorem step_evolves (hd : table.Distinct) (h : (table.step op).value = .ok table')
    (k : MessageId) : Evolves k op (table.get? k) (table'.get? k) := by
  cases op with
  | nextId =>
      obtain rfl := Except.ok.inj h
      exact .nextId _
  | nextToken =>
      obtain rfl := Except.ok.inj h
      exact .nextToken _
  | allocate id peer =>
      by_cases hk : id = k
      · subst hk
        rcases step_allocate h with rfl | h
        · exact .refused peer _
        · rw [get?_allocate h, if_pos rfl, (live_allocate h).1]
          exact .entered peer
      · rcases step_allocate h with rfl | h
        · exact .elsewhere _ rfl hk
        · rw [get?_allocate h, if_neg (Ne.symm hk)]
          exact .elsewhere _ rfl hk
  | send id msg con now =>
      by_cases hk : id = k
      · subst hk
        rcases step_send h with ⟨hnone, rfl⟩ | h
        · rw [hnone]
          exact .unknown msg con now
        · obtain ⟨t, timer, ht, htimer, hget⟩ := get?_send h
          rw [hget, if_pos rfl, ht]
          exact .sent msg t htimer
      · rcases step_send h with ⟨-, rfl⟩ | h
        · exact .elsewhere _ rfl hk
        · obtain ⟨t, timer, -, -, hget⟩ := get?_send h
          rw [hget, if_neg (Ne.symm hk)]
          exact .elsewhere _ rfl hk
  | receive msg con now =>
      obtain ⟨answer, hanswer⟩ := step_receive h
      rcases get?_onResponse hanswer k with hsame | ⟨t, t', ht, -, hawaits, hreceive, ht'⟩
      · rw [hsame]
        exact .passedOver msg con now _
      · rw [ht, ht']
        exact .received hawaits hreceive
  | poll now =>
      obtain rfl := Except.ok.inj h
      show Evolves k _ _ ((table.pollRetransmit now).value.get? k)
      rw [get?_pollRetransmit]
      exact .polled now _
  | take id =>
      obtain rfl := Except.ok.inj h
      exact take_evolves hd id k
  | cancel id =>
      obtain rfl := Except.ok.inj h
      rw [get?_cancel]
      by_cases hk : id = k
      · subst hk
        rw [if_pos rfl]
        exact .cancelled _
      · rw [if_neg (Ne.symm hk)]
        exact .elsewhere _ rfl hk

/-! ## What the table keeps -/

/-- **The shape of a table**: its capacity, which its places do not exceed, and no message id
twice. -/
structure WellFormed (capacity : Nat) (table : TransactionTable) : Prop where
  capacity_eq : table.capacity = capacity
  length_slots_le : table.slots.length ≤ capacity
  distinct : table.Distinct

theorem wellFormed_new (capacity : Nat) (seed : UInt64) :
    (new capacity seed).WellFormed capacity where
  capacity_eq := rfl
  length_slots_le := Nat.zero_le _
  distinct := List.nodup_nil

theorem WellFormed.size_le {capacity : Nat} (h : table.WellFormed capacity) :
    table.size ≤ capacity :=
  Nat.le_trans (Slots.length_occupants_le table.slots) h.length_slots_le

theorem Distinct.of_ids (h : table.Distinct)
    (hids : table'.live.map (·.id) = table.live.map (·.id)) : table'.Distinct := by
  rw [Distinct, hids]
  exact h

theorem Distinct.of_sublist (h : table.Distinct) (hsub : table'.live.Sublist table.live) :
    table'.Distinct :=
  h.sublist (hsub.map _)

/-- A newcomer may stand in the middle, if its id was free. -/
theorem Distinct.of_entered {t : Transaction} {front back : List Transaction} (h : table.Distinct)
    (hfree : table.get? t.id = none) (hlive : table.live = front ++ back)
    (hlive' : table'.live = front ++ t :: back) : table'.Distinct := by
  rw [get?_eq_none_iff, hlive] at hfree
  rw [Distinct, hlive] at h
  rw [Distinct, hlive', List.map_append, List.map_cons, List.nodup_middle, List.nodup_cons,
    ← List.map_append]
  refine ⟨fun hid => ?_, h⟩
  obtain ⟨u, hu, heq⟩ := List.mem_map.1 hid
  exact hfree u hu heq

/-- **Every operation keeps the ids apart.** -/
theorem Distinct.step (hd : table.Distinct) (h : (table.step op).value = .ok table') :
    table'.Distinct := by
  cases op with
  | nextId =>
      obtain rfl := Except.ok.inj h
      exact hd
  | nextToken =>
      obtain rfl := Except.ok.inj h
      exact hd
  | allocate id peer =>
      rcases step_allocate h with rfl | h
      · exact hd
      · obtain ⟨hfree, front, back, hlive, hlive'⟩ := live_allocate h
        exact hd.of_entered hfree hlive hlive'
  | send id msg con now =>
      rcases step_send h with ⟨-, rfl⟩ | h
      · exact hd
      · obtain ⟨t, timer, -, -, -, front, back, hlive, -, hlive'⟩ := live_send h
        refine hd.of_ids ?_
        rw [hlive, hlive', List.map_append, List.map_append]
        rfl
  | receive msg con now =>
      obtain ⟨answer, hanswer⟩ := step_receive h
      rcases onResponse_cases hanswer with
        ⟨-, rfl, -⟩ | ⟨t, t', front, back, -, -, ht', hlive, -, hlive'⟩
      · exact hd
      · refine hd.of_ids ?_
        rw [hlive, hlive', List.map_append, List.map_append, List.map_cons, List.map_cons,
          Transaction.id_receive ht']
  | poll now =>
      obtain rfl := Except.ok.inj h
      refine hd.of_ids ?_
      show List.map _ (table.pollRetransmit now).value.live = _
      rw [live_pollRetransmit, List.map_map]
      exact List.map_congr_left fun t _ => Transaction.id_poll now t
  | take id =>
      obtain rfl := Except.ok.inj h
      rcases table.take_cases id with ⟨hsame, -⟩ | ⟨t, outcome, ht, hstatus⟩
      · rw [hsame]
        exact hd
      · obtain ⟨-, front, back, hlive, hlive'⟩ := live_take ht hstatus
        refine hd.of_sublist ?_
        rw [hlive, hlive']
        exact (List.sublist_cons_self t back).append_left front
  | cancel id =>
      obtain rfl := Except.ok.inj h
      refine hd.of_sublist ?_
      rw [live_cancel]
      exact List.filter_sublist

/-- **Every operation keeps the capacity**, and the places within it. Only entering a transaction can
add a place. -/
theorem step_fits (h : (table.step op).value = .ok table') :
    table'.capacity = table.capacity
      ∧ (table.slots.length ≤ table.capacity → table'.slots.length ≤ table.capacity) := by
  cases op with
  | nextId =>
      obtain rfl := Except.ok.inj h
      exact ⟨rfl, fun hle => hle⟩
  | nextToken =>
      obtain rfl := Except.ok.inj h
      exact ⟨rfl, fun hle => hle⟩
  | allocate id peer =>
      rcases step_allocate h with rfl | h
      · exact ⟨rfl, fun hle => hle⟩
      · obtain ⟨-, slots, hinsert, rfl⟩ := slots_allocate h
        exact ⟨rfl, Slots.length_insert?_le hinsert⟩
  | send id msg con now =>
      rcases step_send h with ⟨-, rfl⟩ | h
      · exact ⟨rfl, fun hle => hle⟩
      · obtain ⟨hcapacity, hlength⟩ := places_send h
        exact ⟨hcapacity, Nat.le_trans (Nat.le_of_eq hlength)⟩
  | receive msg con now =>
      obtain ⟨answer, hanswer⟩ := step_receive h
      obtain ⟨hcapacity, hlength⟩ := places_onResponse hanswer
      exact ⟨hcapacity, Nat.le_trans (Nat.le_of_eq hlength)⟩
  | poll now =>
      obtain rfl := Except.ok.inj h
      exact ⟨rfl, Nat.le_trans (Nat.le_of_eq (length_pollRetransmit table now))⟩
  | take id =>
      obtain rfl := Except.ok.inj h
      obtain ⟨hcapacity, hlength⟩ := table.places_take id
      exact ⟨hcapacity, Nat.le_trans (Nat.le_of_eq hlength)⟩
  | cancel id =>
      obtain rfl := Except.ok.inj h
      exact ⟨rfl, Nat.le_trans (Nat.le_of_eq (List.length_map _))⟩

/-- **Every operation keeps the shape of the table.** -/
theorem WellFormed.step {capacity : Nat} (hw : table.WellFormed capacity)
    (h : (table.step op).value = .ok table') : table'.WellFormed capacity := by
  obtain ⟨rfl, hlength, hd⟩ := hw
  obtain ⟨hcapacity, hfits⟩ := step_fits h
  exact ⟨hcapacity, hfits hlength, hd.step h⟩

/-- **An invariant along a run.** What each operation of a run keeps, for the operations so far and
the table after them, holds at the end of the run. -/
theorem run_invariant {P : List Operation → TransactionTable → Prop}
    (hstep : ∀ past table op table', op ∈ ops → P past table →
      (table.step op).value = .ok table' → P (past ++ [op]) table')
    (past : List Operation) (h : P past table) (hrun : (table.run ops).value = .ok table') :
    P (past ++ ops) table' := by
  induction ops generalizing table past with
  | nil =>
      obtain rfl := Except.ok.inj hrun
      rw [List.append_nil]
      exact h
  | cons op ops ih =>
      obtain ⟨next, hnext, hrest⟩ := run_cons hrun
      rw [List.append_cons]
      exact ih (fun past table op' table' hop =>
          hstep past table op' table' (List.mem_cons_of_mem op hop)) _
        (hstep past table op next (List.mem_cons_self ..) h hnext) hrest

theorem Distinct.run (hd : table.Distinct) (hrun : (table.run ops).value = .ok table') :
    table'.Distinct :=
  run_invariant (P := fun _ table => table.Distinct) (fun _ _ _ _ _ hd hstep => hd.step hstep) []
    hd hrun

theorem WellFormed.run {capacity : Nat} (hw : table.WellFormed capacity)
    (hrun : (table.run ops).value = .ok table') : table'.WellFormed capacity :=
  run_invariant (P := fun _ table => table.WellFormed capacity)
    (fun _ _ _ _ _ hw hstep => hw.step hstep) [] hw hrun

/-- **An invariant of one transaction along a run.** It only has to be kept in the cases of
`Evolves`. -/
theorem run_evolves {Q : List Operation → Option Transaction → Prop}
    (hstep : ∀ past op o o', op ∈ ops → Evolves k op o o' → Q past o → Q (past ++ [op]) o')
    (hd : table.Distinct) (past : List Operation) (h : Q past (table.get? k))
    (hrun : (table.run ops).value = .ok table') : Q (past ++ ops) (table'.get? k) := by
  have hboth := run_invariant (P := fun past table => table.Distinct ∧ Q past (table.get? k))
    (fun past table op table' hop hp hs =>
      ⟨hp.1.step hs, hstep past op _ _ hop (step_evolves hp.1 hs k) hp.2⟩)
    past ⟨hd, h⟩ hrun
  exact hboth.2

/-! ## What a node does by itself -/

/-- The second table is the first one after a run of operations that a node performs by itself. -/
def Passes (table table' : TransactionTable) : Prop :=
  ∃ ops : List Operation, (∀ op ∈ ops, op.isPassive = true) ∧ (table.run ops).value = .ok table'

namespace Passes

theorem refl (table : TransactionTable) : table.Passes table := ⟨[], nofun, rfl⟩

theorem trans {table'' : TransactionTable} (h : table.Passes table')
    (h' : table'.Passes table'') : table.Passes table'' := by
  obtain ⟨ops, hops, hrun⟩ := h
  obtain ⟨ops', hops', hrun'⟩ := h'
  refine ⟨ops ++ ops', fun op hop => ?_, (run_append hrun).1.trans hrun'⟩
  rcases List.mem_append.1 hop with hop | hop
  · exact hops op hop
  · exact hops' op hop

theorem of_step (op : Operation) (hop : op.isPassive = true)
    (h : (table.step op).value = .ok table') : table.Passes table' :=
  ⟨[op], by simpa using hop, (run_singleton h).1⟩

theorem distinct (h : table.Passes table') (hd : table.Distinct) : table'.Distinct := by
  obtain ⟨ops, -, hrun⟩ := h
  exact hd.run hrun

end Passes

end CoapNode.TransactionTable
