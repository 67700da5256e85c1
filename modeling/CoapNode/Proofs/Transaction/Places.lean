import CoapNode.Proofs.Network.Delivered
import CoapNode.Proofs.Transaction.Consistency
import CoapNode.Proofs.Transaction.Holders

set_option autoImplicit false

/-! # No place is lost

The table has room for a fixed number of transactions, and one can be entered as long as fewer are in
it: into a place that is free, wherever it is and however it has become free, or into a new place if
there is no such place (`TransactionTable.value_allocate_cases`). An operation takes one place, frees one, or
leaves the places to those who hold them (`TransactionTable.size_step`). So the number of
transactions after a run is the number of those that were entered less the number of those that were
freed, and what is refused changes nothing (`TransactionTable.no_place_lost`).
-/

namespace CoapNode.TransactionTable

variable {table table' : TransactionTable} {op : Operation} {ops : List Operation}
  {id : MessageId} {peer : Endpoint} {msg : Message} {con : Con} {now : Millis} {t : Transaction}

/-! ## Entering a transaction -/

/-- **The second table is the first one with a transaction in a place that was free**, or in a new
place behind all others if none was free and there was room for one more. -/
def Gains (table : TransactionTable) (t : Transaction) (table' : TransactionTable) : Prop :=
  ∃ front back : Slots Transaction, table' = { table with slots := front ++ some t :: back }
    ∧ (table.slots = front ++ none :: back
      ∨ table.slots = front ∧ back = [] ∧ table.size = table.slots.length
        ∧ table.slots.length < table.capacity)

/-- **What entering a transaction yields**, in a table whose places do not exceed its capacity: its
id is in use, or all places are taken, or it takes a place. -/
theorem value_allocate_cases (hfits : table.slots.length ≤ table.capacity) (id : MessageId)
    (peer : Endpoint) :
    ((table.allocate id peer).value = (.error .inUse, table) ∧ ∃ t ∈ table.live, t.id = id)
      ∨ ((table.allocate id peer).value = (.error .full, table)
        ∧ (∀ t ∈ table.live, t.id ≠ id) ∧ table.size = table.capacity)
      ∨ ∃ table', (table.allocate id peer).value = (.ok (), table')
        ∧ table.Gains (.new id peer) table'
        ∧ (∀ t ∈ table.live, t.id ≠ id) ∧ table.size < table.capacity := by
  rw [allocate]
  split
  · next hused =>
      obtain ⟨t, ht⟩ := Option.isSome_iff_exists.1 hused
      exact .inl ⟨rfl, t, mem_live_of_get? ht⟩
  · next hfree =>
      have hunused := get?_eq_none_iff.1 (Option.not_isSome_iff_eq_none.1 hfree)
      split
      · next slots hinsert =>
          obtain ⟨front, back, rfl, hslots⟩ := Slots.split_of_insert? hinsert
          refine .inr (.inr ⟨_, rfl, ⟨front, back, rfl, hslots⟩, hunused, ?_⟩)
          -- where something can be inserted, a place is free or there is room for a new one
          have hle : table.size ≤ table.slots.length := Slots.length_occupants_le table.slots
          have hroom : ¬(table.size = table.slots.length ∧ table.capacity ≤ table.slots.length) := by
            rw [size, live, ← Slots.insert?_eq_none_iff (x := .new id peer), hinsert]
            exact Option.some_ne_none _
          omega
      · next hinsert =>
          obtain ⟨hall, hfull⟩ := Slots.insert?_eq_none_iff.1 hinsert
          have hsize : table.size = table.slots.length := hall
          exact .inr (.inl ⟨rfl, hunused, hsize.trans (Nat.le_antisymm hfits hfull)⟩)

/-- **When a transaction is entered**, and when and why it is refused. -/
theorem allocate_iff (hfits : table.slots.length ≤ table.capacity) (id : MessageId)
    (peer : Endpoint) :
    ((table.allocate id peer).value.1 = .error .inUse ↔ ∃ t ∈ table.live, t.id = id)
      ∧ ((table.allocate id peer).value.1 = .error .full
        ↔ (∀ t ∈ table.live, t.id ≠ id) ∧ table.size = table.capacity)
      ∧ ((table.allocate id peer).value.1 = .ok ()
        ↔ (∀ t ∈ table.live, t.id ≠ id) ∧ table.size < table.capacity)
      ∧ ∀ table', (table.allocate id peer).value = (.ok (), table') →
          table.Gains (.new id peer) table' := by
  rcases value_allocate_cases hfits id peer with
    ⟨hvalue, t, ht, hid⟩ | ⟨hvalue, hunused, hsize⟩ | ⟨next, hvalue, hgains, hunused, hsize⟩
  · have hused : ¬∀ t ∈ table.live, t.id ≠ id := fun h => h t ht hid
    rw [hvalue]
    exact ⟨iff_of_true rfl ⟨t, ht, hid⟩, iff_of_false nofun fun h => hused h.1,
      iff_of_false nofun fun h => hused h.1, nofun⟩
  · have hfree : ¬∃ t ∈ table.live, t.id = id := fun ⟨t, ht, hid⟩ => hunused t ht hid
    rw [hvalue]
    exact ⟨iff_of_false nofun hfree, iff_of_true rfl ⟨hunused, hsize⟩,
      iff_of_false nofun fun h => Nat.ne_of_lt h.2 hsize, nofun⟩
  · have hfree : ¬∃ t ∈ table.live, t.id = id := fun ⟨t, ht, hid⟩ => hunused t ht hid
    rw [hvalue]
    refine ⟨iff_of_false nofun hfree, iff_of_false nofun fun h => Nat.ne_of_lt hsize h.2,
      iff_of_true rfl ⟨hunused, hsize⟩, ?_⟩
    rintro table' ⟨⟩
    exact hgains

/-- What is refused to enter changes nothing, and nothing is delivered. -/
theorem step_of_allocate_error {e : AllocError}
    (h : (table.allocate id peer).value = (.error e, table')) :
    table' = table ∧ (table.step (.allocate id peer)).value = .ok table
      ∧ delivered (table.step (.allocate id peer)).trace = [] := by
  obtain rfl := allocate_of_error h
  exact ⟨rfl, by simp [step, h], by simp [step]⟩

/-! ## Sending a transaction -/

/-- **A transaction that is not sent** leaves the table as it is: it is not there, or its timer
cannot be started, which ends the run. -/
theorem step_of_send_error {e : SendError}
    (h : (table.send id msg con now).value = (.error e, table')) :
    table' = table
      ∧ ((table.step (.send id msg con now)).value = .ok table
          ∧ delivered (table.step (.send id msg con now)).trace = []
        ∨ ∃ cause, e = .delay cause
          ∧ (table.step (.send id msg con now)).value = .error cause) := by
  obtain rfl := send_of_error h
  refine ⟨rfl, ?_⟩
  have hsend := h
  rw [value_send] at h
  split at h
  · next hnone =>
      obtain rfl := Except.error.inj (Prod.mk.inj h).1
      refine .inl ⟨by simp [step, hsend], ?_⟩
      rw [trace_step_send, send, hnone]
      rfl
  · split at h
    · next cause _ =>
        obtain rfl := Except.error.inj (Prod.mk.inj h).1
        exact .inr ⟨cause, rfl, by simp [step, hsend]⟩
    · cases h

/-! ## The number of transactions -/

namespace Operation

/-- Does the operation enter a transaction into a table? -/
def enters (table : TransactionTable) : Operation → Bool
  | .allocate id peer => (table.allocate id peer).value.1.isOk
  | _ => false

/-- Does the operation free the place of a transaction, by taking its outcome or by dropping it? -/
def frees (table : TransactionTable) : Operation → Bool
  | .take id => (table.get? id).any (·.isOver)
  | .cancel id => (table.get? id).isSome
  | _ => false

end Operation

theorem size_cancel (hd : table.Distinct) (id : MessageId) :
    (table.cancel id).size + (table.get? id).isSome.toNat = table.size := by
  rw [size, live_cancel]
  cases ht : table.get? id with
  | none =>
      have hall : ∀ t ∈ table.live, (t.id != id) = true := by
        simpa using get?_eq_none_iff.1 ht
      rw [List.filter_eq_self.2 hall]
      rfl
  | some t =>
      obtain ⟨hmem, rfl⟩ := mem_live_of_get? ht
      obtain ⟨front, back, hlive⟩ := List.append_of_mem hmem
      obtain ⟨hfront, hback⟩ := hd.cut hlive
      have hfront' : ∀ u ∈ front, (u.id != t.id) = true := by simpa using hfront
      have hback' : ∀ u ∈ back, (u.id != t.id) = true := by simpa using hback
      rw [size, hlive, List.filter_append, List.filter_cons_of_neg (by simp),
        List.filter_eq_self.2 hfront', List.filter_eq_self.2 hback']
      simp [Nat.add_assoc]

theorem size_take (table : TransactionTable) (id : MessageId) :
    (table.take id).2.size + ((table.get? id).any (·.isOver)).toNat = table.size := by
  rcases table.take_cases id with ⟨hsame, hover⟩ | ⟨t, outcome, ht, hstatus⟩
  · have hany : (table.get? id).any (·.isOver) = false := by
      cases ht : table.get? id with
      | none => rfl
      | some t => exact hover t ht
    rw [hsame, hany]
    rfl
  · obtain ⟨-, front, back, hlive, hlive'⟩ := live_take ht hstatus
    have hover : t.isOver = true := Transaction.isOver_iff.2 ⟨outcome, hstatus⟩
    rw [size, hlive', size, hlive, ht]
    simp [hover, Nat.add_assoc]

/-- **What an operation does to the number of transactions**: one more if it enters one, one less if
it frees the place of one. -/
theorem size_step (hd : table.Distinct) (h : (table.step op).value = .ok table') :
    table'.size + (op.frees table).toNat = table.size + (op.enters table).toNat := by
  cases op with
  | allocate id peer =>
      simp only [step, Traced.value_bind, Traced.value_liftM] at h
      obtain rfl := Except.ok.inj h
      cases halloc : (table.allocate id peer).value with
      | mk result next =>
          cases result with
          | error e =>
              obtain rfl := allocate_of_error halloc
              simp [Operation.enters, Operation.frees, halloc, Except.isOk, Except.toBool]
          | ok =>
              obtain ⟨-, front, back, hlive, hlive'⟩ := live_allocate halloc
              simp [Operation.enters, Operation.frees, halloc, Except.isOk, Except.toBool, size,
                hlive, hlive', Nat.add_assoc]
  | take id =>
      obtain rfl := Except.ok.inj h
      exact table.size_take id
  | cancel id =>
      obtain rfl := Except.ok.inj h
      exact size_cancel hd id
  | nextToken =>
      obtain rfl := Except.ok.inj h
      rfl
  | send id msg con now =>
      rcases step_send h with ⟨-, rfl⟩ | h
      · rfl
      · rw [← length_holders, holders_send h, length_holders]
        rfl
  | nextId | receive | poll =>
      rw [← length_holders, holders_step rfl h, length_holders]
      rfl

/-- **How many transactions are entered** along a run. -/
def entered (table : TransactionTable) (ops : List Operation) : Nat :=
  (table.history ops).countP fun entry => entry.2.enters entry.1

/-- **How many transactions lose their place** along a run. -/
def freed (table : TransactionTable) (ops : List Operation) : Nat :=
  (table.history ops).countP fun entry => entry.2.frees entry.1

theorem entered_cons (h : (table.step op).value = .ok table') :
    table.entered (op :: ops) = table'.entered ops + (op.enters table).toNat := by
  rw [entered, history_cons h, List.countP_cons]
  cases op.enters table <;> rfl

theorem freed_cons (h : (table.step op).value = .ok table') :
    table.freed (op :: ops) = table'.freed ops + (op.frees table).toNat := by
  rw [freed, history_cons h, List.countP_cons]
  cases op.frees table <;> rfl

/-- **The number of transactions after a run** is the number before it, with those that have been
entered and without those that have been freed. -/
theorem size_run (hd : table.Distinct)
    (hrun : (table.run ops).value = .ok table') :
    table'.size + table.freed ops = table.size + table.entered ops := by
  induction ops generalizing table with
  | nil =>
      obtain rfl := Except.ok.inj hrun
      rfl
  | cons op ops ih =>
      obtain ⟨next, hnext, hrest⟩ := run_cons hrun
      have hstep := size_step hd hnext
      have hlater := ih (hd.step hnext) hrest
      rw [entered_cons hnext, freed_cons hnext]
      omega

/-! ## Main result -/

/-- **No place is lost, and what fails changes nothing.** In a table that is reached from an empty
one, a transaction cannot be entered for an id in use exactly if a transaction has the id, and for
want of a place exactly if none has the id and as many transactions are there as the table can hold.
Otherwise it is entered: it has not been sent, it goes to the peer, it takes a place that was free,
or a new one if none was free, and all other places stay as they are. The transactions in the table
are those that were entered along the run less those that were freed, by taking the outcome of one
that was over or by dropping one. Whenever a transaction cannot be entered or sent, the table stays
as it is; and nothing is delivered, unless a timer cannot be started, which ends the run. -/
theorem no_place_lost {capacity : Nat} {seed : UInt64}
    (hrun : ((new capacity seed).run ops).value = .ok table) :
    (∀ id peer,
      ((table.allocate id peer).value.1 = .error .inUse ↔ ∃ t ∈ table.live, t.id = id)
      ∧ ((table.allocate id peer).value.1 = .error .full
        ↔ (∀ t ∈ table.live, t.id ≠ id) ∧ table.size = capacity)
      ∧ ((table.allocate id peer).value.1 = .ok ()
        ↔ (∀ t ∈ table.live, t.id ≠ id) ∧ table.size < capacity)
      ∧ (∀ table', (table.allocate id peer).value = (.ok (), table') →
          table.Gains (.new id peer) table')
      ∧ ∀ e table', (table.allocate id peer).value = (.error e, table') →
          table' = table ∧ (table.step (.allocate id peer)).value = .ok table
          ∧ delivered (table.step (.allocate id peer)).trace = [])
    ∧ table.size + (new capacity seed).freed ops = (new capacity seed).entered ops
    ∧ ∀ id msg con now e table', (table.send id msg con now).value = (.error e, table') →
        table' = table
        ∧ ((table.step (.send id msg con now)).value = .ok table
            ∧ delivered (table.step (.send id msg con now)).trace = []
          ∨ ∃ cause, e = .delay cause
            ∧ (table.step (.send id msg con now)).value = .error cause) := by
  have hnew := wellFormed_new capacity seed
  obtain ⟨rfl, hfits, -⟩ := hnew.run hrun
  refine ⟨fun id peer => ?_, ?_, fun id msg con now e table' => step_of_send_error⟩
  · obtain ⟨hinUse, hfull, hok, hgains⟩ := allocate_iff hfits id peer
    exact ⟨hinUse, hfull, hok, hgains, fun e table' => step_of_allocate_error⟩
  · have hempty : (new table.capacity seed).size = 0 := rfl
    have hcount := size_run hnew.distinct hrun
    rw [hempty, Nat.zero_add] at hcount
    exact hcount

/-- A run in which a place is freed, and is the only one that the next transaction fits in. -/
def sampleReuse : List Operation :=
  [.allocate 1 samplePeer, .allocate 2 samplePeer, .allocate 3 samplePeer,
    .send 2 (sampleRequest 7) sampleCon 0, .cancel 1, .allocate 2 samplePeer,
    .allocate 4 samplePeer, .receive (sampleResponse 2 7) sampleCon 5, .take 2, .take 4]

/-- The table after that run, with one transaction in the place that was freed first. -/
def reusedTable : TransactionTable :=
  match ((new 2 0).run sampleReuse).value with
  | .ok table => table
  | .error _ => new 2 0

theorem no_place_lost_sampleReuse :
    ((new 2 0).run sampleReuse).value = .ok reusedTable
      ∧ reusedTable.slots = [some (.new 4 samplePeer), none]
      ∧ reusedTable.size + (new 2 0).freed sampleReuse = (new 2 0).entered sampleReuse
      ∧ (new 2 0).freed sampleReuse = 2 ∧ (new 2 0).entered sampleReuse = 3
      ∧ ((reusedTable.allocate 4 samplePeer).value.1 = .error .inUse
        ↔ ∃ t ∈ reusedTable.live, t.id = 4)
      ∧ ((reusedTable.allocate 5 samplePeer).value.1 = .ok ()
        ↔ (∀ t ∈ reusedTable.live, t.id ≠ 5) ∧ reusedTable.size < 2) := by
  have hrun : ((new 2 0).run sampleReuse).value = .ok reusedTable := rfl
  obtain ⟨halloc, hcount, -⟩ := no_place_lost hrun
  exact ⟨hrun, by decide +kernel, hcount, by decide +kernel, by decide +kernel,
    (halloc 4 samplePeer).1, (halloc 5 samplePeer).2.2.1⟩

end CoapNode.TransactionTable
