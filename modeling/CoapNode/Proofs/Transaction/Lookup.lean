import CoapNode.Proofs.Transaction.Life
import CoapNode.Proofs.Transaction.Slots
import Mathlib.Data.List.Nodup

set_option autoImplicit false

/-! # What the operations on the table do

A table holds its transactions in places; what the rest of the node sees of it is the
transaction with each message id (`TransactionTable.get?`). For each operation this file says which
place it changes (`live_allocate`, `live_send`, `live_take`, `onResponse_cases`), and from that what
it does to the transaction with any id: `get?_allocate`, `get?_send`, `get?_onResponse`,
`get?_pollRetransmit`, `get?_take` and `get?_cancel`.

That no message id is used twice (`TransactionTable.Distinct`) matters where an operation takes
the first transaction with an id for the only one.
-/

namespace CoapNode.TransactionTable

variable {table table' : TransactionTable} {t t' : Transaction} {front back : List Transaction}
  {id k : MessageId} {peer : Endpoint} {msg : Message} {con : Con} {now : Millis}

/-- **No two transactions in the table have the same message id.** -/
def Distinct (table : TransactionTable) : Prop := (table.live.map (·.id)).Nodup

instance (table : TransactionTable) : Decidable table.Distinct :=
  inferInstanceAs (Decidable (List.Nodup _))

/-! ## Looking up -/

theorem get?_eq_find? (table : TransactionTable) (k : MessageId) :
    table.get? k = table.live.find? (·.id == k) :=
  rfl

theorem get?_eq_none_iff : table.get? k = none ↔ ∀ t ∈ table.live, t.id ≠ k := by
  simp [get?_eq_find?, List.find?_eq_none]

@[simp] theorem get?_new (capacity : Nat) (seed : UInt64) (k : MessageId) :
    (new capacity seed).get? k = none :=
  rfl

theorem mem_live_of_get? (h : table.get? k = some t) : t ∈ table.live ∧ t.id = k := by
  rw [get?_eq_find?] at h
  exact ⟨List.mem_of_find?_eq_some h, by simpa using List.find?_some h⟩

/-- Looking up around a transaction that is the first with its id. -/
theorem get?_of_live (hlive : table.live = front ++ t :: back) (hfirst : ∀ u ∈ front, u.id ≠ t.id)
    (k : MessageId) :
    table.get? k = if k = t.id then some t else (front ++ back).find? (·.id == k) := by
  rw [get?_eq_find?, hlive, List.find?_append, List.find?_append, List.find?_cons]
  by_cases hk : k = t.id
  · subst hk
    have hfront : front.find? (·.id == t.id) = none := by
      simpa [List.find?_eq_none] using hfirst
    simp [hfront]
  · rw [if_neg hk, beq_eq_false_iff_ne.2 (Ne.symm hk)]

theorem Distinct.cut (h : table.Distinct) (hlive : table.live = front ++ t :: back) :
    (∀ u ∈ front, u.id ≠ t.id) ∧ ∀ u ∈ back, u.id ≠ t.id := by
  rw [Distinct, hlive, List.map_append, List.map_cons, List.nodup_append, List.nodup_cons] at h
  obtain ⟨-, ⟨hback, -⟩, hfront⟩ := h
  constructor
  · intro u hu
    exact hfront u.id (List.mem_map_of_mem hu) t.id (List.mem_cons_self ..)
  · rintro u hu heq
    exact hback (heq ▸ List.mem_map_of_mem hu)

/-- In a table without repeated ids, looking up finds every transaction. -/
theorem Distinct.get?_eq_some_iff (h : table.Distinct) :
    table.get? k = some t ↔ t ∈ table.live ∧ t.id = k := by
  refine ⟨mem_live_of_get?, ?_⟩
  rintro ⟨ht, rfl⟩
  obtain ⟨front, back, hlive⟩ := List.append_of_mem ht
  rw [get?_of_live hlive (h.cut hlive).1, if_pos rfl]

/-! ## Operations on one id -/

/-- **Entering a transaction** puts it into a free place, or into a new one; its id was not in
use. -/
theorem slots_allocate (h : (table.allocate id peer).value = (.ok (), table')) :
    table.get? id = none ∧ ∃ slots, table.slots.insert? table.capacity (.new id peer) = some slots
      ∧ table' = { table with slots := slots } := by
  rw [allocate] at h
  split at h
  · cases h
  · next hfree =>
      split at h
      · next slots hinsert =>
          obtain ⟨-, rfl⟩ := Prod.mk.inj h
          exact ⟨Option.not_isSome_iff_eq_none.1 hfree, slots, hinsert, rfl⟩
      · cases h

/-- **A transaction that is refused changes nothing.** -/
theorem allocate_of_error {e : AllocError} (h : (table.allocate id peer).value = (.error e, table')) :
    table' = table := by
  rw [allocate] at h
  split at h
  · exact (Prod.mk.inj h).2.symm
  · split at h
    · cases h
    · exact (Prod.mk.inj h).2.symm

theorem live_allocate (h : (table.allocate id peer).value = (.ok (), table')) :
    table.get? id = none ∧ ∃ front back, table.live = front ++ back
      ∧ table'.live = front ++ .new id peer :: back := by
  obtain ⟨hfree, slots, hinsert, rfl⟩ := slots_allocate h
  obtain ⟨front, back, rfl, hslots | ⟨hslots, rfl, -⟩⟩ := Slots.split_of_insert? hinsert
  · exact ⟨hfree, Slots.occupants front, Slots.occupants back, by simp [live, hslots],
      by simp [live]⟩
  · exact ⟨hfree, Slots.occupants front, [], by simp [live, hslots], by simp [live]⟩

theorem get?_allocate (h : (table.allocate id peer).value = (.ok (), table')) (k : MessageId) :
    table'.get? k = if k = id then some (.new id peer) else table.get? k := by
  obtain ⟨hfree, front, back, hlive, hlive'⟩ := live_allocate h
  rw [get?_eq_none_iff, hlive] at hfree
  rw [get?_of_live hlive' (fun u hu => hfree u (List.mem_append_left _ hu)) k]
  show (if k = id then _ else _) = _
  split
  · rfl
  · rw [get?_eq_find?, hlive]

/-- Replacing the first transaction with an id, or freeing its place. -/
theorem split_of_get? (h : table.get? id = some t) :
    t.id = id ∧ ∃ front back : Slots Transaction, table.slots = front ++ some t :: back
      ∧ (∀ u ∈ front.occupants, u.id ≠ id)
      ∧ ∀ new, table.slots.update (·.id == id) new = front ++ new :: back := by
  obtain ⟨hid, front, back, hslots, hfirst, hupdate⟩ := Slots.split_of_find? h
  exact ⟨beq_iff_eq.1 hid, front, back, hslots,
    fun u hu => beq_eq_false_iff_ne.1 (hfirst u hu), hupdate⟩

theorem value_send (table : TransactionTable) (id : MessageId) (msg : Message) (con : Con)
    (now : Millis) :
    (table.send id msg con now).value
      = match table.get? id with
        | none => (.error .unknown, table)
        | some t =>
          match RetryTimer.new now con.unacked con.maxAttempts with
          | .error e => (.error (.delay e), table)
          | .ok timer => (.ok (), { table with
              slots := table.slots.update (·.id == id)
                (some (t.sent msg.token { msg with id := id }.encode timer)) }) := by
  rw [send]
  cases table.get? id with
  | none => rfl
  | some t => cases RetryTimer.new now con.unacked con.maxAttempts <;> rfl

/-- **A request that is refused changes nothing.** -/
theorem send_of_error {e : SendError}
    (h : (table.send id msg con now).value = (.error e, table')) : table' = table := by
  rw [value_send] at h
  split at h
  · exact (Prod.mk.inj h).2.symm
  · split at h
    · exact (Prod.mk.inj h).2.symm
    · cases h

/-- Sending starts a timer and replaces the transaction with the id, which has to be there. -/
theorem live_send (h : (table.send id msg con now).value = (.ok (), table')) :
    ∃ t timer, t.id = id ∧ table.get? id = some t
      ∧ RetryTimer.new now con.unacked con.maxAttempts = .ok timer
      ∧ ∃ front back, table.live = front ++ t :: back ∧ (∀ u ∈ front, u.id ≠ id)
        ∧ table'.live = front ++ t.sent msg.token { msg with id := id }.encode timer :: back := by
  rw [value_send] at h
  split at h
  · cases h
  · next t ht =>
      split at h
      · cases h
      · next timer htimer =>
          obtain ⟨hid, front, back, hslots, hfirst, hupdate⟩ := split_of_get? ht
          obtain ⟨-, rfl⟩ := Prod.mk.inj h
          exact ⟨t, timer, hid, ht, htimer, front.occupants, back.occupants,
            by simp [live, hslots], hfirst, by simp [live, hupdate]⟩

/-- Sending moves nothing to another place. -/
theorem places_send (h : (table.send id msg con now).value = (.ok (), table')) :
    table'.capacity = table.capacity ∧ table'.slots.length = table.slots.length := by
  rw [value_send] at h
  split at h
  · cases h
  · split at h
    · cases h
    · obtain ⟨-, rfl⟩ := Prod.mk.inj h
      exact ⟨rfl, Slots.length_update ..⟩

theorem get?_send (h : (table.send id msg con now).value = (.ok (), table')) :
    ∃ t timer, table.get? id = some t
      ∧ RetryTimer.new now con.unacked con.maxAttempts = .ok timer
      ∧ ∀ k, table'.get? k
        = if k = id then some (t.sent msg.token { msg with id := id }.encode timer)
          else table.get? k := by
  obtain ⟨t, timer, hid, ht, htimer, front, back, hlive, hfirst, hlive'⟩ := live_send h
  subst hid
  refine ⟨t, timer, ht, htimer, fun k => ?_⟩
  rw [get?_of_live hlive' hfirst k, get?_of_live hlive hfirst k]
  show (if k = t.id then _ else _) = _
  split <;> rfl

/-- A transaction that is over leaves the table when its outcome is taken. -/
theorem live_take {outcome : Option Response} (ht : table.get? id = some t)
    (hstatus : t.status = .complete outcome) :
    (table.take id).1 = .done outcome
      ∧ ∃ front back, table.live = front ++ t :: back ∧ (table.take id).2.live = front ++ back := by
  obtain ⟨hid, front, back, hslots, hfirst, hupdate⟩ := split_of_get? ht
  have htake : table.take id
      = (.done outcome, { table with slots := table.slots.update (·.id == id) none }) := by
    rw [take, ht]
    simp only [hstatus]
  rw [htake]
  exact ⟨rfl, front.occupants, back.occupants, by simp [live, hslots], by simp [live, hupdate]⟩

/-- Taking an outcome frees a place at most. -/
theorem places_take (table : TransactionTable) (id : MessageId) :
    (table.take id).2.capacity = table.capacity
      ∧ (table.take id).2.slots.length = table.slots.length := by
  rw [take]
  split
  · exact ⟨rfl, rfl⟩
  · split
    · exact ⟨rfl, Slots.length_update ..⟩
    · exact ⟨rfl, rfl⟩

theorem take_of_none (h : table.get? id = none) : table.take id = (.done none, table) := by
  rw [take, h]

theorem take_of_inFlight (ht : table.get? id = some t) (hover : t.isOver = false) :
    table.take id = (.inFlight, table) := by
  rw [take, ht]
  cases hstatus : t.status with
  | complete => simp [Transaction.isOver, hstatus] at hover
  | fresh => simp only [hstatus]
  | pending => simp only [hstatus]

/-- **Taking** leaves the table as it is, unless the transaction with the id is over. -/
theorem take_cases (table : TransactionTable) (id : MessageId) :
    ((table.take id).2 = table ∧ ∀ t ∈ table.get? id, t.isOver = false)
      ∨ ∃ t outcome, table.get? id = some t ∧ t.status = .complete outcome := by
  cases ht : table.get? id with
  | none => exact .inl ⟨by rw [take_of_none ht], by simp⟩
  | some t =>
      cases hover : t.isOver with
      | false => exact .inl ⟨by rw [take_of_inFlight ht hover], by simpa using hover⟩
      | true =>
          obtain ⟨outcome, hstatus⟩ := Transaction.isOver_iff.1 hover
          exact .inr ⟨t, outcome, rfl, hstatus⟩

theorem get?_take (h : table.Distinct) {outcome : Option Response} (ht : table.get? id = some t)
    (hstatus : t.status = .complete outcome) (k : MessageId) :
    (table.take id).2.get? k = if k = id then none else table.get? k := by
  obtain ⟨-, front, back, hlive, hlive'⟩ := live_take ht hstatus
  obtain ⟨hfront, hback⟩ := h.cut hlive
  obtain rfl := (mem_live_of_get? ht).2
  by_cases hk : k = t.id
  · subst hk
    rw [if_pos rfl, get?_eq_none_iff, hlive']
    intro u hu
    rcases List.mem_append.1 hu with hu | hu
    · exact hfront u hu
    · exact hback u hu
  · rw [if_neg hk, get?_of_live hlive hfront k, if_neg hk, get?_eq_find?, hlive']

theorem live_cancel (table : TransactionTable) (id : MessageId) :
    (table.cancel id).live = table.live.filter (·.id != id) :=
  Slots.occupants_erase table.slots _

theorem get?_cancel (table : TransactionTable) (id k : MessageId) :
    (table.cancel id).get? k = if k = id then none else table.get? k := by
  rw [get?_eq_find?, get?_eq_find?, live_cancel, List.find?_filter]
  split
  · next hk =>
      subst hk
      simp
  · next hk =>
      congr 1
      funext u
      by_cases hu : u.id = k
      · simp [hu, hk]
      · simp [hu]

theorem cancel_of_none (h : table.get? id = none) : table.cancel id = table := by
  have hothers : ∀ t ∈ table.live, (t.id == id) = false := by
    simpa using get?_eq_none_iff.1 h
  rw [cancel, Slots.erase_eq_self hothers]

/-! ## Operations on all transactions -/

theorem live_pollRetransmit (table : TransactionTable) (now : Millis) :
    (table.pollRetransmit now).value.live = table.live.map fun t => (t.poll now).value := by
  rw [live, live, ← Slots.occupants_map]
  show Slots.occupants (List.map _ table.slots) = _
  congr 2
  funext place
  cases place <;> rfl

theorem trace_pollRetransmit (table : TransactionTable) (now : Millis) :
    (table.pollRetransmit now).trace = table.live.flatMap fun t => (t.poll now).trace := by
  rw [live, ← Slots.flatMap_elim]
  simp only [pollRetransmit, Traced.trace_bind, Traced.trace_each, Traced.trace_pure,
    List.append_nil]
  congr 1
  funext place
  cases place <;> simp

theorem length_pollRetransmit (table : TransactionTable) (now : Millis) :
    (table.pollRetransmit now).value.slots.length = table.slots.length :=
  List.length_map _

theorem get?_pollRetransmit (table : TransactionTable) (now : Millis) (k : MessageId) :
    (table.pollRetransmit now).value.get? k = (table.get? k).map fun t => (t.poll now).value := by
  rw [get?_eq_find?, get?_eq_find?, live_pollRetransmit, List.find?_map]
  congr 2
  funext t
  simp [Transaction.id_poll]

/-! ## Inbound messages -/

/-- **A message is credited to the first transaction that awaits it**, or to none if there is no
such transaction. The transaction is replaced in its place. -/
theorem slots_onResponse {answer : Option MessageId}
    (h : (table.onResponse msg con now).value = .ok (answer, table')) :
    (answer = none ∧ table' = table ∧ ∀ t ∈ table.live, t.awaits msg = false)
      ∨ ∃ t t' front back, answer = some t.id ∧ t.awaits msg = true
        ∧ (t.receive msg con now).value = .ok t' ∧ table.slots = front ++ some t :: back
        ∧ (∀ u ∈ Slots.occupants front, u.awaits msg = false)
        ∧ table' = { table with slots := front ++ some t' :: back } := by
  rw [onResponse] at h
  split at h
  · next hnone =>
      obtain ⟨rfl, rfl⟩ := Prod.mk.inj (Except.ok.inj h)
      exact .inl ⟨rfl, rfl, by simpa [Slots.find?, live, List.find?_eq_none] using hnone⟩
  · next t ht =>
      obtain ⟨hawaits, front, back, hslots, hfirst, hupdate⟩ := Slots.split_of_find? ht
      simp only [Traced.value_bind] at h
      split at h
      · cases h
      · next t' ht' =>
          obtain ⟨rfl, rfl⟩ := Prod.mk.inj (Except.ok.inj h)
          exact .inr ⟨t, t', front, back, rfl, hawaits, ht', hslots, hfirst, by rw [hupdate]⟩

theorem onResponse_cases {answer : Option MessageId}
    (h : (table.onResponse msg con now).value = .ok (answer, table')) :
    (answer = none ∧ table' = table ∧ ∀ t ∈ table.live, t.awaits msg = false)
      ∨ ∃ t t' front back, answer = some t.id ∧ t.awaits msg = true
        ∧ (t.receive msg con now).value = .ok t'
        ∧ table.live = front ++ t :: back ∧ (∀ u ∈ front, u.awaits msg = false)
        ∧ table'.live = front ++ t' :: back := by
  rcases slots_onResponse h with
    hnone | ⟨t, t', front, back, hanswer, hawaits, ht', hslots, hfirst, rfl⟩
  · exact .inl hnone
  · exact .inr ⟨t, t', Slots.occupants front, Slots.occupants back, hanswer, hawaits, ht',
      by simp [live, hslots], hfirst, by simp [live]⟩

/-- A message moves nothing to another place. -/
theorem places_onResponse {answer : Option MessageId}
    (h : (table.onResponse msg con now).value = .ok (answer, table')) :
    table'.capacity = table.capacity ∧ table'.slots.length = table.slots.length := by
  rcases slots_onResponse h with ⟨-, rfl, -⟩ | ⟨t, t', front, back, -, -, -, hslots, -, rfl⟩
  · exact ⟨rfl, rfl⟩
  · exact ⟨rfl, by simp [hslots]⟩

/-- For each id a message changes nothing, or the transaction with that id receives it. -/
theorem get?_onResponse {answer : Option MessageId}
    (h : (table.onResponse msg con now).value = .ok (answer, table')) (k : MessageId) :
    table'.get? k = table.get? k
      ∨ ∃ t t', table.get? k = some t ∧ answer = some k ∧ t.awaits msg = true
        ∧ (t.receive msg con now).value = .ok t' ∧ table'.get? k = some t' := by
  rcases onResponse_cases h with
    ⟨-, rfl, -⟩ | ⟨t, t', front, back, rfl, hawaits, ht', hlive, -, hlive'⟩
  · exact .inl rfl
  · have hid := Transaction.id_receive ht'
    rw [get?_eq_find?, get?_eq_find?, hlive, hlive', List.find?_append, List.find?_append,
      List.find?_cons, List.find?_cons, hid]
    -- an earlier transaction with the id would be found before and after
    cases hfront : front.find? (·.id == k) with
    | some u => exact .inl rfl
    | none =>
        cases hk : t.id == k with
        | false => exact .inl rfl
        | true => exact .inr ⟨t, t', rfl, by rw [beq_iff_eq.1 hk], hawaits, ht', rfl⟩

end CoapNode.TransactionTable
