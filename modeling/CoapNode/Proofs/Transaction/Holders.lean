import CoapNode.Proofs.Transaction.Choice

set_option autoImplicit false

/-! # Who holds the places of the table

Each place that is taken belongs to a request, given by its message id and its peer
(`TransactionTable.holders`). Messages that come in, time that passes and the choice of ids and
tokens leave the holders alone; a place is won by `allocate` and lost by `take` and `cancel` only.
-/

namespace CoapNode.TransactionTable

variable {table table' : TransactionTable} {op : Operation} {ops : List Operation}
  {id : MessageId} {peer : Endpoint} {msg : Message} {con : Con} {now : Millis}

/-- The message ids and peers of the transactions in the table, in the order of the places. -/
def holders (table : TransactionTable) : List (MessageId × Endpoint) :=
  table.live.map fun t => (t.id, t.peer)

theorem ids_holders (table : TransactionTable) :
    table.holders.map Prod.fst = table.live.map (·.id) := by
  rw [holders, List.map_map]
  rfl

theorem get?_eq_none_iff_holders : table.get? id = none ↔ id ∉ table.holders.map Prod.fst := by
  rw [ids_holders, get?_eq_none_iff]
  simp

theorem length_holders (table : TransactionTable) : table.holders.length = table.size :=
  List.length_map _

/-! ## Operations that concern no holder -/

theorem holders_step (hop : op.isPassive = true) (h : (table.step op).value = .ok table') :
    table'.holders = table.holders := by
  cases op with
  | nextId =>
      obtain rfl := Except.ok.inj h
      rfl
  | receive msg con now =>
      obtain ⟨answer, hanswer⟩ := step_receive h
      rcases onResponse_cases hanswer with
        ⟨-, rfl, -⟩ | ⟨t, t', front, back, -, -, ht', hlive, -, hlive'⟩
      · rfl
      · obtain ⟨hid, hpeer⟩ : t'.id = t.id ∧ t'.peer = t.peer := by
          rcases Transaction.receive_cases ht' with
            ⟨-, rfl⟩ | ⟨-, -, timer, -, rfl⟩ | ⟨-, -, rfl⟩ <;> exact ⟨rfl, rfl⟩
        rw [holders, holders, hlive, hlive', List.map_append, List.map_append, List.map_cons,
          List.map_cons, hid, hpeer]
  | poll now =>
      obtain rfl := Except.ok.inj h
      show ((table.pollRetransmit now).value.live.map _) = _
      rw [live_pollRetransmit, List.map_map]
      refine List.map_congr_left fun t _ => ?_
      show ((t.poll now).value.id, (t.poll now).value.peer) = (t.id, t.peer)
      rcases Transaction.poll_cases now t with hsame | ⟨-, ⟨timer, hmoved⟩ | hover⟩
      · rw [hsame]
      · rw [hmoved]
      · rw [hover]
        rfl
  | _ => cases hop

theorem Passes.holders_eq (h : table.Passes table') : table'.holders = table.holders := by
  obtain ⟨ops, hops, hrun⟩ := h
  exact run_invariant (P := fun _ next => next.holders = table.holders)
    (fun _ _ _ _ hop hp hstep => (holders_step (hops _ hop) hstep).trans hp) [] rfl hrun

theorem holders_send (h : (table.send id msg con now).value = (.ok (), table')) :
    table'.holders = table.holders := by
  obtain ⟨t, timer, -, -, -, front, back, hlive, -, hlive'⟩ := live_send h
  rw [holders, holders, hlive, hlive', List.map_append, List.map_append]
  rfl

/-! ## Winning and losing a place -/

/-- **The places are held by the given requests**, no two of which have the same message id. -/
structure OccupiedBy (held : List (MessageId × Endpoint)) (table : TransactionTable) : Prop where
  distinct : table.Distinct
  holders_perm : table.holders.Perm held

namespace OccupiedBy

variable {held rest : List (MessageId × Endpoint)}

theorem size_eq (h : table.OccupiedBy held) : table.size = held.length := by
  rw [← length_holders, h.holders_perm.length_eq]

theorem nodup_ids (h : table.OccupiedBy held) : (held.map Prod.fst).Nodup := by
  rw [← (h.holders_perm.map Prod.fst).nodup_iff, ids_holders]
  exact h.distinct

theorem perm {held' : List (MessageId × Endpoint)} (h : table.OccupiedBy held)
    (hperm : held.Perm held') : table.OccupiedBy held' :=
  ⟨h.distinct, h.holders_perm.trans hperm⟩

/-- Without the holder with an id, the others are left. -/
theorem filter_eq (h : table.OccupiedBy (rest ++ [(id, peer)])) :
    (rest ++ [(id, peer)]).filter (·.1 != id) = rest := by
  have hnodup := h.nodup_ids
  rw [List.map_append, List.nodup_append] at hnodup
  have hne : ∀ slot ∈ rest, (slot.1 != id) = true := fun slot hslot =>
    bne_iff_ne.2 (hnodup.2.2 slot.1 (List.mem_map_of_mem hslot) id (List.mem_singleton_self id))
  rw [List.filter_append, List.filter_eq_self.2 hne]
  simp

theorem passes (h : table.OccupiedBy held) (hpasses : table.Passes table') :
    table'.OccupiedBy held where
  distinct := hpasses.distinct h.distinct
  holders_perm := hpasses.holders_eq ▸ h.holders_perm

theorem nextToken (h : table.OccupiedBy held) :
    table.nextToken.2.OccupiedBy held where
  distinct := by
    have hstep : (table.step .nextToken).value = .ok table.nextToken.2 := rfl
    exact h.distinct.step hstep
  holders_perm := h.holders_perm

theorem allocate (h : table.OccupiedBy held)
    (halloc : (table.allocate id peer).value = (.ok (), table')) :
    table'.OccupiedBy (held ++ [(id, peer)]) where
  distinct := by
    have hstep : (table.step (.allocate id peer)).value = .ok table' := by simp [step, halloc]
    exact h.distinct.step hstep
  holders_perm := by
    obtain ⟨-, front, back, hlive, hlive'⟩ := live_allocate halloc
    have hperm : table'.holders.Perm (table.holders ++ [(id, peer)]) := by
      rw [holders, holders, hlive, hlive', List.map_append, List.map_append, List.map_cons]
      exact List.perm_middle.trans (List.perm_append_singleton _ _).symm
    exact hperm.trans (h.holders_perm.append_right _)

/-- A request that is sent, or refused to be sent, leaves the places alone. -/
theorem send (h : table.OccupiedBy held) (id : MessageId) (msg : Message) (con : Con)
    (now : Millis) : (table.send id msg con now).value.2.OccupiedBy held := by
  cases hsend : (table.send id msg con now).value with
  | mk result next =>
      cases result with
      | error e => exact send_of_error hsend ▸ h
      | ok =>
          have hstep : (table.step (.send id msg con now)).value = .ok next := by
            simp [step, hsend]
          exact ⟨h.distinct.step hstep, holders_send hsend ▸ h.holders_perm⟩

/-- **A holder that is dropped** loses its place. -/
theorem cancel (h : table.OccupiedBy (rest ++ [(id, peer)])) :
    (table.cancel id).OccupiedBy rest where
  distinct := by
    have hstep : (table.step (.cancel id)).value = .ok (table.cancel id) := rfl
    exact h.distinct.step hstep
  holders_perm := by
    have hcancel : (table.cancel id).holders = table.holders.filter (·.1 != id) := by
      rw [holders, holders, live_cancel, List.filter_map]
      rfl
    have hperm := h.holders_perm.filter (·.1 != id)
    rw [h.filter_eq] at hperm
    exact hcancel ▸ hperm

/-- **A holder whose outcome is taken** loses its place; as long as there is no outcome the table
stays as it is. -/
theorem take (h : table.OccupiedBy (rest ++ [(id, peer)])) :
    table.take id = (.inFlight, table)
      ∨ ∃ outcome, (table.take id).1 = .done outcome
        ∧ (table.take id).2.OccupiedBy rest := by
  have hmem : (id, peer) ∈ table.holders := h.holders_perm.mem_iff.2 (by simp)
  obtain ⟨t, ht, heq⟩ := List.mem_map.1 hmem
  obtain ⟨rfl, rfl⟩ := Prod.mk.inj heq
  have hget : table.get? t.id = some t := h.distinct.get?_eq_some_iff.2 ⟨ht, rfl⟩
  cases hover : t.isOver with
  | false => exact .inl (take_of_inFlight hget hover)
  | true =>
      obtain ⟨outcome, hstatus⟩ := Transaction.isOver_iff.1 hover
      obtain ⟨htake, front, back, hlive, hlive'⟩ := live_take hget hstatus
      have hstep : (table.step (.take t.id)).value = .ok (table.take t.id).2 := rfl
      refine .inr ⟨outcome, htake, h.distinct.step hstep, ?_⟩
      have hperm := h.holders_perm
      rw [holders, hlive, List.map_append, List.map_cons] at hperm
      rw [holders, hlive', List.map_append]
      exact (List.perm_middle.symm.trans (hperm.trans (List.perm_append_singleton _ _))).cons_inv

end OccupiedBy

end CoapNode.TransactionTable
