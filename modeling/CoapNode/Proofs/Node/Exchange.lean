import CoapNode.Proofs.Node.Turn
import CoapNode.Proofs.Transaction.Places

set_option autoImplicit false

/-! # What making requests does to the places of a node

A node is an exchange: requests are entered, sent, awaited and dropped through it. One lemma for
each of these says who holds the places of the table of transactions afterwards
(`OccupiedBy.node_allocate` to `OccupiedBy.node_cancel_of_unused`), whether or not the node
succeeds. A request that is entered holds one place more, one that is over or dropped holds its
place no longer, and everything that happens to the node while an answer is awaited leaves the
places alone. A request for which there is no room uses up an id (`Node.allocate_of_crowded`).
-/

namespace CoapNode.TransactionTable.OccupiedBy

variable {σ χ κ ω ε δ : Type} [Socket σ ε] [SecureChannel χ δ] [Clock κ]
  {node : Node σ χ κ ω} {held rest : List (MessageId × Endpoint)}
  {id : MessageId} {peer : Endpoint}

theorem node_nextId (h : node.layer.transactions.OccupiedBy held) :
    (Exchange.nextId node).2.layer.transactions.OccupiedBy held :=
  h.passes (.of_step .nextId rfl rfl)

/-- A chosen id can be entered, unless there is no room. -/
theorem node_allocate_ne_inUse (hroom : node.layer.transactions.size < 65536) (peer : Endpoint) :
    (Exchange.allocate (Exchange.nextId node).2 (Exchange.nextId node).1 peer).value.1
      ≠ .error .inUse := by
  have hfree : (Exchange.nextId node).2.layer.transactions.get? (Exchange.nextId node).1 = none :=
    get?_nextId hroom
  exact allocate_ne_inUse hfree peer

/-- **Entering a request** wins it a place, or leaves the places alone. -/
theorem node_allocate (h : node.layer.transactions.OccupiedBy held)
    (id : MessageId) (peer : Endpoint) :
    let entered := (Exchange.allocate node id peer).value
    (∃ e, entered.1 = .error e ∧ entered.2.layer.transactions.OccupiedBy held)
      ∨ entered.1 = .ok () ∧ entered.2.layer.transactions.OccupiedBy
          (held ++ [(id, peer)]) := by
  show (∃ e, (node.layer.transactions.allocate id peer).value.1 = .error e
      ∧ (node.layer.transactions.allocate id peer).value.2.OccupiedBy held)
    ∨ (node.layer.transactions.allocate id peer).value.1 = .ok ()
      ∧ (node.layer.transactions.allocate id peer).value.2.OccupiedBy
        (held ++ [(id, peer)])
  cases halloc : (node.layer.transactions.allocate id peer).value with
  | mk result table =>
      cases result with
      | error e => exact .inl ⟨e, rfl, allocate_of_error halloc ▸ h⟩
      | ok => exact .inr ⟨rfl, h.allocate halloc⟩

/-- **Sending a request** leaves the places alone. -/
theorem node_send (h : node.layer.transactions.OccupiedBy held)
    (id : MessageId) (req : Request) :
    (Exchange.send node id req).value.2.layer.transactions.OccupiedBy held := by
  show (node.layer.send id req).value.2.transactions.OccupiedBy held
  rw [MessageLayer.send]
  rcases Clock.now node.layer.clock with ⟨_ | now, clock⟩
  · exact h
  · -- a token may be chosen before the request is sent
    have hbefore : OccupiedBy held
        (if req.message.token.isEmpty then node.layer.transactions.nextToken
          else (req.message.token, node.layer.transactions)).2 := by
      split
      · exact h.nextToken
      · exact h
    exact hbefore.send id _ _ now

/-- **Awaiting the outcome of a request**: if the node fails, and as long as there is no outcome,
the places stay as they are; once there is one, the request has lost its place. -/
theorem node_poll (h : node.layer.transactions.OccupiedBy (rest ++ [(id, peer)])) :
    let polled := (Exchange.poll node id).value
    (∃ e, polled.1 = .error e
        ∧ polled.2.layer.transactions.OccupiedBy (rest ++ [(id, peer)]))
      ∨ (polled.1 = .ok .inFlight
        ∧ polled.2.layer.transactions.OccupiedBy (rest ++ [(id, peer)]))
      ∨ ∃ outcome, polled.1 = .ok (.done outcome)
        ∧ polled.2.layer.transactions.OccupiedBy rest := by
  have hturn := h.passes (node.passes_pollWith .idle)
  simp only [Exchange.poll, Node.poll, Traced.value_bind]
  split
  · next e next hpoll =>
      rw [hpoll] at hturn
      exact .inl ⟨e, rfl, hturn⟩
  · next next hpoll =>
      rw [hpoll] at hturn
      rcases hturn.take with htake | ⟨outcome, htake, hrest⟩
      · rw [Traced.value_pure, htake]
        exact .inr (.inl ⟨rfl, hturn⟩)
      · exact .inr (.inr ⟨outcome, congrArg Except.ok htake, hrest⟩)

/-- Awaiting a request that is not in the table leaves the places alone. Unless the node fails, the
outcome is that there is no response. -/
theorem node_poll_of_unused (h : node.layer.transactions.OccupiedBy held)
    (hunused : node.layer.transactions.get? id = none) :
    let polled := (Exchange.poll node id).value
    ((∃ e, polled.1 = .error e) ∨ polled.1 = .ok (.done none))
      ∧ polled.2.layer.transactions.OccupiedBy held := by
  have hpasses := node.passes_pollWith .idle
  have hturn := h.passes hpasses
  rw [get?_eq_none_iff_holders, ← hpasses.holders_eq, ← get?_eq_none_iff_holders] at hunused
  simp only [Exchange.poll, Node.poll, Traced.value_bind]
  split
  · next e next hpoll =>
      rw [hpoll] at hturn
      exact ⟨.inl ⟨e, rfl⟩, hturn⟩
  · next next hpoll =>
      rw [hpoll] at hturn hunused
      rw [Traced.value_pure, take_of_none hunused]
      exact ⟨.inr rfl, hturn⟩

/-- **Dropping a request** costs it its place. -/
theorem node_cancel (h : node.layer.transactions.OccupiedBy (rest ++ [(id, peer)])) :
    (Exchange.cancel node id).layer.transactions.OccupiedBy rest :=
  h.cancel

/-- Dropping a request that is not in the table changes nothing. -/
theorem node_cancel_of_unused (h : node.layer.transactions.OccupiedBy held)
    (hunused : node.layer.transactions.get? id = none) :
    (Exchange.cancel node id).layer.transactions.OccupiedBy held := by
  show (node.layer.transactions.cancel id).OccupiedBy held
  rw [cancel_of_none hunused]
  exact h

end CoapNode.TransactionTable.OccupiedBy

/-! ## A node without room -/

namespace CoapNode.Node

open TransactionTable

variable {σ χ κ ω ε δ : Type} {node : Node σ χ κ ω} {n : Nat}

/-- The node when as many message ids have been used up. -/
def skip (node : Node σ χ κ ω) (n : Nat) : Node σ χ κ ω :=
  { node with
    layer := { node.layer with
      transactions := { node.layer.transactions with
        counter := node.layer.transactions.counter + UInt16.ofNat n } } }

/-- **A node has no room** for another transaction: all places are taken. The next `n` ids belong to
none of the transactions. -/
structure Crowded (node : Node σ χ κ ω) (n : Nat) : Prop where
  fits : node.layer.transactions.slots.length ≤ node.layer.transactions.capacity
  full : node.layer.transactions.size = node.layer.transactions.capacity
  few : node.layer.transactions.size < 65536
  unused : ∀ j < n,
    node.layer.transactions.get? (node.layer.transactions.counter + UInt16.ofNat j) = none

theorem skip_zero (node : Node σ χ κ ω) : node.skip 0 = node := by
  simp [skip]

theorem skip_skip (node : Node σ χ κ ω) (n : Nat) : (node.skip 1).skip n = node.skip (n + 1) := by
  have hcounter := succ_add_ofNat node.layer.transactions.counter n
  simp only [skip]
  rw [← hcounter]
  rfl

theorem Crowded.skip (h : node.Crowded (n + 1)) : (node.skip 1).Crowded n where
  fits := h.fits
  full := h.full
  few := h.few
  unused j hj := by
    show node.layer.transactions.get? (node.layer.transactions.counter + 1 + UInt16.ofNat j) = none
    rw [succ_add_ofNat]
    exact h.unused (j + 1) (Nat.succ_lt_succ hj)

variable [Socket σ ε] [SecureChannel χ δ] [Clock κ]

theorem nextId_of_crowded (h : node.Crowded (n + 1)) :
    Exchange.nextId node = (node.layer.transactions.counter, node.skip 1) := by
  have hskipped : node.layer.transactions.skipped = 0 := by
    by_contra hne
    have hused := (skipped_spec h.few).2 0 (Nat.pos_of_ne_zero hne)
    rw [h.unused 0 (Nat.zero_lt_succ n)] at hused
    cases hused
  have hnext : node.layer.transactions.nextId
      = (node.layer.transactions.counter, (node.skip 1).layer.transactions) := by
    rw [nextId_eq, hskipped]
    simp [Node.skip]
  show (node.layer.transactions.nextId.1, { node with
    layer := { node.layer with transactions := node.layer.transactions.nextId.2 } }) = _
  rw [hnext]
  rfl

/-- **A request for which there is no room** has been given an id, and the node is left as it is. -/
theorem allocate_of_crowded (h : node.Crowded (n + 1)) (peer : Endpoint) :
    (Exchange.allocate (node.skip 1) node.layer.transactions.counter peer).value
      = (.error .full, node.skip 1) := by
  have hfree : (node.skip 1).layer.transactions.get? node.layer.transactions.counter = none := by
    have hcounter := h.unused 0 (Nat.zero_lt_succ n)
    rw [show UInt16.ofNat 0 = 0 from rfl, UInt16.add_zero] at hcounter
    exact hcounter
  have hfits : (node.skip 1).layer.transactions.slots.length
      ≤ (node.skip 1).layer.transactions.capacity := h.fits
  have hresult : ((node.skip 1).layer.transactions.allocate node.layer.transactions.counter
      peer).value = (.error .full, (node.skip 1).layer.transactions) := by
    rcases value_allocate_cases hfits node.layer.transactions.counter peer with
      ⟨-, t, ht, hid⟩ | ⟨hfull, -⟩ | ⟨-, -, -, -, hroom⟩
    · exact absurd hid (get?_eq_none_iff.1 hfree t ht)
    · exact hfull
    · exact absurd h.full (Nat.ne_of_lt hroom)
  simp [Exchange.allocate, hresult]

end CoapNode.Node
