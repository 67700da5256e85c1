import CoapNode.Blockwise.Client
import CoapNode.Proofs.Node.Exchange

set_option autoImplicit false

/-! # What a fetch holds

A fetch that waits holds one place of the table of transactions of its node (`Fetch.held`), and
`Fetch.Accounted` says that this, next to what is held otherwise, is all that the table holds.
Asking for a block, being told of an outcome and being stopped keep this account, on every path that
they can take. So a client that drives a fetch to its end leaves the table as it found it
(`Fetch.settled_send`).
-/

namespace CoapNode

open TransactionTable

variable {σ χ κ ω ε δ : Type}

namespace Fetch

/-- The place that a fetch holds: while it waits, the one of the transaction that it waits for. -/
def held (fetch : Fetch) : List (MessageId × Endpoint) :=
  match fetch.state with
  | .awaiting id => [(id, fetch.peer)]
  | _ => []

/-- **A fetch accounts for the table**: its places are held by the others that are given, and by
the fetch. The fetch has not been refused an id for being in use. -/
structure Accounted (others : List (MessageId × Endpoint)) (fetch : Fetch)
    (node : Node σ χ κ ω) : Prop where
  places : node.layer.transactions.OccupiedBy (others ++ fetch.held)
  not_inUse : fetch.state ≠ .failed (.transactionUnavailable .inUse)

variable {others : List (MessageId × Endpoint)} {fetch : Fetch}
  {node : Node σ χ κ ω} {id : MessageId}

theorem held_awaiting (h : fetch.state = .awaiting id) : fetch.held = [(id, fetch.peer)] := by
  rw [held, h]

theorem held_of_ne (h : ∀ id, fetch.state ≠ .awaiting id) : fetch.held = [] := by
  rw [held]
  split
  · next id hid => exact absurd hid (h id)
  · rfl

/-- A fetch that waits for nothing holds nothing. -/
theorem accounted_enter {state : State} (hstate : ∀ id, state ≠ .awaiting id)
    (hinUse : state ≠ .failed (.transactionUnavailable .inUse))
    (h : node.layer.transactions.OccupiedBy others) :
    Accounted others (fetch.enter state) node where
  places := by
    rw [held_of_ne hstate, List.append_nil]
    exact h
  not_inUse := hinUse

/-- Neither does one that has ended without a response. -/
theorem accounted_noResponse (h : node.layer.transactions.OccupiedBy others) :
    Accounted others (fetch.enter (.failed .noResponse)) node :=
  accounted_enter (by simp) (by simp) h

theorem peer_aim (fetch : Fetch) : fetch.aim.peer = fetch.peer := by
  rw [aim]
  split <;> rfl

variable [Socket σ ε] [SecureChannel χ δ] [Clock κ]

/-- **Asking for a block** wins the fetch a place if it waits afterwards, and else none: if the
request could not be entered there is none, and if it could not be sent it is dropped again. -/
theorem accounted_requestBlock (h : node.layer.transactions.OccupiedBy others)
    (hroom : node.layer.transactions.size < 65536) (fetch : Fetch) :
    Accounted others (fetch.requestBlock node).value.1 (fetch.requestBlock node).value.2
      ∧ (fetch.requestBlock node).value.1.state ≠ .idle := by
  have hinUse := OccupiedBy.node_allocate_ne_inUse hroom fetch.peer
  have hentered := h.node_nextId.node_allocate (Exchange.nextId node).1 fetch.peer
  rw [requestBlock]
  generalize Exchange.nextId node = chosen at hinUse hentered ⊢
  obtain ⟨id, chosen⟩ := chosen
  simp only [Traced.value_bind] at hentered ⊢
  generalize (Exchange.allocate chosen id fetch.peer).value = entered at hinUse hentered ⊢
  obtain ⟨result, entered⟩ := entered
  obtain ⟨e, rfl, hplaces⟩ | ⟨rfl, hplaces⟩ := hentered
  · exact ⟨accounted_enter nofun (by simpa using hinUse) hplaces, nofun⟩
  · -- the place is won; if sending fails it is given back
    have hsent := hplaces.node_send id fetch.aim.request
    simp only [Traced.value_bind]
    generalize (Exchange.send entered id fetch.aim.request).value = sent at hsent ⊢
    obtain ⟨_ | _, sent⟩ := sent
    · exact ⟨accounted_enter nofun nofun hsent.node_cancel, nofun⟩
    · rw [← peer_aim] at hsent
      exact ⟨⟨hsent, nofun⟩, nofun⟩

/-- The place of a transaction whose outcome is there is free again, and so the fetch may ask for
another block. -/
theorem accounted_completed (hstate : fetch.state = .awaiting id)
    (h : node.layer.transactions.OccupiedBy others) (hroom : others.length < 65536)
    (outcome : Option Response) :
    let step := (fetch.resume node (.completed outcome)).value
    Accounted others step.fetch step.exchange ∧ step.fetch.state ≠ .idle := by
  rw [← h.size_eq] at hroom
  cases outcome with
  | none =>
      simp only [resume, hstate, Traced.value_bind, Traced.value_pure]
      exact ⟨accounted_noResponse h, nofun⟩
  | some resp =>
      simp only [resume, hstate, Traced.value_bind, Traced.value_pure]
      rw [proceed]
      split
      · exact ⟨accounted_enter nofun nofun h, nofun⟩
      · split
        · exact accounted_requestBlock h hroom _
        · exact ⟨accounted_enter nofun nofun h, nofun⟩

/-- Stopping gives the place back. -/
theorem Accounted.abandon (h : Accounted others fetch node) :
    Accounted others (fetch.abandon node).1 (fetch.abandon node).2 := by
  rw [Fetch.abandon]
  split
  · next id hstate =>
      have hplaces := h.places
      rw [held_awaiting hstate] at hplaces
      exact accounted_noResponse hplaces.node_cancel
  · exact h

/-- A fetch that was stopped has left the table to the others. -/
theorem Accounted.places_abandon (h : Accounted others fetch node) :
    (fetch.abandon node).2.layer.transactions.OccupiedBy others := by
  have hheld : (fetch.abandon node).1.held = [] := by
    refine held_of_ne fun id hid => ?_
    rw [Fetch.abandon] at hid
    split at hid
    · cases hid
    · next hstate => exact hstate id hid
  have hplaces := h.abandon.places
  rw [hheld, List.append_nil] at hplaces
  exact hplaces

/-- **Waiting for the outcome**: as long as there is none the fetch accounts for the table, and once
there is one the table is left to the others. -/
theorem Accounted.polled (h : Accounted others fetch node)
    (hstate : fetch.state = .awaiting id) :
    let polled := (Exchange.poll node id).value
    (∃ e, polled.1 = .error e ∧ Accounted others fetch polled.2)
      ∨ (polled.1 = .ok .inFlight ∧ Accounted others fetch polled.2)
      ∨ ∃ outcome, polled.1 = .ok (.done outcome)
        ∧ polled.2.layer.transactions.OccupiedBy others := by
  have hpolled := h.places
  rw [held_awaiting hstate] at hpolled
  rcases hpolled.node_poll with ⟨e, he, hsame⟩ | ⟨hwait, hsame⟩ | hdone
  · rw [← held_awaiting hstate] at hsame
    exact .inl ⟨e, he, hsame, h.not_inUse⟩
  · rw [← held_awaiting hstate] at hsame
    exact .inr (.inl ⟨hwait, hsame, h.not_inUse⟩)
  · exact .inr (.inr hdone)

/-! ## Driving a fetch to its end -/

/-- **A request that is over has left the table to the others.** It was started, and it has not been
refused an id for being in use. -/
structure Settled (others : List (MessageId × Endpoint))
    (outcome : Client.Outcome (Node σ χ κ ω) (NodeError ε δ)) : Prop where
  places : outcome.exchange.layer.transactions.OccupiedBy others
  started : outcome.result ≠ .error .notStarted
  not_inUse : outcome.result ≠ .error (.request (.transactionUnavailable .inUse))

/-- A fetch that waits for nothing is not driven any further. -/
theorem Accounted.settled (h : Accounted others fetch node) (hidle : fetch.state ≠ .idle)
    (hstate : ∀ id, fetch.state ≠ .awaiting id) (blocks : List Response) (patience : Nat) :
    Settled others (Client.drive fetch node blocks patience).value := by
  have hplaces := h.places
  rw [held_of_ne hstate, List.append_nil] at hplaces
  have hinUse := h.not_inUse
  unfold Client.drive
  cases hs : fetch.state with
  | idle => exact absurd hs hidle
  | awaiting id => exact absurd hs (hstate id)
  | done => exact ⟨hplaces, nofun, nofun⟩
  | failed f =>
      rw [hs] at hinUse
      exact ⟨hplaces, nofun, by simpa using hinUse⟩

/-- **Driving a fetch to its end** leaves the table to the others, however it ends. -/
theorem Accounted.drive (h : Accounted others fetch node) (hidle : fetch.state ≠ .idle)
    (hroom : others.length < 65536) (blocks : List Response) (patience : Nat) :
    Settled others (Client.drive fetch node blocks patience).value := by
  -- each turn hands on a fetch that accounts for the table, or ends with the places of the others
  induction patience generalizing fetch node blocks with
  | zero =>
      by_cases hstate : ∃ id, fetch.state = .awaiting id
      · obtain ⟨id, hid⟩ := hstate
        unfold Client.drive
        simp only [hid]
        exact ⟨h.places_abandon, nofun, nofun⟩
      · exact h.settled hidle (not_exists.1 hstate) blocks 0
  | succ patience ih =>
      by_cases hstate : ∃ id, fetch.state = .awaiting id
      · obtain ⟨id, hid⟩ := hstate
        have hpolled := h.polled hid
        unfold Client.drive
        simp only [hid, Traced.value_bind]
        generalize (Exchange.poll node id).value = polled at hpolled ⊢
        obtain ⟨result, next⟩ := polled
        obtain ⟨e, rfl, hsame⟩ | ⟨rfl, hsame⟩ | ⟨outcome, rfl, hplaces⟩ := hpolled
        · exact ⟨hsame.places_abandon, nofun, nofun⟩
        · exact ih hsame hidle blocks
        · obtain ⟨hnext, hidle'⟩ := accounted_completed hid hplaces hroom outcome
          exact ih hnext hidle' _
      · exact h.settled hidle (not_exists.1 hstate) blocks (patience + 1)

/-- **Sending a request and waiting for its response** leaves the table to those who held it. -/
theorem settled_send (h : node.layer.transactions.OccupiedBy others)
    (hroom : node.layer.transactions.size < 65536) (peer : Endpoint) (request : Request)
    (config : BlockTransfer) (patience : Nat) :
    Settled others (Client.send node peer request config patience).value := by
  obtain ⟨haccounted, hidle⟩ := accounted_requestBlock h hroom (new request peer config)
  rw [h.size_eq] at hroom
  exact haccounted.drive hidle hroom _ patience

end Fetch

end CoapNode
