import CoapNode.Node.Basic
import CoapNode.Proofs.Node.Layer
import CoapNode.Proofs.Transaction.Run

set_option autoImplicit false

/-! # What a turn of a node does to its transactions

While a node handles datagrams and lets time pass, its table of transactions is changed by
operations on the table only: ids are chosen for answers, messages are received, and the table is
polled (`TransactionTable.Passes`). One lemma for each function from `MessageLayer.credit` up to
`Node.pollWith` says so (`Node.passes_pollWith`), whatever is received and whether or not something
fails; so what all these operations keep, a turn keeps.
-/

namespace CoapNode

open TransactionTable

namespace MessageLayer

variable {κ ω : Type}

theorem passes_draft (layer : MessageLayer κ ω) (req : Request) :
    layer.transactions.Passes (layer.draft req).2.transactions := by
  simp only [draft]
  split
  · exact .of_step .nextId rfl rfl
  · exact .refl _

variable [Clock κ]

theorem passes_credit (layer : MessageLayer κ ω) (msg : Message) :
    layer.transactions.Passes (layer.credit msg).value.2.transactions := by
  rcases layer.credit_cases msg with hsame | ⟨now, answer, -, hanswer⟩
  · rw [hsame]
    exact .refl _
  · refine .of_step (.receive msg layer.config.con now) rfl ?_
    simp [step, hanswer, Except.map]

/-- **Handling a datagram** performs passive operations on the transactions. -/
theorem passes_handle (layer : MessageLayer κ ω) (observer : Observer ω) (peer : Endpoint)
    (bytes : Bytes) :
    layer.transactions.Passes (layer.handle observer peer bytes).value.2.transactions := by
  rcases layer.layer_handle_cases observer peer bytes with h | ⟨msg, h⟩ | ⟨req, world, h⟩
  · rw [h]
    exact .refl _
  · rw [h]
    exact layer.passes_credit msg
  · rw [h]
    exact layer.passes_draft req

theorem passes_tend (layer : MessageLayer κ ω) :
    layer.transactions.Passes layer.tend.value.2.transactions := by
  rw [tend]
  rcases Clock.now layer.clock with ⟨_ | now, clock⟩
  · exact .refl _
  · -- whatever the timers of the registry do, the transactions have been polled before
    have hpoll : layer.transactions.Passes (layer.transactions.pollRetransmit now).value :=
      .of_step (.poll now) rfl rfl
    exact hpoll

end MessageLayer

namespace Node

variable {σ χ κ ω ε δ : Type} [Socket σ ε] [SecureChannel χ δ] [Clock κ]

/-- **What handling any datagram keeps, handling all of them keeps.** -/
theorem layer_drain {P : MessageLayer κ ω → Prop} {observer : Observer ω}
    (hhandle : ∀ layer peer bytes, P layer → P (layer.handle observer peer bytes).value.2)
    (node : Node σ χ κ ω) (h : P node.layer) : P (node.drain observer).value.2.layer := by
  fun_induction drain node observer with
  | case1 | case2 => exact h
  | case3 node polled told datagram transport hp handled e next hhandled =>
      have hnext : handled.value.2.layer = next.layer := by rw [hhandled]
      exact hnext ▸ hhandle node.layer datagram.peer datagram.bytes h
  | case4 node polled told datagram transport hp handled next hhandled rest ih =>
      exact ih (hhandle node.layer datagram.peer datagram.bytes h)

/-- What handling any datagram and tending keep, a turn keeps. -/
theorem layer_pollWith {P : MessageLayer κ ω → Prop} {observer : Observer ω}
    (hhandle : ∀ layer peer bytes, P layer → P (layer.handle observer peer bytes).value.2)
    (htend : ∀ layer, P layer → P layer.tend.value.2) (node : Node σ χ κ ω) (h : P node.layer) :
    P (node.pollWith observer).value.2.layer := by
  have hdrain := layer_drain hhandle node h
  rw [pollWith, Traced.value_bind]
  split
  · next hd =>
      rw [hd] at hdrain
      exact hdrain
  · next hd =>
      rw [hd] at hdrain
      exact htend _ hdrain

/-- **A turn of a node** performs passive operations on its transactions. -/
theorem passes_pollWith (node : Node σ χ κ ω) (observer : Observer ω) :
    node.layer.transactions.Passes (node.pollWith observer).value.2.layer.transactions :=
  layer_pollWith (P := fun layer => node.layer.transactions.Passes layer.transactions)
    (fun layer peer bytes h => h.trans (layer.passes_handle observer peer bytes))
    (fun layer h => h.trans layer.passes_tend) node (.refl _)

end Node

end CoapNode
