import CoapNode.Node.MessageLayer
import CoapNode.Proofs.Resource.Dispatch
import CoapNode.Proofs.Transaction.Lookup

set_option autoImplicit false

/-! # What the message layer makes of a datagram

One lemma for each function through which a datagram goes, with the layer that it leaves behind
(`MessageLayer.value_handle` and the lemmas before it). Requests and pings leave the transactions
alone (`MessageLayer.get?_handle_of_not_isCredited`); every other message is credited, to one
transaction or to none (`MessageLayer.layer_handle_of_isCredited`).
-/

namespace CoapNode

/-- Is the message one that is credited to a transaction? All are but requests and pings. -/
def Message.isCredited (msg : Message) : Bool :=
  if msg.code.isEmpty then msg.kind != .con else msg.code.cls != 0

namespace MessageLayer

variable {κ ω : Type}

/-! ## What becomes of the layer

What is sent and logged on the way is left out here. The peer is in none of the right-hand sides
but as an argument of the next function.
-/

theorem get?_draft (layer : MessageLayer κ ω) (req : Request) (k : MessageId) :
    (layer.draft req).2.transactions.get? k = layer.transactions.get? k := by
  simp only [draft]
  split <;> rfl

/-- Drafting a response changes the transactions at most. -/
theorem layer_draft (layer : MessageLayer κ ω) (req : Request) :
    (layer.draft req).2
      = { layer with transactions := (layer.draft req).2.transactions } := by
  simp only [draft]
  split <;> rfl

/-- Handling a request leaves the registry as it is. -/
theorem value_handleRequest (layer : MessageLayer κ ω) (observer : Observer ω) (peer : Endpoint)
    (req : Request) :
    (layer.handleRequest observer peer req).value
      = { (layer.draft req).2 with
          world := ((layer.draft req).2.registry.dispatch observer req
            (.new req (layer.draft req).1 (layer.draft req).2.config.block.chunkSize)
            (layer.draft req).2.world).value.1.world } := by
  simp [handleRequest, Registry.registry_dispatch]

variable [Clock κ]

theorem value_handleEmpty (layer : MessageLayer κ ω) (peer : Endpoint) (msg : Message) :
    (layer.handleEmpty peer msg).value
      = if msg.kind = .con then (.ok (), layer)
        else ((layer.credit msg).value.1.map fun _ => (), (layer.credit msg).value.2) := by
  rw [handleEmpty]
  split <;> simp

theorem value_handleResponse (layer : MessageLayer κ ω) (peer : Endpoint) (msg : Message) :
    (layer.handleResponse peer msg).value
      = ((layer.credit msg).value.1.map fun _ => (), (layer.credit msg).value.2) := by
  rw [handleResponse, Traced.value_bind, Traced.value_liftM]
  rcases (layer.credit msg).value with ⟨_ | credited, next⟩
  · rfl
  · -- what is sent back makes no difference to the layer
    dsimp only
    cases msg.kind <;> cases credited <;> rfl

theorem value_handleMessage (layer : MessageLayer κ ω) (observer : Observer ω) (peer : Endpoint)
    (msg : Message) :
    (layer.handleMessage observer peer msg).value
      = if msg.code.isEmpty then (layer.handleEmpty peer msg).value
        else if msg.code.cls = 0 then
          (.ok (), (layer.handleRequest observer peer ⟨msg⟩).value)
        else (layer.handleResponse peer msg).value := by
  rw [handleMessage]
  split
  · rfl
  · split
    · simp
    · rfl

theorem value_handle (layer : MessageLayer κ ω) (observer : Observer ω) (peer : Endpoint)
    (bytes : Bytes) :
    (layer.handle observer peer bytes).value
      = match Message.parse bytes with
        | .error _ => (.ok (), layer)
        | .ok msg => (layer.handleMessage observer peer msg).value := by
  rw [handle]
  cases Message.parse bytes <;> simp

/-- **What handling a datagram can do to the layer**: nothing, or a message is credited, or a
response is drafted and the world of the resources changes. -/
theorem layer_handle_cases (layer : MessageLayer κ ω) (observer : Observer ω) (peer : Endpoint)
    (bytes : Bytes) :
    (layer.handle observer peer bytes).value.2 = layer
      ∨ (∃ msg, (layer.handle observer peer bytes).value.2 = (layer.credit msg).value.2)
      ∨ ∃ req world, (layer.handle observer peer bytes).value.2
          = { layer with transactions := (layer.draft req).2.transactions, world := world } := by
  rw [value_handle]
  cases Message.parse bytes with
  | error e => exact .inl rfl
  | ok msg =>
      dsimp only
      rw [value_handleMessage]
      split
      · rw [value_handleEmpty]
        split
        · exact .inl rfl
        · exact .inr (.inl ⟨msg, rfl⟩)
      · split
        · rw [value_handleRequest, layer_draft]
          exact .inr (.inr ⟨⟨msg⟩, _, rfl⟩)
        · rw [value_handleResponse]
          exact .inr (.inl ⟨msg, rfl⟩)

/-! ## What becomes of the transactions -/

theorem value_credit (layer : MessageLayer κ ω) (msg : Message) :
    (layer.credit msg).value
      = match Clock.now layer.clock with
        | (.error _, clock) => (.error .clock, { layer with clock := clock })
        | (.ok now, clock) =>
          match (layer.transactions.onResponse msg layer.config.con now).value with
          | .error e => (.error (.delay e), { layer with clock := clock })
          | .ok (id, transactions) =>
            (.ok id, { layer with clock := clock, transactions := transactions }) := by
  rw [credit]
  rcases Clock.now layer.clock with ⟨_ | now, clock⟩
  · rfl
  · simp only [Traced.value_bind]
    cases (layer.transactions.onResponse msg layer.config.con now).value <;> rfl

/-- **Crediting a message** leaves the table as it is, or the table receives the message at the
moment that the clock shows. -/
theorem credit_cases (layer : MessageLayer κ ω) (msg : Message) :
    (layer.credit msg).value.2.transactions = layer.transactions
      ∨ ∃ now answer, (Clock.now layer.clock).1 = .ok now
        ∧ (layer.transactions.onResponse msg layer.config.con now).value
          = .ok (answer, (layer.credit msg).value.2.transactions) := by
  rw [value_credit]
  split
  · exact .inl rfl
  · next now clock hnow =>
      split
      · exact .inl rfl
      · next answer transactions hanswer => exact .inr ⟨now, answer, by rw [hnow], hanswer⟩

theorem transactions_credit {layer : MessageLayer κ ω} {msg : Message} {now : Millis}
    {answer : Option MessageId} {table : TransactionTable}
    (hnow : (Clock.now layer.clock).1 = .ok now)
    (hanswer : (layer.transactions.onResponse msg layer.config.con now).value
      = .ok (answer, table)) :
    (layer.credit msg).value.2.transactions = table := by
  rw [value_credit]
  split
  · next hclock => simp [hclock] at hnow
  · next hclock =>
      obtain rfl : _ = now := by simpa [hclock] using hnow
      rw [hanswer]

/-- Handling a message that is credited succeeds if crediting it does. -/
theorem value_handle_of_isCredited {bytes : Bytes} {msg : Message}
    (hparse : Message.parse bytes = .ok msg) (hcredited : msg.isCredited = true)
    (layer : MessageLayer κ ω) (observer : Observer ω) (peer : Endpoint) :
    (layer.handle observer peer bytes).value
      = ((layer.credit msg).value.1.map fun _ => (), (layer.credit msg).value.2) := by
  rw [value_handle, hparse]
  dsimp only
  rw [value_handleMessage]
  rw [Message.isCredited] at hcredited
  split at hcredited
  · next hempty =>
      have hcon : msg.kind ≠ .con := by simpa using hcredited
      rw [if_pos hempty, value_handleEmpty, if_neg hcon]
  · next hempty =>
      have hcls : msg.code.cls ≠ 0 := by simpa using hcredited
      rw [if_neg hempty, if_neg hcls, value_handleResponse]

/-- A message that is credited does nothing else to the layer. -/
theorem layer_handle_of_isCredited {bytes : Bytes} {msg : Message}
    (hparse : Message.parse bytes = .ok msg) (hcredited : msg.isCredited = true)
    (layer : MessageLayer κ ω) (observer : Observer ω) (peer : Endpoint) :
    (layer.handle observer peer bytes).value.2 = (layer.credit msg).value.2 := by
  rw [value_handle_of_isCredited hparse hcredited]

/-- **A datagram that is not credited** to a transaction changes none. -/
theorem get?_handle_of_not_isCredited {bytes : Bytes}
    (h : ∀ msg, Message.parse bytes = .ok msg → msg.isCredited = false)
    (layer : MessageLayer κ ω) (observer : Observer ω) (peer : Endpoint) (k : MessageId) :
    (layer.handle observer peer bytes).value.2.transactions.get? k
      = layer.transactions.get? k := by
  rw [value_handle]
  cases hparse : Message.parse bytes with
  | error e => rfl
  | ok msg =>
      have hcredited := h msg hparse
      rw [Message.isCredited] at hcredited
      dsimp only
      rw [value_handleMessage]
      split at hcredited
      · next hempty =>
          have hcon : msg.kind = .con := by simpa using hcredited
          rw [if_pos hempty, value_handleEmpty, if_pos hcon]
      · next hempty =>
          -- a request takes an id from the counter at most
          have hcls : msg.code.cls = 0 := by simpa using hcredited
          rw [if_neg hempty, if_pos hcls, value_handleRequest]
          exact get?_draft layer ⟨msg⟩ k

end MessageLayer

end CoapNode
