import CoapNode.Transaction.Table

set_option autoImplicit false

/-! # The life of one transaction

What a message and a moment make of a transaction, by cases (`receive_cases`, `poll_cases`).
Neither changes the message id, the peer or the token. A transaction that is not pending is left
alone by a moment, and messages are received for those that are pending only.
-/

namespace CoapNode.Transaction

variable {t t' : Transaction} {msg : Message} {con : Con} {now : Millis}

/-- Is the transaction over, with a response or without? -/
def isOver (t : Transaction) : Bool :=
  match t.status with
  | .complete _ => true
  | _ => false

theorem isOver_iff : t.isOver = true ↔ ∃ outcome, t.status = .complete outcome := by
  rw [isOver]
  cases t.status <;> simp

theorem isPending_iff : t.isPending = true ↔ t.status = .pending := by
  rw [isPending, beq_iff_eq]

theorem not_isPending_of_isOver (h : t.isOver = true) : t.isPending = false := by
  obtain ⟨outcome, hstatus⟩ := isOver_iff.1 h
  rw [isPending, hstatus]
  rfl

theorem isPending_of_awaits (h : t.awaits msg = true) : t.isPending = true :=
  ((Bool.and_eq_true _ _).mp h).1

theorem answeredBy_of_awaits (h : t.awaits msg = true) : t.answeredBy msg = true :=
  ((Bool.and_eq_true _ _).mp h).2

theorem answeredBy_iff :
    t.answeredBy msg = true
      ↔ (msg.kind = .ack ∨ msg.kind = .reset) ∧ msg.id = t.id
        ∨ msg.token.isEmpty = false ∧ t.token? = some msg.token := by
  simp [answeredBy, eq_comm (a := some msg.token)]

/-- **What a message makes of a transaction**: a reset ends it without a response, an
acknowledgement without a code starts its timer anew, and any other message is its response. -/
theorem receive_cases (h : (t.receive msg con now).value = .ok t') :
    (msg.kind = .reset ∧ t' = t.complete none)
      ∨ (msg.kind = .ack ∧ msg.code.isEmpty = true
          ∧ ∃ timer, RetryTimer.new now con.acked con.maxAttempts = .ok timer
            ∧ t' = t.acknowledge timer)
      ∨ (msg.kind ≠ .reset ∧ ¬(msg.kind = .ack ∧ msg.code.isEmpty = true)
          ∧ t' = t.complete (some ⟨msg⟩)) := by
  rw [receive] at h
  split at h
  · next hreset => exact .inl ⟨hreset, (Except.ok.inj h).symm⟩
  · next hreset =>
      split at h
      · next hack =>
          refine .inr (.inl ⟨hack.1, hack.2, ?_⟩)
          simp only [Traced.value_bind, Traced.value_pure] at h
          cases htimer : RetryTimer.new now con.acked con.maxAttempts with
          | error e => simp [htimer, Except.map] at h
          | ok timer =>
              refine ⟨timer, rfl, ?_⟩
              simpa [htimer, Except.map] using h.symm
      · next hack => exact .inr (.inr ⟨hreset, hack, (Except.ok.inj h).symm⟩)

/-- A message is always received if a timer can be started. -/
theorem exists_receive (h : ∃ timer, RetryTimer.new now con.acked con.maxAttempts = .ok timer)
    (t : Transaction) (msg : Message) : ∃ t', (t.receive msg con now).value = .ok t' := by
  obtain ⟨timer, htimer⟩ := h
  rw [receive]
  split
  · exact ⟨_, rfl⟩
  · split
    · exact ⟨t.acknowledge timer, by simp [htimer, Except.map]⟩
    · exact ⟨_, rfl⟩

/-- **What a moment makes of a transaction**: nothing, or it moves the timer of a pending
transaction, or it ends a pending transaction without a response. -/
theorem poll_cases (now : Millis) (t : Transaction) :
    (t.poll now).value = t
      ∨ t.isPending = true
        ∧ ((∃ timer, (t.poll now).value = { t with retry? := some timer })
          ∨ (t.poll now).value = t.complete none) := by
  rw [poll]
  split
  · next retry hpending _ =>
      split
      · exact .inl rfl
      · next timer _ =>
          -- whether the packet is sent again makes no difference to the transaction
          refine .inr ⟨isPending_iff.2 hpending, .inl ⟨timer, ?_⟩⟩
          cases t.acked <;> rfl
      · exact .inr ⟨isPending_iff.2 hpending, .inr rfl⟩
  · exact .inl rfl

/-- Nothing happens to a transaction that is not pending. -/
theorem poll_of_not_isPending (h : t.isPending = false) : t.poll now = pure t := by
  rw [poll]
  split
  · next hpending _ => simp [isPending, hpending] at h
  · rfl

theorem id_receive (h : (t.receive msg con now).value = .ok t') : t'.id = t.id := by
  rcases receive_cases h with ⟨-, rfl⟩ | ⟨-, -, timer, -, rfl⟩ | ⟨-, -, rfl⟩ <;> rfl

theorem id_poll (now : Millis) (t : Transaction) : (t.poll now).value.id = t.id := by
  rcases poll_cases now t with h | ⟨-, ⟨timer, h⟩ | h⟩
  · rw [h]
  · rw [h]
  · rw [h, complete]

end CoapNode.Transaction
