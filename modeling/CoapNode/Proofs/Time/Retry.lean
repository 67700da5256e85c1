import CoapNode.Config

set_option autoImplicit false

/-! # Strategies that can be drawn from

A first delay can be drawn from a strategy exactly if its range is not empty
(`RetryStrategy.exists_drawDelay_iff`). With such strategies a retry timer can always be started.
-/

namespace CoapNode

/-- The range of the first delay is not empty. -/
def RetryStrategy.Valid (strategy : RetryStrategy) : Prop := strategy.min ≤ strategy.max

instance (strategy : RetryStrategy) : Decidable strategy.Valid :=
  inferInstanceAs (Decidable (_ ≤ _))

/-- Both strategies can be drawn from. -/
def Con.Valid (con : Con) : Prop := con.unacked.Valid ∧ con.acked.Valid

instance (con : Con) : Decidable con.Valid := inferInstanceAs (Decidable (_ ∧ _))

theorem RetryStrategy.exists_drawDelay_iff (strategy : RetryStrategy) (seed : UInt64) :
    (∃ init, strategy.drawDelay seed = .ok init) ↔ strategy.Valid := by
  rw [drawDelay, Valid]
  by_cases heq : strategy.min = strategy.max
  · simp [heq]
  · by_cases hlt : strategy.max < strategy.min
    · simp [heq, hlt, UInt64.not_le.2 hlt]
    · simp [heq, hlt, UInt64.not_lt.1 hlt]

theorem RetryTimer.exists_new {strategy : RetryStrategy} (h : strategy.Valid) (start : Millis)
    (maxAttempts : UInt16) : ∃ timer, RetryTimer.new start strategy maxAttempts = .ok timer := by
  obtain ⟨init, hinit⟩ := (strategy.exists_drawDelay_iff start).2 h
  exact ⟨_, by rw [new, hinit]⟩

end CoapNode
