import CoapNode.Proofs.Resource.Sweep

set_option autoImplicit false

/-! # When to poll next

Whoever waits for the next deadline neither misses an activity nor polls in vain: before it a poll
does nothing, and from then on a poll disposes of the timer that it belongs to. Once the timers have
been polled the next deadline is in the future again (`Registry.Site.nextDeadline_exact`).
-/

namespace CoapNode

namespace Registry

variable {ω κ : Type} {registry next : Registry ω} {now deadline : Millis} {slot : Nat}
  {calls : List (Call ω)} {world last : ω}

/-! ## The earliest of all deadlines -/

/-- The deadlines of all timers. -/
def deadlines (registry : Registry ω) : List Millis :=
  registry.timers.filterMap fun timer => timer.map (·.timer.deadline)

theorem mem_deadlines_iff :
    deadline ∈ registry.deadlines ↔ ∃ (slot : Nat) (periodic : Periodic),
      registry.timers[slot]? = some (some periodic) ∧ periodic.timer.deadline = deadline := by
  simp only [deadlines, List.mem_filterMap, Option.map_eq_some_iff]
  constructor
  · rintro ⟨_, htimer, periodic, rfl, hdeadline⟩
    obtain ⟨slot, hslot⟩ := List.mem_iff_getElem?.1 htimer
    exact ⟨slot, periodic, hslot, hdeadline⟩
  · rintro ⟨slot, periodic, htimer, hdeadline⟩
    exact ⟨some periodic, List.mem_of_getElem? htimer, periodic, rfl, hdeadline⟩

theorem nextDeadline?_eq_min? (registry : Registry ω) :
    registry.nextDeadline? = registry.deadlines.min? := rfl

/-- The next deadline is that of a timer. -/
theorem exists_of_nextDeadline? (h : deadline ∈ registry.nextDeadline?) :
    ∃ (slot : Nat) (periodic : Periodic), registry.timers[slot]? = some (some periodic)
      ∧ periodic.timer.deadline = deadline :=
  mem_deadlines_iff.1 (List.min?_eq_some_iff.1 h).1

/-- **The next deadline is in the future exactly if no timer has expired.** -/
theorem due_eq_nil_iff :
    registry.due now = [] ↔ ∀ deadline ∈ registry.nextDeadline?, now < deadline := by
  rw [List.eq_nil_iff_forall_not_mem]
  constructor
  · intro hnone deadline hnext
    obtain ⟨slot, periodic, htimer, rfl⟩ := exists_of_nextDeadline? hnext
    by_contra hlt
    exact hnone slot (mem_due_iff_deadline.2 ⟨periodic, htimer, UInt64.not_lt.1 hlt⟩)
  · intro hfuture slot hslot
    obtain ⟨periodic, htimer, hle⟩ := mem_due_iff_deadline.1 hslot
    have hmem : periodic.timer.deadline ∈ registry.deadlines :=
      mem_deadlines_iff.2 ⟨slot, periodic, htimer, rfl⟩
    rw [nextDeadline?_eq_min?] at hfuture
    cases hnext : registry.deadlines.min? with
    | none =>
        rw [List.min?_eq_none_iff.1 hnext] at hmem
        cases hmem
    | some deadline =>
        have hmin := (List.min?_eq_some_iff.1 hnext).2 _ hmem
        exact UInt64.not_lt.2 (UInt64.le_trans hmin hle) (hfuture deadline hnext)

/-- A poll before the next deadline does nothing. -/
theorem pollTimers_of_future [Clock κ] {clock clock' : κ}
    (hnow : Clock.now clock = (.ok now, clock'))
    (hfuture : ∀ deadline ∈ registry.nextDeadline?, now < deadline) :
    registry.pollTimers clock world = pure (.ok 0, registry, clock', world) := by
  rw [pollTimers, hnow]
  dsimp only
  rw [fireAll, due_eq_nil_iff.2 hfuture, List.foldlM_nil]
  rfl

/-! ## What a poll leaves -/

/-- **The timer at a place has been disposed of**: it has been dropped, or armed for the same
resource from now on. -/
def Renewed (registry : Registry ω) (now : Millis) (slot resource : Nat) : Prop :=
  registry.timers[slot]? = some none
    ∨ ∃ period, 0 < period ∧ registry.timers[slot]? = some (some ⟨resource, ⟨now, period⟩⟩)

theorem Sweeps.renewed {slots : List Nat} {left : List (Option Periodic)}
    (h : registry.Sweeps now world slots left calls last)
    (hleft : slots.map (next.timers[·]?) = left.map some) :
    ∀ slot ∈ slots, ∀ periodic, registry.timers[slot]? = some (some periodic) →
      next.Renewed now slot periodic.resource := by
  induction h with
  | done => exact List.forall_mem_nil _
  | turn htimer _ hsettles _ ih =>
      obtain ⟨hfirst, hrest⟩ := List.cons.inj hleft
      refine List.forall_mem_cons.2 ⟨fun periodic htimer' => ?_, ih hrest⟩
      obtain rfl := Option.some.inj (Option.some.inj (htimer.symm.trans htimer'))
      cases hsettles with
      | rearmed hperiod => exact .inr ⟨_, hperiod, hfirst⟩
      | dropped => exact .inl hfirst

theorem Swept.renewed (h : registry.Swept now world next calls last) {periodic : Periodic}
    (htimer : registry.timers[slot]? = some (some periodic))
    (hle : periodic.timer.deadline ≤ now) : next.Renewed now slot periodic.resource := by
  obtain ⟨left, hsweeps, hleft⟩ := h.sweeps
  exact hsweeps.renewed hleft slot ((h.due_iff slot).2 ⟨periodic, htimer, hle⟩) periodic htimer

/-- **After a poll the next deadline is in the future**, unless the time of a clock is over. -/
theorem Swept.future (h : registry.Swept now world next calls last)
    (hfits : ∀ slot ∈ registry.due now, ∀ periodic, next.timers[slot]? = some (some periodic) →
      now.toNat + periodic.timer.period.toNat < UInt64.size) :
    ∀ deadline ∈ next.nextDeadline?, now < deadline := by
  intro deadline hnext
  obtain ⟨slot, periodic, htimer, rfl⟩ := exists_of_nextDeadline? hnext
  by_cases hslot : slot ∈ registry.due now
  · obtain ⟨before, hbefore, hle⟩ := (h.due_iff slot).1 hslot
    rcases h.renewed hbefore hle with hdropped | ⟨period, hpos, hrearmed⟩
    · cases htimer.symm.trans hdropped
    · have hfit := hfits slot hslot periodic htimer
      obtain rfl := Option.some.inj (Option.some.inj (htimer.symm.trans hrearmed))
      rw [UInt64.lt_iff_toNat_lt, Timer.toNat_deadline]
      have hpos' : 0 < period.toNat := UInt64.lt_iff_toNat_lt.1 hpos
      dsimp only at hfit ⊢
      omega
  · rw [h.other slot hslot] at htimer
    by_contra hlt
    exact hslot ((h.due_iff slot).2 ⟨periodic, htimer, UInt64.not_lt.1 hlt⟩)

namespace Site

variable [Clock κ] {site : Site κ ω} {clock : κ}

/-- **The next deadline is exactly when to poll**, in every state that is reached:

* a poll before it does nothing;
* a poll from then on drops the timer that it belongs to, or arms it again;
* after a poll, if the time of the clock suffices for the periods that have begun, the next deadline
  is in the future, so polling again at the same moment does nothing. -/
theorem nextDeadline_exact (hreached : site.Reached)
    (hnow : Clock.now site.clock = (.ok now, clock)) :
    ∃ fired next last, (site.registry.pollTimers site.clock site.world).value
        = (.ok fired, next, clock, last)
      ∧ ((∀ deadline ∈ site.registry.nextDeadline?, now < deadline) →
        site.registry.pollTimers site.clock site.world
          = pure (.ok 0, site.registry, clock, site.world))
      ∧ (∀ deadline ∈ site.registry.nextDeadline?, deadline ≤ now →
        ∃ slot periodic, site.registry.timers[slot]? = some (some periodic)
          ∧ periodic.timer.deadline = deadline
          ∧ next.Renewed now slot periodic.resource)
      ∧ ((∀ slot ∈ site.registry.due now, ∀ periodic,
            next.timers[slot]? = some (some periodic) →
            now.toNat + periodic.timer.period.toNat < UInt64.size) →
        (∀ deadline ∈ next.nextDeadline?, now < deadline)
          ∧ ∀ later later', Clock.now (κ := κ) later = (.ok now, later') →
            next.pollTimers later last = pure (.ok 0, next, later', last)) := by
  obtain ⟨capacity, hwell⟩ := hreached.wellFormed
  obtain ⟨next, calls, last, hswept, hafter, -⟩ := hwell.swept_fireAll now site.world
  have hpoll := value_pollTimers hnow site.registry site.world
  rw [hafter] at hpoll
  refine ⟨_, _, _, hpoll, pollTimers_of_future hnow, fun deadline hnext hle => ?_, fun hfits => ?_⟩
  · obtain ⟨slot, periodic, htimer, rfl⟩ := exists_of_nextDeadline? hnext
    exact ⟨slot, periodic, htimer, rfl, hswept.renewed htimer hle⟩
  · have hfuture := hswept.future hfits
    exact ⟨hfuture, fun later later' hlater => pollTimers_of_future hlater hfuture⟩

/-- Of the timers that are polled after sixty milliseconds the next one is due seven later. -/
theorem nextDeadline_exact_sampleTimers :
    sampleTimers.registry.nextDeadline? = some 7
      ∧ ∃ fired next last,
        (sampleTimers.registry.pollTimers sampleTimers.clock sampleTimers.world).value
          = (.ok fired, next, { now := 60 }, last)
        ∧ (∃ slot periodic, sampleTimers.registry.timers[slot]? = some (some periodic)
          ∧ periodic.timer.deadline = 7 ∧ next.Renewed 60 slot periodic.resource)
        ∧ next.nextDeadline? = some 67
        ∧ next.pollTimers ({ now := 60 } : Simulation.ManualClock) last
          = pure (.ok 0, next, { now := 60 }, last) := by
  have hreached : sampleTimers.Reached := ⟨4, {}, _, _, rfl⟩
  have hnext : sampleTimers.registry.nextDeadline? = some 7 := by decide +kernel
  have hnow : Clock.now sampleTimers.clock = (.ok 60, { now := 60 }) := rfl
  obtain ⟨fired, next, last, hpoll, -, hdue, hagain⟩ := nextDeadline_exact hreached hnow
  let after := Firing.afterAll 60 ⟨sampleTimers.registry, sampleTimers.world, 0⟩ [3, 1, 2, 0]
  obtain ⟨-, rfl, -, -⟩ : _ ∧ after.registry = next ∧ _ ∧ _ := by
    simpa only [Prod.mk.injEq] using pollTimers_sampleTimers.symm.trans hpoll
  have hfits : ∀ timer ∈ after.registry.timers, ∀ periodic ∈ timer,
      (60 : Millis).toNat + periodic.timer.period.toNat < UInt64.size := by
    decide +kernel
  obtain ⟨-, hidle⟩ := hagain fun slot _ periodic htimer =>
    hfits _ (List.mem_of_getElem? htimer) periodic rfl
  exact ⟨hnext, _, _, _, hpoll, hdue 7 hnext (by decide), by decide +kernel, hidle _ _ rfl⟩

end Site

end Registry

end CoapNode
