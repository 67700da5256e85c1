import CoapNode.Proofs.Resource.Run
import CoapNode.Simulation.Clock
import Mathlib.Data.List.Chain

set_option autoImplicit false

/-! # Periodic activities come on time

The timer of a resource is armed when the resource is registered, and armed again whenever its
activity runs, each time from the present moment. So what a run of polls makes of one resource is
told by the moment of its last activity alone (`Registry.Punctual`): a poll that comes a period or
more after it runs the activity once, and an earlier poll does not. The timers of other resources,
and whatever is registered or requested in between, make no difference
(`Registry.Site.punctual_run`).
-/

namespace CoapNode

variable {ω κ : Type}

/-- Before the last moment there is, a timer has expired exactly if its period is over. -/
theorem Timer.expired_iff (timer : Timer) {now : Millis} (h : now.toNat + 1 < UInt64.size) :
    timer.expired now = true ↔ timer.armedAt.toNat + timer.period.toNat ≤ now.toNat := by
  have hsize : UInt64.size = 2 ^ 64 := rfl
  rw [expired, decide_eq_true_iff, UInt64.le_iff_toNat_le, deadline, UInt64.toNat_ofNat',
    Nat.mod_eq_of_lt (by omega)]
  omega

namespace Registry

/-! ## The timer of one resource -/

/-- **The resource at a place has a timer**, at one place in the table of timers and nowhere
else. -/
structure Armed (registry : Registry ω) (slot place : Nat) (entry : Entry ω) (timer : Timer) :
    Prop where
  entry_eq : registry.entries[place]? = some entry
  timer_eq : registry.timers[slot]? = some (some ⟨place, timer⟩)
  only : ∀ other periodic, registry.timers[other]? = some (some periodic) →
    periodic.resource = place → other = slot

section

variable {registry : Registry ω} {slot other place capacity : Nat} {entry : Entry ω}
  {timer : Timer}

/-- When a resource is entered, the timers are the ones there were before and the one of the new
resource, behind them. -/
theorem timer_of_push {added : Entry ω} {armed : Option Timer} {periodic : Periodic}
    (h : (registry.push added armed).timers[other]? = some (some periodic)) :
    registry.timers[other]? = some (some periodic)
      ∨ other = registry.timers.length ∧ periodic.resource = registry.entries.length := by
  rw [Registry.push, List.getElem?_append] at h
  split at h
  · exact .inl h
  · next hge =>
      cases armed with
      | none => simp at h
      | some timer =>
          obtain ⟨hfirst, hperiodic⟩ := List.getElem?_eq_some_iff.1 h
          have hother : other - registry.timers.length < 1 := hfirst
          refine .inr ⟨by omega, ?_⟩
          simp only [Option.map_some, Option.toList_some, List.getElem_singleton] at hperiodic
          rw [← Option.some.inj hperiodic]

/-- A resource that is registered with a timer has that timer. -/
theorem WellFormed.armed_push (h : registry.WellFormed capacity) (entry : Entry ω) (timer : Timer) :
    (registry.push entry (some timer)).Armed registry.timers.length registry.entries.length entry
      timer where
  entry_eq := List.getElem?_concat_length
  timer_eq := List.getElem?_concat_length
  only other periodic hother hplace := by
    rcases timer_of_push hother with hbefore | ⟨hlast, -⟩
    · -- the resources of the timers before are all in front of the new one
      have harmed : periodic.resource ∈ registry.armedPlaces :=
        List.mem_filterMap.2 ⟨some periodic, List.mem_of_getElem? hbefore, rfl⟩
      exact absurd hplace (Nat.ne_of_lt (h.armed_lt _ harmed))
    · exact hlast

/-- Whatever else is registered makes no difference. -/
theorem Armed.push (h : registry.Armed slot place entry timer) (added : Entry ω)
    (armed : Option Timer) : (registry.push added armed).Armed slot place entry timer := by
  obtain ⟨hentry, -⟩ := List.getElem?_eq_some_iff.1 h.entry_eq
  obtain ⟨htimer, -⟩ := List.getElem?_eq_some_iff.1 h.timer_eq
  refine ⟨(List.getElem?_append_left hentry).trans h.entry_eq,
    (List.getElem?_append_left htimer).trans h.timer_eq, fun other periodic hother hplace => ?_⟩
  rcases timer_of_push hother with hbefore | ⟨-, hnew⟩
  · exact h.only other periodic hbefore hplace
  · omega

/-- What becomes of another timer makes no difference, unless it is armed for the same resource. -/
theorem Armed.setTimer (h : registry.Armed slot place entry timer) (hne : other ≠ slot)
    {next : Option Periodic} (hnext : ∀ periodic ∈ next, periodic.resource ≠ place) :
    (registry.setTimer other next).Armed slot place entry timer where
  entry_eq := h.entry_eq
  timer_eq := (List.getElem?_set_ne hne).trans h.timer_eq
  only place' periodic htimer hplace := by
    by_cases hsame : other = place'
    · subst hsame
      rw [Registry.setTimer, List.getElem?_set_self'] at htimer
      obtain ⟨_, -, hperiodic⟩ := Option.map_eq_some_iff.1 htimer
      exact absurd hplace (hnext periodic hperiodic)
    · exact h.only place' periodic ((List.getElem?_set_ne hsame).symm.trans htimer) hplace

/-- The timer itself is armed again. -/
theorem Armed.rearm (h : registry.Armed slot place entry timer) (next : Timer) :
    (registry.setTimer slot (some ⟨place, next⟩)).Armed slot place entry next where
  entry_eq := h.entry_eq
  timer_eq := by
    obtain ⟨hslot, -⟩ := List.getElem?_eq_some_iff.1 h.timer_eq
    exact List.getElem?_set_self hslot
  only place' periodic htimer hplace := by
    by_cases hsame : slot = place'
    · exact hsame.symm
    · exact h.only place' periodic ((List.getElem?_set_ne hsame).symm.trans htimer) hplace

end

namespace Firing

variable {firing last : Firing ω} {slot fired place : Nat} {slots : List Nat} {entry : Entry ω}
  {timer : Timer} {now period : Millis} {calls : List (Call ω)}

/-- **When its own timer fires**, the activity of a resource runs once, and the timer is armed again
from now on. -/
theorem Fires.self (h : firing.Fires now slot last calls)
    (harmed : firing.registry.Armed slot place entry timer)
    (hserving : firing.registry.initialized = true)
    (hperiod : entry.period? firing.world = some period) :
    last.registry.Armed slot place entry ⟨now, period⟩
      ∧ (calls.filterMap Call.tickedPlace?).count place = 1 := by
  have htimer : firing.registry.timers[slot]?.join = some ⟨place, timer⟩ := by
    rw [harmed.timer_eq, Option.join_some]
  cases h with
  | vacant hvacant =>
      rw [htimer] at hvacant
      cases hvacant
  | orphaned htimer' hentry =>
      obtain rfl := Option.some.inj (htimer.symm.trans htimer')
      cases harmed.entry_eq.symm.trans hentry
  | lapsed htimer' hentry hperiod' =>
      obtain rfl := Option.some.inj (htimer.symm.trans htimer')
      obtain rfl := Option.some.inj (harmed.entry_eq.symm.trans hentry)
      cases hperiod.symm.trans hperiod'
  | skipped _ _ _ hnot => cases hserving.symm.trans hnot
  | ticked htimer' hentry hperiod' =>
      obtain rfl := Option.some.inj (htimer.symm.trans htimer')
      obtain rfl := Option.some.inj (harmed.entry_eq.symm.trans hentry)
      obtain rfl := Option.some.inj (hperiod.symm.trans hperiod')
      exact ⟨harmed.rearm _, by simp [Call.tickedPlace?]⟩

/-- **When another timer fires**, the resource and its timer are left alone. -/
theorem Fires.other (h : firing.Fires now fired last calls)
    (harmed : firing.registry.Armed slot place entry timer) (hne : fired ≠ slot) :
    last.registry.Armed slot place entry timer
      ∧ (calls.filterMap Call.tickedPlace?).count place = 0 := by
  have hforeign {periodic : Periodic}
      (htimer : firing.registry.timers[fired]?.join = some periodic) :
      periodic.resource ≠ place := fun hplace =>
    hne (harmed.only fired periodic (Option.join_eq_some_iff.1 htimer) hplace)
  cases h with
  | vacant => exact ⟨harmed, rfl⟩
  | orphaned | lapsed => exact ⟨harmed.setTimer hne (by rintro _ ⟨⟩), rfl⟩
  | skipped htimer =>
      have hplace := hforeign htimer
      exact ⟨harmed.setTimer hne (by rintro _ ⟨⟩; exact hplace), rfl⟩
  | ticked htimer =>
      have hplace := hforeign htimer
      exact ⟨harmed.setTimer hne (by rintro _ ⟨⟩; exact hplace),
        by simp [Call.tickedPlace?, hplace]⟩

/-- When several timers fire, each once, the activity runs exactly if its own timer is one of
them. -/
theorem armed_afterAll (hslots : slots.Nodup)
    (harmed : firing.registry.Armed slot place entry timer)
    (hserving : firing.registry.initialized = true)
    (hperiod : ∀ world ∈ worlds now firing slots, entry.period? world = some period) :
    (firing.afterAll now slots).registry.Armed slot place entry
        (if slot ∈ slots then ⟨now, period⟩ else timer)
      ∧ ((callsAll now firing slots).filterMap Call.tickedPlace?).count place
        = if slot ∈ slots then 1 else 0 := by
  induction slots generalizing firing timer with
  | nil => exact ⟨harmed, rfl⟩
  | cons fired slots ih =>
      obtain ⟨hnot, hslots⟩ := List.nodup_cons.1 hslots
      obtain ⟨hfirst, hperiod⟩ := List.forall_mem_cons.1 hperiod
      have hfires := fires now firing fired
      have hserving' := hfires.frame.2.trans hserving
      rw [callsAll, List.filterMap_append, List.count_append]
      by_cases hsame : fired = slot
      · -- the timer is armed from now on, and does not fire again among the rest
        subst hsame
        obtain ⟨harmed', hcount⟩ := hfires.self harmed hserving hfirst
        obtain ⟨hlast, hrest⟩ := ih hslots harmed' hserving' hperiod
        rw [if_neg hnot] at hlast hrest
        rw [if_pos List.mem_cons_self, if_pos List.mem_cons_self, hcount, hrest]
        exact ⟨hlast, rfl⟩
      · obtain ⟨harmed', hcount⟩ := hfires.other harmed hsame
        have hmem : slot ∈ fired :: slots ↔ slot ∈ slots :=
          ⟨fun h => (List.mem_cons.1 h).resolve_left (Ne.symm hsame), List.mem_cons_of_mem _⟩
        simp only [hmem, hcount, Nat.zero_add]
        exact ih hslots harmed' hserving' hperiod

end Firing

end Registry

/-! ## One poll -/

/-- **The resource is to run periodically** in this world, with this period. -/
def Resource.Ticks (resource : Resource ω) (period : Millis) (world : ω) : Prop :=
  (resource.flags world).contains .periodic = true ∧ resource.period world = some period

theorem Resource.Ticks.period?_eq {entry : Entry ω} {period : Millis} {world : ω}
    (h : entry.resource.Ticks period world) (hperiod : 0 < period) :
    entry.period? world = some period := by
  rw [Entry.period?, if_pos h.1, h.2, Option.filter_some, if_pos (decide_eq_true hperiod)]

namespace Registry

/-- A poll by a registry that serves, before the last moment there is, during which a resource has
the same period throughout. -/
structure Poll.Regular (poll : Poll ω) (resource : Resource ω) (period : Millis) : Prop where
  serving : poll.serving = true
  now_lt : poll.now.toNat + 1 < UInt64.size
  ticks : ∀ world ∈ poll.worlds, resource.Ticks period world

section

variable {registry : Registry ω} {slot place : Nat} {entry : Entry ω} {timer : Timer}
  {now period : Millis} {world : ω}

theorem ticked_eq (registry : Registry ω) (now : Millis) (world : ω) :
    registry.ticked now world
      = (Firing.callsAll now ⟨registry, world, 0⟩ (registry.due now)).filterMap
          Call.tickedPlace? := by
  rw [ticked, fireAll_recorded]
  rfl

theorem Armed.mem_due_iff (h : registry.Armed slot place entry timer) :
    slot ∈ registry.due now ↔ timer.expired now = true := by
  rw [Registry.mem_due_iff, h.timer_eq]
  constructor
  · rintro ⟨_, ⟨⟩, hexpired⟩
    exact hexpired
  · exact fun hexpired => ⟨_, rfl, hexpired⟩

/-- **A poll runs the activity of a resource exactly if its timer has expired**, and arms the timer
again then. -/
theorem Armed.poll (h : registry.Armed slot place entry timer) (hperiod : 0 < period)
    (hregular : (registry.pollAt now world).Regular entry.resource period) :
    (Firing.afterAll now ⟨registry, world, 0⟩ (registry.due now)).registry.Armed slot place entry
        (if timer.expired now = true then ⟨now, period⟩ else timer)
      ∧ (registry.pollAt now world).ticked.count place
        = if timer.expired now = true then 1 else 0 := by
  have hstart : (⟨registry, world, 0⟩ : Firing ω).registry.Armed slot place entry timer := h
  have hall := Firing.armed_afterAll (registry.nodup_due now) hstart hregular.serving
    fun world hworld => (hregular.ticks world hworld).period?_eq hperiod
  simp only [h.mem_due_iff] at hall
  rw [pollAt, ticked_eq]
  exact hall

end

/-! ## Lists of polls -/

/-- **The activity of the resource at a place comes on time**, having run last at some moment: it
runs once in each poll that comes a period or more after it ran last, and in no other. -/
inductive Punctual (place period : Nat) : Nat → List (Poll ω) → Prop where
  | done (last : Nat) : Punctual place period last []
  | early {last : Nat} {poll : Poll ω} {later : List (Poll ω)}
      (hnow : poll.now.toNat < last + period) (hcount : poll.ticked.count place = 0)
      (hlater : Punctual place period last later) : Punctual place period last (poll :: later)
  | due {last : Nat} {poll : Poll ω} {later : List (Poll ω)}
      (hnow : last + period ≤ poll.now.toNat) (hcount : poll.ticked.count place = 1)
      (hlater : Punctual place period poll.now.toNat later) :
      Punctual place period last (poll :: later)

/-- The moments at which the activity of the resource at a place runs. -/
def tickTimes (place : Nat) (polls : List (Poll ω)) : List Nat :=
  polls.flatMap fun poll => List.replicate (poll.ticked.count place) poll.now.toNat

section

variable {place period last t : Nat} {polls : List (Poll ω)} {poll : Poll ω}

theorem tickTimes_cons_of_early (h : poll.ticked.count place = 0) :
    tickTimes place (poll :: polls) = tickTimes place polls := by
  rw [tickTimes, List.flatMap_cons, h]
  rfl

theorem tickTimes_cons_of_due (h : poll.ticked.count place = 1) :
    tickTimes place (poll :: polls) = poll.now.toNat :: tickTimes place polls := by
  rw [tickTimes, List.flatMap_cons, h]
  rfl

/-- From one time to the next, at least a period passes. -/
theorem Punctual.isChain (h : Punctual place period last polls) :
    (last :: tickTimes place polls).IsChain fun earlier later => earlier + period ≤ later := by
  induction h with
  | done last => exact List.isChain_singleton last
  | early _ hcount _ ih => rwa [tickTimes_cons_of_early hcount]
  | due hnow hcount _ ih =>
      rw [tickTimes_cons_of_due hcount]
      exact List.isChain_cons_cons.2 ⟨hnow, ih⟩

/-- A poll that comes a period or more after the activity ran last runs it once. -/
theorem Punctual.count_eq_one (h : Punctual place period last polls)
    {before after : List (Poll ω)} (hpolls : polls = before ++ poll :: after)
    (hnow : (tickTimes place before).getLastD last + period ≤ poll.now.toNat) :
    poll.ticked.count place = 1 := by
  induction h generalizing before with
  | done => simp at hpolls
  | early hearly hcount _ ih =>
      cases before with
      | nil =>
          obtain ⟨rfl, -⟩ := List.cons.inj hpolls
          exact absurd hnow (Nat.not_le.2 hearly)
      | cons first before =>
          obtain ⟨rfl, hlater⟩ := List.cons.inj hpolls
          rw [tickTimes_cons_of_early hcount] at hnow
          exact ih hlater hnow
  | due _ hcount _ ih =>
      cases before with
      | nil =>
          obtain ⟨rfl, -⟩ := List.cons.inj hpolls
          exact hcount
      | cons first before =>
          obtain ⟨rfl, hlater⟩ := List.cons.inj hpolls
          rw [tickTimes_cons_of_due hcount, List.getLastD_cons] at hnow
          exact ih hlater hnow

/-- Each time that the activity runs takes up a period of its own. -/
theorem mul_countP_le {times : List Nat}
    (h : (last :: times).IsChain fun earlier later => earlier + period ≤ later) (t : Nat) :
    last + period * times.countP (· ≤ t) ≤ max last t := by
  induction times generalizing last with
  | nil => exact Nat.le_max_left last t
  | cons next times ih =>
      obtain ⟨hnext, htimes⟩ := List.isChain_cons_cons.1 h
      have hrest := ih htimes
      rw [List.countP_cons]
      -- a time behind `t` leaves nothing more to be counted
      by_cases ht : next ≤ t
      · rw [if_pos (decide_eq_true ht), Nat.mul_add_one]
        omega
      · rw [if_neg (by simpa using ht), Nat.add_zero]
        omega

/-- The activity has run so often as there have been periods, and no more often. -/
theorem Punctual.countP_le (h : Punctual place period last polls) (hperiod : 0 < period)
    (t : Nat) : (tickTimes place polls).countP (· ≤ t) ≤ (t - last) / period := by
  rw [Nat.le_div_iff_mul_le hperiod, Nat.mul_comm]
  have hle := mul_countP_le h.isChain t
  omega

/-- If there is a poll at every moment, no period is lost. -/
theorem Punctual.lt_mul_countP (h : Punctual place period last polls) (hperiod : 0 < period)
    (hsorted : polls.Pairwise fun earlier later => earlier.now ≤ later.now)
    (hevery : ∀ m, last + period ≤ m → m ≤ t → ∃ poll ∈ polls, poll.now.toNat = m) :
    t < last + period * ((tickTimes place polls).countP (· ≤ t) + 1) := by
  induction h with
  | done last =>
      rcases Nat.lt_or_ge t (last + period) with hlt | hge
      · simpa [tickTimes] using hlt
      · obtain ⟨_, hmem, -⟩ := hevery _ (Nat.le_refl _) hge
        cases hmem
  | @early last first later hnow hcount _ ih =>
      rw [tickTimes_cons_of_early hcount]
      refine ih hsorted.of_cons fun m hm hmt => ?_
      obtain ⟨poll, hmem, hpoll⟩ := hevery m hm hmt
      rcases List.mem_cons.1 hmem with rfl | hmem
      · omega
      · exact ⟨poll, hmem, hpoll⟩
  | @due last first later hnow hcount _ ih =>
      obtain ⟨hfirst, hsorted⟩ := List.pairwise_cons.1 hsorted
      rcases Nat.lt_or_ge t (last + period) with hlt | hge
      · exact Nat.lt_of_lt_of_le hlt
          (Nat.add_le_add_left (Nat.le_mul_of_pos_right period (Nat.succ_pos _)) last)
      · -- the poll at the end of the period is not before this one, so it is this one
        have hdue : first.now.toNat = last + period := by
          obtain ⟨poll, hmem, hpoll⟩ := hevery _ (Nat.le_refl _) hge
          rcases List.mem_cons.1 hmem with rfl | hmem
          · exact hpoll
          · have hle := UInt64.le_iff_toNat_le.1 (hfirst poll hmem)
            omega
        have hrest := ih hsorted fun m hm hmt => by
          obtain ⟨poll, hmem, hpoll⟩ := hevery m (by omega) hmt
          rcases List.mem_cons.1 hmem with rfl | hmem
          · omega
          · exact ⟨poll, hmem, hpoll⟩
        rw [tickTimes_cons_of_due hcount, List.countP_cons,
          if_pos (decide_eq_true (by omega)), Nat.mul_add_one]
        omega

/-- If there is a poll at every moment, the activity runs once in each period. -/
theorem Punctual.countP_eq (h : Punctual place period last polls) (hperiod : 0 < period)
    (hsorted : polls.Pairwise fun earlier later => earlier.now ≤ later.now)
    (hevery : ∀ m, last + period ≤ m → m ≤ t → ∃ poll ∈ polls, poll.now.toNat = m) :
    (tickTimes place polls).countP (· ≤ t) = (t - last) / period := by
  refine Nat.le_antisymm (h.countP_le hperiod t) ?_
  have hlt := h.lt_mul_countP hperiod hsorted hevery
  refine Nat.le_of_lt_succ ((Nat.div_lt_iff_lt_mul hperiod).2 ?_)
  rw [Nat.mul_comm]
  rw [Nat.mul_add_one] at hlt ⊢
  omega

end

/-! ## Runs -/

/-- The poll that an event is, if it is one. -/
def Event.poll? : Event ω → Option (Poll ω)
  | .polled poll => some poll
  | _ => none

/-- The polls of a run. -/
def pollsOf (events : List (Event ω)) : List (Poll ω) := events.filterMap Event.poll?

namespace Site

variable [Clock κ] {site : Site κ ω} {op : Operation κ ω} {next : Registry ω}
  {events : List (Event ω)} {slot place : Nat} {entry : Entry ω} {last period : Millis}

theorem Moves.serving (h : site.Moves op next events) (hkept : op ≠ .teardown)
    (hserving : site.registry.initialized = true) :
    next.initialized = true ∧ ∀ poll ∈ pollsOf events, poll.serving = true := by
  cases h with
  | teardown => exact absurd rfl hkept
  | polled =>
      refine ⟨(Firing.afterAll_frame _ _ _).2.trans hserving, fun poll hmem => ?_⟩
      rw [List.mem_singleton.1 hmem]
      exact hserving
  | init => exact ⟨rfl, List.forall_mem_nil _⟩
  | registered | refused | unread | dispatch | setClock | setWorld =>
      exact ⟨hserving, List.forall_mem_nil _⟩

/-- A registry that serves goes on to do so until it is emptied. -/
theorem serving_run {ops : List (Operation κ ω)} (hkept : .teardown ∉ ops)
    (hserving : site.registry.initialized = true) :
    ∀ poll ∈ pollsOf (site.run ops).trace, poll.serving = true := by
  induction ops generalizing site with
  | nil => exact List.forall_mem_nil _
  | cons op ops ih =>
      obtain ⟨hop, hkept⟩ := not_or.1 (mt List.mem_cons.2 hkept)
      obtain ⟨hserving', hfirst⟩ := (step_moves site op).serving (Ne.symm hop) hserving
      rw [run, Traced.trace_bind, pollsOf, List.filterMap_append]
      exact List.forall_mem_append.2 ⟨hfirst, ih hkept hserving'⟩

/-- **What an operation makes of the timer of a resource**, unless the registry is emptied: its
timer is left alone, or the operation is a poll that is due. -/
theorem Moves.punctual (h : site.Moves op next events) (hkept : op ≠ .teardown)
    (harmed : site.registry.Armed slot place entry ⟨last, period⟩) (hperiod : 0 < period)
    (hregular : ∀ poll ∈ pollsOf events, poll.Regular entry.resource period) :
    ∃ last', next.Armed slot place entry ⟨last', period⟩
      ∧ ∀ later, Punctual place period.toNat last'.toNat later →
        Punctual place period.toNat last.toNat (pollsOf events ++ later) := by
  cases h with
  | registered => exact ⟨last, harmed.push _ _, fun _ hlater => hlater⟩
  | teardown => exact absurd rfl hkept
  | @polled now hnow =>
      have hpoll := hregular _ List.mem_cons_self
      have hexpired := Timer.expired_iff ⟨last, period⟩ hpoll.now_lt
      obtain ⟨harmed', hcount⟩ := harmed.poll hperiod hpoll
      by_cases hdue : (⟨last, period⟩ : Timer).expired now = true
      · rw [if_pos hdue] at harmed' hcount
        exact ⟨now, harmed', fun _ hlater => .due (hexpired.1 hdue) hcount hlater⟩
      · rw [if_neg hdue] at harmed' hcount
        exact ⟨last, harmed', fun _ hlater =>
          .early (Nat.lt_of_not_le (mt hexpired.2 hdue)) hcount hlater⟩
  | init | refused | unread | dispatch | setClock | setWorld =>
      exact ⟨last, ⟨harmed.entry_eq, harmed.timer_eq, harmed.only⟩, fun _ hlater => hlater⟩

/-- **The activity of a resource comes on time in every run** in which the registry is not
emptied. -/
theorem punctual_run {ops : List (Operation κ ω)} (hkept : .teardown ∉ ops)
    (harmed : site.registry.Armed slot place entry ⟨last, period⟩) (hperiod : 0 < period)
    (hregular : ∀ poll ∈ pollsOf (site.run ops).trace, poll.Regular entry.resource period) :
    Punctual place period.toNat last.toNat (pollsOf (site.run ops).trace) := by
  -- what is kept is that the resource has its timer; when that was armed last changes on the way
  induction ops generalizing site last with
  | nil => exact .done _
  | cons op ops ih =>
      obtain ⟨hop, hkept⟩ := not_or.1 (mt List.mem_cons.2 hkept)
      rw [run, Traced.trace_bind, pollsOf, List.filterMap_append] at hregular ⊢
      obtain ⟨hfirst, hlater⟩ := List.forall_mem_append.1 hregular
      obtain ⟨last', harmed', hpunctual⟩ :=
        (step_moves site op).punctual (Ne.symm hop) harmed hperiod hfirst
      exact hpunctual _ (ih hkept harmed' hlater)

theorem armed_register {capacity : Nat} {path : String} {resource : Resource ω} {start : Millis}
    (hwell : site.registry.WellFormed capacity) (hticks : resource.Ticks period site.world)
    (hperiod : 0 < period) (hstart : (Clock.now site.clock).1 = .ok start)
    (hregister : (site.registry.register path resource site.clock site.world).value.1 = .ok place) :
    (site.step (.register path resource)).value.registry.Armed site.registry.timers.length place
      ⟨path, resource.flags site.world, resource⟩ ⟨start, period⟩ := by
  obtain ⟨-, rfl, timer, hnext, harms⟩ := register_ok hregister
  have hstep : (site.step (.register path resource)).value.registry = _ := hnext
  have hperiod' : Entry.period? ⟨path, resource.flags site.world, resource⟩ site.world
      = some period := Resource.Ticks.period?_eq hticks hperiod
  cases harms with
  | idle hidle => cases hperiod'.symm.trans hidle
  | armed harmed hnow =>
      obtain rfl := Option.some.inj (hperiod'.symm.trans harmed)
      obtain rfl := Except.ok.inj (hstart.symm.trans hnow)
      rw [hstep]
      exact hwell.armed_push _ _

theorem pollsOf_run_register (site : Site κ ω) (path : String) (resource : Resource ω)
    (ops : List (Operation κ ω)) :
    pollsOf (site.run (.register path resource :: ops)).trace
      = pollsOf ((site.step (.register path resource)).value.run ops).trace := by
  have hstep : pollsOf (site.step (.register path resource)).trace = [] := by
    have htrace : (site.step (.register path resource)).trace = [.ofResult path
        (site.registry.register path resource site.clock site.world).value.1] := rfl
    rw [htrace]
    cases (site.registry.register path resource site.clock site.world).value.1 <;> rfl
  rw [run, Traced.trace_bind, pollsOf, List.filterMap_append]
  exact congrArg (· ++ _) hstep

/-- A site that the operations lead to, from the empty registry on. -/
def Reached (site : Site κ ω) : Prop :=
  ∃ capacity clock world ops, site = ((start capacity clock world).run ops).value

theorem Reached.wellFormed (h : site.Reached) : ∃ capacity, site.registry.WellFormed capacity := by
  obtain ⟨capacity, clock, world, ops, rfl⟩ := h
  have hempty : (start capacity clock world).registry.WellFormed capacity :=
    wellFormed_empty capacity
  exact ⟨capacity, wellFormed_run hempty ops⟩

/-- **Periodic activities are neither missed nor doubled.** In whatever state a resource is
registered as periodic, and whatever operations follow, as long as the registry is not emptied:

* the activity runs for the first time a period or more after the registration, and each further
  time a period or more after the time before;
* every poll that comes so late runs it, once;
* so up to a moment it has run at most as many times as periods have passed, and just as many
  times if up to then the timers have been polled in every millisecond. -/
theorem ticks_punctual {path : String} {resource : Resource ω} {start : Millis}
    {ops : List (Operation κ ω)} (hreached : site.Reached) (hperiod : 0 < period)
    (hticks : resource.Ticks period site.world) (hstart : (Clock.now site.clock).1 = .ok start)
    (hregister : (site.registry.register path resource site.clock site.world).value.1 = .ok place)
    (hkept : .teardown ∉ ops)
    (hregular : ∀ poll ∈ pollsOf (site.run (.register path resource :: ops)).trace,
      poll.Regular resource period) :
    let polls := pollsOf (site.run (.register path resource :: ops)).trace
    let times := tickTimes place polls
    ((start.toNat :: times).IsChain fun earlier later => earlier + period.toNat ≤ later)
      ∧ (∀ before poll after, polls = before ++ poll :: after →
          (tickTimes place before).getLastD start.toNat + period.toNat ≤ poll.now.toNat →
          poll.ticked.count place = 1)
      ∧ (∀ t, times.countP (· ≤ t) ≤ (t - start.toNat) / period.toNat)
      ∧ ((polls.Pairwise fun earlier later => earlier.now ≤ later.now) →
          ∀ t, (∀ m, start.toNat < m → m ≤ t → ∃ poll ∈ polls, poll.now.toNat = m) →
            times.countP (· ≤ t) = (t - start.toNat) / period.toNat) := by
  intro polls times
  obtain ⟨capacity, hwell⟩ := hreached.wellFormed
  have harmed := armed_register hwell hticks hperiod hstart hregister
  have hpolls : polls = pollsOf ((site.step (.register path resource)).value.run ops).trace :=
    pollsOf_run_register site path resource ops
  have hpunctual : Punctual place period.toNat start.toNat polls := by
    rw [hpolls]
    exact punctual_run hkept harmed hperiod (hpolls ▸ hregular)
  have hpos : 0 < period.toNat := UInt64.lt_iff_toNat_lt.1 hperiod
  refine ⟨hpunctual.isChain, fun before poll after => hpunctual.count_eq_one,
    hpunctual.countP_le hpos, fun hsorted t hevery => hpunctual.countP_eq hpos hsorted ?_⟩
  exact fun m hm => hevery m (by omega)

/-! ### A late poll -/

/-- A resource that runs periodically and otherwise does nothing. -/
def sampleBeat (period : Millis) : Resource Unit where
  flags _ := .periodic
  period _ := some period

theorem ticks_sampleBeat (period : Millis) (world : Unit) :
    (sampleBeat period).Ticks period world :=
  ⟨by show Flags.contains .periodic .periodic = true; decide, rfl⟩

/-- A node with one such resource, in its first millisecond. -/
def sampleSite : Site Simulation.ManualClock Unit :=
  ((start 4 { step := 1 } ()).run [.register "a" (sampleBeat 3), .init]).value

/-- Another registration, polls in each millisecond from the second to the fifth, and three more
after a long pause. -/
def sampleBeats : List (Operation Simulation.ManualClock Unit) :=
  [.register "c" {}, .poll, .poll, .poll, .poll, .setClock { now := 20, step := 1 }, .poll, .poll,
    .poll]

/-- A resource with a period of two milliseconds that is registered in the first one. -/
theorem ticks_punctual_sampleSite :
    let polls := pollsOf (sampleSite.run (.register "b" (sampleBeat 2) :: sampleBeats)).trace
    polls.map (·.now.toNat) = [2, 3, 4, 5, 20, 21, 22]
      ∧ ((1 :: tickTimes 1 polls).IsChain fun earlier later => earlier + 2 ≤ later)
      ∧ (tickTimes 1 polls).countP (· ≤ 5) = 2
      ∧ ∀ t, (tickTimes 1 polls).countP (· ≤ t) ≤ (t - 1) / 2 := by
  intro polls
  have hnow : polls.map (·.now.toNat) = [2, 3, 4, 5, 20, 21, 22] := by decide +kernel
  have hserving : ∀ poll ∈ polls, poll.serving = true := serving_run (by simp [sampleBeats]) rfl
  have hregular : ∀ poll ∈ polls, poll.Regular (sampleBeat 2) 2 := by
    intro poll hmem
    have hmem' : poll.now.toNat ∈ polls.map (·.now.toNat) := List.mem_map_of_mem hmem
    have hbound : ∀ now ∈ [2, 3, 4, 5, 20, 21, 22], now + 1 < UInt64.size := by decide
    rw [hnow] at hmem'
    exact ⟨hserving poll hmem, hbound _ hmem', fun _ _ => ticks_sampleBeat _ _⟩
  have hsorted : polls.Pairwise fun earlier later => earlier.now ≤ later.now := by
    have hpairs : (polls.map (·.now.toNat)).Pairwise (· ≤ ·) := by
      rw [hnow]
      decide
    exact (List.pairwise_map.1 hpairs).imp UInt64.le_iff_toNat_le.2
  have hevery : ∀ m, (1 : Millis).toNat < m → m ≤ 5 → ∃ poll ∈ polls, poll.now.toNat = m := by
    intro m hm hm'
    have hone : (1 : Millis).toNat = 1 := rfl
    have hearly : ∀ m ∈ [2, 3, 4, 5], m ∈ polls.map (·.now.toNat) := by
      rw [hnow]
      decide
    refine List.mem_map.1 (hearly m ?_)
    simp only [List.mem_cons, List.not_mem_nil, or_false]
    omega
  have hreached : sampleSite.Reached := ⟨4, { step := 1 }, (), _, rfl⟩
  have hstart : (Clock.now sampleSite.clock).1 = .ok 1 := rfl
  have hregister : (sampleSite.registry.register "b" (sampleBeat 2) sampleSite.clock
      sampleSite.world).value.1 = .ok 1 := rfl
  obtain ⟨hchain, -, hle, heq⟩ := ticks_punctual hreached (by decide) (ticks_sampleBeat 2 _) hstart
    hregister (by simp [sampleBeats]) hregular
  exact ⟨hnow, hchain, heq hsorted 5 hevery, hle⟩

end Site

end Registry

end CoapNode
