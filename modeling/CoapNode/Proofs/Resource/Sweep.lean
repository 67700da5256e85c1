import CoapNode.Proofs.Resource.Ticks
import CoapNode.Simulation.Resource

set_option autoImplicit false

/-! # A poll from beginning to end

A poll goes through the timers that have expired, in the order of their deadlines, and among those
with the same deadline in the order of registration (`Registry.WellFormed.pairwise_due`). What
becomes of one of them depends on what its resource says of itself when it is its turn
(`Entry.Settles`). The activities that have run before may have changed that, so a poll is told by
the worlds it passes through (`Registry.Sweeps`). All else is left as it is
(`Registry.Site.poll_orderly`).
-/

namespace CoapNode

variable {ω κ : Type}

/-- The deadline of a timer is the sum of its two times, or the last moment there is. -/
theorem Timer.toNat_deadline (timer : Timer) :
    timer.deadline.toNat = min (timer.armedAt.toNat + timer.period.toNat) (UInt64.size - 1) := by
  have hsize : UInt64.size = 2 ^ 64 := rfl
  rw [deadline, UInt64.toNat_ofNat', Nat.mod_eq_of_lt (by omega)]

namespace Registry

/-! ## The order of the timers -/

/-- Pairs are sorted by their first components, and stay in order where these are the same. -/
theorem pairwise_mergeSort_fst {xs : List (Millis × Nat)} (h : xs.Pairwise fun x y => x.2 < y.2) :
    (xs.mergeSort fun x y => x.1 ≤ y.1).Pairwise
      fun x y => x.1 < y.1 ∨ x.1 = y.1 ∧ x.2 < y.2 := by
  have htrans (a b c : Millis × Nat) (hab : decide (a.1 ≤ b.1) = true)
      (hbc : decide (b.1 ≤ c.1) = true) : decide (a.1 ≤ c.1) = true :=
    decide_eq_true (UInt64.le_trans (of_decide_eq_true hab) (of_decide_eq_true hbc))
  have htotal (a b : Millis × Nat) : (decide (a.1 ≤ b.1) || decide (b.1 ≤ a.1)) = true := by
    simpa using UInt64.le_total a.1 b.1
  -- the pairs with one first component are the same list before and after
  have hstable (d : Millis) :
      (xs.mergeSort fun x y => x.1 ≤ y.1).filter (·.1 = d) = xs.filter (·.1 = d) := by
    have hsame : (xs.filter (·.1 = d)).Pairwise fun x y => decide (x.1 ≤ y.1) = true :=
      List.pairwise_filter.2 (List.pairwise_of_forall fun x y hx hy => by
        rw [of_decide_eq_true hx, of_decide_eq_true hy]
        exact decide_eq_true (UInt64.le_refl d))
    have hsublist := (List.sublist_mergeSort htrans htotal hsame List.filter_sublist).filter
      (fun x => decide (x.1 = d))
    simp only [List.filter_filter, Bool.and_self] at hsublist
    exact (hsublist.eq_of_length ((List.mergeSort_perm xs _).filter _).length_eq.symm).symm
  have hsorted := List.pairwise_mergeSort htrans htotal xs
  refine List.pairwise_of_forall_sublist fun {x y} hxy => ?_
  have hle : x.1 ≤ y.1 := of_decide_eq_true (hsorted.forall_sublist hxy)
  by_cases heq : x.1 = y.1
  · have hfilter := hxy.filter (fun z => decide (z.1 = y.1))
    rw [hstable, List.filter_eq_self.2 (by simp [heq])] at hfilter
    exact .inr ⟨heq, h.forall_sublist (hfilter.trans List.filter_sublist)⟩
  · exact .inl (UInt64.lt_of_le_of_ne hle heq)

/-- **The timer at one place fires before the one at another**: it has the earlier deadline, or the
same deadline and its resource was registered before. -/
def FiresBefore (registry : Registry ω) (slot other : Nat) : Prop :=
  ∃ first second, registry.timers[slot]? = some (some first)
    ∧ registry.timers[other]? = some (some second)
    ∧ (first.timer.deadline < second.timer.deadline
      ∨ first.timer.deadline = second.timer.deadline ∧ first.resource < second.resource)

section

variable {registry : Registry ω} {slot other capacity : Nat} {now : Millis}

/-- A timer belongs to a resource that is there. -/
theorem WellFormed.exists_entry (h : registry.WellFormed capacity) {periodic : Periodic}
    (htimer : registry.timers[slot]? = some (some periodic)) :
    ∃ entry, registry.entries[periodic.resource]? = some entry :=
  ⟨_, List.getElem?_eq_getElem (h.armed_lt _
    (List.mem_filterMap.2 ⟨some periodic, List.mem_of_getElem? htimer, rfl⟩))⟩

/-- Timers stand in the table in the order in which their resources were registered. -/
theorem WellFormed.resource_lt (h : registry.WellFormed capacity) {first second : Periodic}
    (hfirst : registry.timers[slot]? = some (some first))
    (hsecond : registry.timers[other]? = some (some second)) (hlt : slot < other) :
    first.resource < second.resource := by
  obtain ⟨hslot, hfirst⟩ := List.getElem?_eq_some_iff.1 hfirst
  obtain ⟨hother, hsecond⟩ := List.getElem?_eq_some_iff.1 hsecond
  have hascending := List.pairwise_iff_getElem.1 (List.pairwise_filterMap.1 h.ascending)
    slot other hslot hother hlt
  rw [hfirst, hsecond] at hascending
  exact hascending _ rfl _ rfl

/-- **Timers that have expired fire in the order of their deadlines**, and of registration. -/
theorem WellFormed.pairwise_due (h : registry.WellFormed capacity) (now : Millis) :
    (registry.due now).Pairwise registry.FiresBefore := by
  let expired := registry.timers.zipIdx.filterMap fun x =>
    (x.1.filter (·.timer.expired now)).map fun periodic => (periodic.timer.deadline, x.2)
  have hplaces : registry.timers.zipIdx.Pairwise fun x y => x.2 < y.2 := by
    rw [← List.pairwise_map (f := Prod.snd), List.zipIdx_map_snd]
    exact List.pairwise_lt_range'
  have hexpired : expired.Pairwise fun x y => x.2 < y.2 := by
    refine List.pairwise_filterMap.2 (hplaces.imp ?_)
    intro x y hlt pair hpair pair' hpair'
    obtain ⟨_, -, rfl⟩ := Option.map_eq_some_iff.1 hpair
    obtain ⟨_, -, rfl⟩ := Option.map_eq_some_iff.1 hpair'
    exact hlt
  have harmed (pair : Millis × Nat) (hpair : pair ∈ expired) :
      ∃ periodic, registry.timers[pair.2]? = some (some periodic)
        ∧ periodic.timer.deadline = pair.1 := by
    obtain ⟨⟨timer, place⟩, htimer, hpair⟩ := List.mem_filterMap.1 hpair
    obtain ⟨periodic, hfilter, rfl⟩ := Option.map_eq_some_iff.1 hpair
    obtain rfl : timer = some periodic := (Option.filter_eq_some_iff.1 hfilter).1
    exact ⟨periodic, List.mem_zipIdx_iff_getElem?.1 htimer, rfl⟩
  refine List.pairwise_map.2 ((pairwise_mergeSort_fst hexpired).imp_of_mem ?_)
  intro pair pair' hpair hpair' hbefore
  obtain ⟨first, hfirst, hdeadline⟩ := harmed pair (List.mem_mergeSort.1 hpair)
  obtain ⟨second, hsecond, hdeadline'⟩ := harmed pair' (List.mem_mergeSort.1 hpair')
  refine ⟨first, second, hfirst, hsecond, ?_⟩
  rw [hdeadline, hdeadline']
  exact hbefore.imp_right fun ⟨heq, hlt⟩ => ⟨heq, h.resource_lt hfirst hsecond hlt⟩

end

end Registry

/-! ## One timer -/

namespace Entry

variable {entry : Entry ω} {period : Millis} {world : ω}

theorem period?_eq_some_iff :
    entry.period? world = some period ↔ 0 < period ∧ entry.resource.Ticks period world := by
  refine ⟨fun h => ?_, fun ⟨hpos, hticks⟩ => hticks.period?_eq hpos⟩
  rw [period?] at h
  split at h
  · next hflags =>
      obtain ⟨hperiod, hpos⟩ := Option.filter_eq_some_iff.1 h
      exact ⟨of_decide_eq_true hpos, hflags, hperiod⟩
  · cases h

/-- **What becomes of a timer that has expired** when it is its turn: the timer that is left in its
place, the calls into its resource, and the world afterwards. The resource is at a place of the
registry, which serves or does not. -/
inductive Settles (entry : Entry ω) (place : Nat) (serving : Bool) (now : Millis) (world : ω) :
    Option Periodic → List (Call ω) → ω → Prop where
  /-- The resource is to run periodically. Its activity runs if the registry serves, and the timer
  is armed again in any case. -/
  | rearmed {period : Millis} (hperiod : 0 < period)
      (hticks : entry.resource.Ticks period world)
      (hdeadline : (⟨now, period⟩ : Timer).deadline.toNat
        = min (now.toNat + period.toNat) (UInt64.size - 1)) :
      Settles entry place serving now world (some ⟨place, ⟨now, period⟩⟩)
        (if serving then [.tick place world] else [])
        (if serving then entry.resource.tick world else world)
  /-- The resource is not to run periodically any more. -/
  | dropped (hidle : ∀ period, 0 < period → ¬ entry.resource.Ticks period world) :
      Settles entry place serving now world none [] world

end Entry

namespace Registry

namespace Firing

variable {firing last : Firing ω} {slot capacity : Nat} {slots : List Nat} {now : Millis}
  {calls : List (Call ω)}

/-- A timer that fires is settled, and nothing else happens. -/
theorem Fires.settles (h : firing.Fires now slot last calls) {periodic : Periodic}
    {entry : Entry ω} (htimer : firing.registry.timers[slot]? = some (some periodic))
    (hentry : firing.registry.entries[periodic.resource]? = some entry) :
    ∃ left, entry.Settles periodic.resource firing.registry.initialized now firing.world left calls
        last.world
      ∧ last.registry = firing.registry.setTimer slot left
      ∧ last.fired = firing.fired + calls.length := by
  have hjoin : firing.registry.timers[slot]?.join = some periodic := by
    rw [htimer, Option.join_some]
  cases h with
  | vacant htimer' => cases hjoin.symm.trans htimer'
  | orphaned htimer' hentry' =>
      obtain rfl := Option.some.inj (hjoin.symm.trans htimer')
      cases hentry.symm.trans hentry'
  | lapsed htimer' hentry' hperiod =>
      obtain rfl := Option.some.inj (hjoin.symm.trans htimer')
      obtain rfl := Option.some.inj (hentry.symm.trans hentry')
      refine ⟨none, .dropped fun period hpos hticks => ?_, rfl, rfl⟩
      cases hperiod.symm.trans (hticks.period?_eq hpos)
  | skipped htimer' hentry' hperiod hserving =>
      obtain rfl := Option.some.inj (hjoin.symm.trans htimer')
      obtain rfl := Option.some.inj (hentry.symm.trans hentry')
      obtain ⟨hpos, hticks⟩ := Entry.period?_eq_some_iff.1 hperiod
      rw [hserving]
      exact ⟨_, .rearmed hpos hticks (Timer.toNat_deadline _), rfl, rfl⟩
  | ticked htimer' hentry' hperiod hserving =>
      obtain rfl := Option.some.inj (hjoin.symm.trans htimer')
      obtain rfl := Option.some.inj (hentry.symm.trans hentry')
      obtain ⟨hpos, hticks⟩ := Entry.period?_eq_some_iff.1 hperiod
      rw [hserving]
      exact ⟨_, .rearmed hpos hticks (Timer.toNat_deadline _), rfl, rfl⟩

end Firing

/-! ## All timers -/

/-- **A walk over the timers at some places**, in this order: the timers that are left there, the
calls into the resources, and the world at the end. Each timer is settled in the world that those
before it have left. -/
inductive Sweeps (registry : Registry ω) (now : Millis) :
    ω → List Nat → List (Option Periodic) → List (Call ω) → ω → Prop where
  | done (world : ω) : Sweeps registry now world [] [] [] world
  | turn {slot : Nat} {periodic : Periodic} {entry : Entry ω} {left : Option Periodic}
      {calls later : List (Call ω)} {world next last : ω} {slots : List Nat}
      {rest : List (Option Periodic)}
      (htimer : registry.timers[slot]? = some (some periodic))
      (hentry : registry.entries[periodic.resource]? = some entry)
      (hsettles : entry.Settles periodic.resource registry.initialized now world left calls next)
      (hrest : Sweeps registry now next slots rest later last) :
      Sweeps registry now world (slot :: slots) (left :: rest) (calls ++ later) last

variable {registry : Registry ω} {capacity : Nat} {now : Millis}

/-- **Timers that fire one after the other are settled**, each once, and nothing else happens. -/
theorem WellFormed.sweeps_afterAll (hwell : registry.WellFormed capacity) (firing : Firing ω)
    {slots : List Nat} (hslots : slots.Nodup)
    (harmed : ∀ slot ∈ slots, ∃ periodic, registry.timers[slot]? = some (some periodic))
    (hentries : firing.registry.entries = registry.entries)
    (hserving : firing.registry.initialized = registry.initialized)
    (htimers : ∀ slot ∈ slots, firing.registry.timers[slot]? = registry.timers[slot]?) :
    ∃ left, registry.Sweeps now firing.world slots left (Firing.callsAll now firing slots)
        (firing.afterAll now slots).world
      ∧ slots.map ((firing.afterAll now slots).registry.timers[·]?) = left.map some
      ∧ (∀ slot ∉ slots, (firing.afterAll now slots).registry.timers[slot]?
          = firing.registry.timers[slot]?)
      ∧ (firing.afterAll now slots).fired
        = firing.fired + (Firing.callsAll now firing slots).length := by
  -- the timers whose turn is still to come are those of the registry before the poll
  induction slots generalizing firing with
  | nil => exact ⟨[], .done _, rfl, fun _ _ => rfl, rfl⟩
  | cons slot slots ih =>
      obtain ⟨hnot, hslots⟩ := List.nodup_cons.1 hslots
      obtain ⟨⟨periodic, htimer⟩, harmed⟩ := List.forall_mem_cons.1 harmed
      obtain ⟨hfirst, htimers⟩ := List.forall_mem_cons.1 htimers
      obtain ⟨entry, hentry⟩ := hwell.exists_entry htimer
      have hfires := Firing.fires now firing slot
      obtain ⟨left, hsettles, hregistry, hfired⟩ :=
        hfires.settles (hfirst.trans htimer) (hentries ▸ hentry)
      obtain ⟨hentries', hserving'⟩ := hfires.frame
      have hslot : slot < firing.registry.timers.length :=
        (List.getElem?_eq_some_iff.1 (hfirst.trans htimer)).1
      have hself : (Firing.fire now firing slot).value.registry.timers[slot]? = some left := by
        rw [hregistry]
        exact List.getElem?_set_self hslot
      have hother (place : Nat) (hne : slot ≠ place) :
          (Firing.fire now firing slot).value.registry.timers[place]?
            = firing.registry.timers[place]? := by
        rw [hregistry]
        exact List.getElem?_set_ne hne
      have hlater (place : Nat) (hplace : place ∈ slots) :
          (Firing.fire now firing slot).value.registry.timers[place]? = registry.timers[place]? :=
        (hother place fun h => hnot (h ▸ hplace)).trans (htimers place hplace)
      obtain ⟨rest, hsweeps, hleft, hframe, hcount⟩ :=
        ih _ hslots harmed (hentries'.trans hentries) (hserving'.trans hserving) hlater
      refine ⟨left :: rest, ?_, ?_, fun place hplace => ?_, ?_⟩
      · exact .turn htimer hentry (hserving ▸ hsettles) hsweeps
      · exact congrArg₂ List.cons ((hframe slot hnot).trans hself) hleft
      · obtain ⟨hne, hplace⟩ := not_or.1 (mt List.mem_cons.2 hplace)
        exact (hframe place hplace).trans (hother place (Ne.symm hne))
      · rw [Firing.callsAll, List.length_append, ← Nat.add_assoc, ← hfired]
        exact hcount

/-- **A poll from beginning to end**: from a registry in a world, at a moment, to a registry in a
world, with calls into the resources on the way. -/
structure Swept (registry : Registry ω) (now : Millis) (world : ω) (next : Registry ω)
    (calls : List (Call ω)) (last : ω) : Prop where
  /-- The timers that fire are those whose deadline has come. -/
  due_iff : ∀ slot, slot ∈ registry.due now ↔ ∃ periodic,
    registry.timers[slot]? = some (some periodic) ∧ periodic.timer.deadline ≤ now
  /-- They fire in the order of their deadlines and of registration, so each of them once. -/
  ordered : (registry.due now).Pairwise registry.FiresBefore
  /-- Each of them is settled, and what is left of it stands in its place. -/
  sweeps : ∃ left, registry.Sweeps now world (registry.due now) left calls last
    ∧ (registry.due now).map (next.timers[·]?) = left.map some
  other : ∀ slot ∉ registry.due now, next.timers[slot]? = registry.timers[slot]?
  frame : next = { registry with timers := next.timers }

theorem mem_due_iff_deadline {slot : Nat} :
    slot ∈ registry.due now ↔ ∃ periodic, registry.timers[slot]? = some (some periodic)
      ∧ periodic.timer.deadline ≤ now := by
  simp only [mem_due_iff, Timer.expired, decide_eq_true_iff]

/-- A poll at a moment goes from its beginning to its end, and counts its calls. -/
theorem WellFormed.swept_fireAll (hwell : registry.WellFormed capacity) (now : Millis)
    (world : ω) :
    ∃ next calls last, registry.Swept now world next calls last
      ∧ (registry.fireAll now world).value = ⟨next, last, calls.length⟩
      ∧ (registry.recorded.fireAll now ⟨world, []⟩).value
        = ⟨next.recorded, ⟨last, calls⟩, calls.length⟩ := by
  let firing : Firing ω := ⟨registry, world, 0⟩
  let after := firing.afterAll now (registry.due now)
  let calls := Firing.callsAll now firing (registry.due now)
  obtain ⟨left, hsweeps, hleft, hother, hcount⟩ :=
    hwell.sweeps_afterAll firing (nodup_due registry now)
      (fun slot hslot => (mem_due_iff.1 hslot).imp fun _ => And.left) rfl rfl (fun _ _ => rfl)
  have hfired : after.fired = calls.length := hcount.trans (Nat.zero_add _)
  have hafter : (registry.fireAll now world).value = ⟨after.registry, after.world, calls.length⟩ :=
    (value_fireAll registry now world).trans (by rw [← hfired])
  have hframe : after.registry = { registry with timers := after.registry.timers } := by
    obtain ⟨hentries, hserving⟩ := Firing.afterAll_frame now firing (registry.due now)
    have hcapacity : after.registry.capacity = registry.capacity :=
      (Firing.wellFormed_afterAll hwell now _).capacity_eq.trans hwell.capacity_eq.symm
    rw [Registry.mk.injEq]
    exact ⟨hcapacity, hentries, rfl, hserving⟩
  refine ⟨after.registry, calls, after.world, ⟨fun _ => mem_due_iff_deadline,
    hwell.pairwise_due now, ⟨left, hsweeps, hleft⟩, hother, hframe⟩, hafter, ?_⟩
  rw [fireAll_recorded, hafter]
  rfl

theorem value_pollTimers [Clock κ] {clock clock' : κ} (hnow : Clock.now clock = (.ok now, clock'))
    (registry : Registry ω) (world : ω) :
    (registry.pollTimers clock world).value
      = let firing := (registry.fireAll now world).value
        (.ok firing.fired, firing.registry, clock', firing.world) := by
  rw [pollTimers, hnow]
  rfl

namespace Site

variable [Clock κ] {site : Site κ ω}

/-- **A poll runs just the activities that are due, in the order of their deadlines**, in every
state that is reached. What it yields counts the activities that have run. Without a time nothing
happens. -/
theorem poll_orderly (hreached : site.Reached) :
    (∀ now clock, Clock.now site.clock = (.ok now, clock) →
      ∃ next calls last, site.registry.Swept now site.world next calls last
        ∧ (site.registry.pollTimers site.clock site.world).value
          = (.ok calls.length, next, clock, last)
        ∧ (site.registry.recorded.pollTimers site.clock ⟨site.world, []⟩).value
          = (.ok calls.length, next.recorded, clock, ⟨last, calls⟩)
        ∧ (site.step .poll).value = ⟨next, clock, last⟩)
      ∧ ∀ e clock, Clock.now site.clock = (.error e, clock) →
        site.registry.pollTimers site.clock site.world
            = pure (.error e, site.registry, clock, site.world)
          ∧ site.step .poll = pure { site with clock := clock } := by
  obtain ⟨capacity, hwell⟩ := hreached.wellFormed
  refine ⟨fun now clock hnow => ?_, fun e clock hnow => ?_⟩
  · obtain ⟨next, calls, last, hswept, hafter, hrecorded⟩ := hwell.swept_fireAll now site.world
    have hpoll := value_pollTimers hnow site.registry site.world
    have hpoll' := value_pollTimers hnow site.registry.recorded ⟨site.world, []⟩
    rw [hafter] at hpoll
    rw [hrecorded] at hpoll'
    refine ⟨next, calls, last, hswept, hpoll, hpoll', ?_⟩
    rw [step, hpoll]
  · have hpoll : site.registry.pollTimers site.clock site.world
        = pure (.error e, site.registry, clock, site.world) := by
      rw [pollTimers, hnow]
    refine ⟨hpoll, ?_⟩
    rw [step, hpoll, hnow]
    rfl

/-! ### Timers of every kind -/

/-- Four resources that are to run every fifty milliseconds, every twenty, every twenty and every
seven. By the time of the poll the second is to run every thirty, and the third not at all. -/
def sampleTimers : Site Simulation.ManualClock Simulation.World :=
  let resource (n : Nat) := Simulation.scriptedResource n fun _ => none
  let traits (periods : List (Option Millis)) : Simulation.World :=
    { traits := periods.map fun period => { flags := .periodic, period := period } }
  ((start 4 {} (traits [some 50, some 20, some 20, some 7])).run
    [.register "a" (resource 0), .register "b" (resource 1), .register "c" (resource 2),
      .register "d" (resource 3), .init, .setClock { now := 60 },
      .setWorld (traits [some 50, some 30, some 0, some 7])]).value

theorem due_sampleTimers : sampleTimers.registry.due 60 = [3, 1, 2, 0] := by
  have htimers : sampleTimers.registry.timers = [some ⟨0, ⟨0, 50⟩⟩, some ⟨1, ⟨0, 20⟩⟩,
      some ⟨2, ⟨0, 20⟩⟩, some ⟨3, ⟨0, 7⟩⟩] := by
    decide +kernel
  simp [due, htimers, Timer.expired, Timer.deadline, List.mergeSort,
    List.MergeSort.Internal.splitInTwo]

theorem pollTimers_sampleTimers :
    (sampleTimers.registry.pollTimers sampleTimers.clock sampleTimers.world).value
      = let after := Firing.afterAll 60 ⟨sampleTimers.registry, sampleTimers.world, 0⟩ [3, 1, 2, 0]
        (.ok after.fired, after.registry, { now := 60 }, after.world) := by
  rw [← due_sampleTimers, ← value_fireAll]
  rfl

theorem poll_orderly_sampleTimers :
    sampleTimers.registry.due 60 = [3, 1, 2, 0]
      ∧ ∃ next calls last, sampleTimers.registry.Swept 60 sampleTimers.world next calls last
        ∧ (sampleTimers.step .poll).value = ⟨next, { now := 60 }, last⟩
        ∧ last.events = [.tick 3, .tick 1, .tick 0]
        ∧ next.timers.map (·.map (·.timer.deadline)) = [some 110, some 90, none, some 67] := by
  have hreached : sampleTimers.Reached := ⟨4, {}, _, _, rfl⟩
  obtain ⟨next, calls, last, hswept, hpoll, -, hstep⟩ :=
    (poll_orderly hreached).1 60 { now := 60 } rfl
  let after := Firing.afterAll 60 ⟨sampleTimers.registry, sampleTimers.world, 0⟩ [3, 1, 2, 0]
  obtain ⟨-, hnext, -, hlast⟩ : _ ∧ after.registry = next ∧ _ ∧ after.world = last := by
    simpa only [Prod.mk.injEq] using pollTimers_sampleTimers.symm.trans hpoll
  have hevents : after.world.events = [.tick 3, .tick 1, .tick 0] := by decide +kernel
  have htimers : after.registry.timers.map (·.map (·.timer.deadline))
      = [some 110, some 90, none, some 67] := by
    decide +kernel
  rw [hlast] at hevents
  rw [hnext] at htimers
  exact ⟨due_sampleTimers, next, calls, last, hswept, hstep, hevents, htimers⟩

end Site

end Registry

end CoapNode
