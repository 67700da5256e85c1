import CoapNode.Proofs.Resource.Firing

set_option autoImplicit false

/-! # Runs of the registry

A run of the registry is a list of operations, between which its clock and the world of its
resources may change at will (`Registry.Site.run`). Some registrations enter a timer beside the
resource and others do not, a timer may be dropped but its place is never used again, and a
registration may fail when the clock is read, so the two tables of the registry grow apart. What
holds of them in every run is `Registry.WellFormed`; from it follows that no operation ever needs
more places than there are (`Registry.Site.run_orderly`).
-/

namespace CoapNode.Registry

variable {ω κ : Type}

/-! ## The shape of a registry -/

/-- The resources that have a timer, in the order of the timers. -/
def armedPlaces (registry : Registry ω) : List Nat :=
  registry.timers.filterMap fun slot => slot.map (·.resource)

/-- **The shape of a registry**: it holds at most as many resources as there is room for, and has at
most as many places for timers as it holds resources. The timers that are left belong to resources
that it holds, to each resource at most one, in the order of registration. -/
structure WellFormed (capacity : Nat) (registry : Registry ω) : Prop where
  capacity_eq : registry.capacity = capacity
  entries_le : registry.entries.length ≤ capacity
  timers_le : registry.timers.length ≤ registry.entries.length
  armed_lt : ∀ place ∈ registry.armedPlaces, place < registry.entries.length
  ascending : registry.armedPlaces.Pairwise (· < ·)

theorem wellFormed_empty (capacity : Nat) : (empty capacity : Registry ω).WellFormed capacity where
  capacity_eq := rfl
  entries_le := Nat.zero_le capacity
  timers_le := Nat.le_refl 0
  armed_lt := List.forall_mem_nil _
  ascending := List.Pairwise.nil

section

variable {registry next : Registry ω} {capacity : Nat}

/-- Resources and timers for which there is room may be entered. -/
theorem WellFormed.push (h : registry.WellFormed capacity)
    (hroom : registry.entries.length < capacity) (entry : Entry ω) (timer : Option Timer) :
    (registry.push entry timer).WellFormed capacity := by
  have htimers := h.timers_le
  have hentries : (registry.push entry timer).entries.length = registry.entries.length + 1 :=
    List.length_append
  cases timer with
  | none =>
      have hsame : (registry.push entry none).timers = registry.timers := List.append_nil _
      have harmed : (registry.push entry none).armedPlaces = registry.armedPlaces := by
        rw [armedPlaces, hsame, armedPlaces]
      refine ⟨h.capacity_eq, by omega, by rw [hsame]; omega, ?_, harmed ▸ h.ascending⟩
      rw [harmed, hentries]
      exact fun place hplace => Nat.lt_succ_of_lt (h.armed_lt place hplace)
  | some timer =>
      have harmed : (registry.push entry (some timer)).armedPlaces
          = registry.armedPlaces ++ [registry.entries.length] := List.filterMap_append
      have hlength : (registry.push entry (some timer)).timers.length
          = registry.timers.length + 1 := List.length_append
      refine ⟨h.capacity_eq, by omega, by omega, ?_, ?_⟩
      -- the new resource is the last one, so its timer belongs behind the others
      · rw [harmed, hentries]
        intro place hplace
        rcases List.mem_append.1 hplace with hplace | hplace
        · exact Nat.lt_succ_of_lt (h.armed_lt place hplace)
        · rw [List.mem_singleton.1 hplace]
          exact Nat.lt_succ_self _
      · rw [harmed, List.pairwise_append]
        refine ⟨h.ascending, List.pairwise_singleton _ _, fun place hplace last hlast => ?_⟩
        rw [List.mem_singleton.1 hlast]
        exact h.armed_lt place hplace

/-- A place of a list is overwritten with something that counts no more than what was there. -/
theorem filterMap_set_sublist {α β : Type} {f : α → Option β} {xs : List α} {x y : α} {i : Nat}
    (hy : xs[i]? = some y) (h : f x = none ∨ f x = f y) :
    ((xs.set i x).filterMap f).Sublist (xs.filterMap f) := by
  induction xs generalizing i with
  | nil => cases hy
  | cons z zs ih =>
      cases i with
      | zero =>
          obtain rfl : z = y := Option.some.inj hy
          rw [List.set_cons_zero, List.filterMap_cons, List.filterMap_cons]
          rcases h with h | h
          · rw [h]
            cases f z with
            | none => exact List.Sublist.refl _
            | some b => exact List.sublist_cons_self b _
          · simp only [h]
            exact List.Sublist.refl _
      | succ i =>
          rw [List.set_cons_succ, List.filterMap_cons, List.filterMap_cons]
          split
          · exact ih hy
          · exact (ih hy).cons_cons _

/-- A timer may be dropped, or armed again for the same resource. -/
theorem WellFormed.setTimer (h : registry.WellFormed capacity) {slot : Nat} {periodic : Periodic}
    {timer : Option Periodic} (htimer : registry.timers[slot]?.join = some periodic)
    (hsame : ∀ p ∈ timer, p.resource = periodic.resource) :
    (registry.setTimer slot timer).WellFormed capacity := by
  have hslot : registry.timers[slot]? = some (some periodic) := Option.join_eq_some_iff.1 htimer
  have hfewer : ((registry.setTimer slot timer).armedPlaces).Sublist registry.armedPlaces := by
    refine filterMap_set_sublist hslot ?_
    cases timer with
    | none => exact .inl rfl
    | some p => exact .inr (congrArg some (hsame p rfl))
  refine ⟨h.capacity_eq, h.entries_le, ?_,
    fun place hplace => h.armed_lt place (hfewer.subset hplace), h.ascending.sublist hfewer⟩
  rw [Registry.setTimer, List.length_set]
  exact h.timers_le

end

namespace Firing

variable {now : Millis} {firing last : Firing ω} {slot capacity : Nat} {calls : List (Call ω)}

/-- What fires adds and removes no resources, and leaves it open whether requests are served. -/
theorem Fires.frame (h : firing.Fires now slot last calls) :
    last.registry.entries = firing.registry.entries
      ∧ last.registry.initialized = firing.registry.initialized := by
  cases h <;> exact ⟨rfl, rfl⟩

theorem Fires.wellFormed (h : firing.Fires now slot last calls)
    (hwell : firing.registry.WellFormed capacity) : last.registry.WellFormed capacity := by
  cases h with
  | vacant => exact hwell
  | orphaned htimer | lapsed htimer => exact hwell.setTimer htimer (fun _ hp => by cases hp)
  | skipped htimer | ticked htimer =>
      exact hwell.setTimer htimer (fun _ hp => by rw [← Option.some.inj hp])

theorem afterAll_frame (now : Millis) (firing : Firing ω) (slots : List Nat) :
    (firing.afterAll now slots).registry.entries = firing.registry.entries
      ∧ (firing.afterAll now slots).registry.initialized = firing.registry.initialized := by
  induction slots generalizing firing with
  | nil => exact ⟨rfl, rfl⟩
  | cons slot slots ih =>
      obtain ⟨hentries, hserving⟩ := (fires now firing slot).frame
      obtain ⟨hentries', hserving'⟩ := ih (fire now firing slot).value
      exact ⟨hentries'.trans hentries, hserving'.trans hserving⟩

theorem wellFormed_afterAll (h : firing.registry.WellFormed capacity) (now : Millis)
    (slots : List Nat) : (firing.afterAll now slots).registry.WellFormed capacity := by
  induction slots generalizing firing with
  | nil => exact h
  | cons slot slots ih => exact ih ((fires now firing slot).wellFormed h)

end Firing

/-! ## Registrations -/

section

variable [Clock κ] {registry next : Registry ω} {path : String} {resource : Resource ω} {clock : κ}
  {world : ω} {place : Nat} {cause : RegisterError}

/-- **The timer of a new entry**: none if there is no period, and else one that is armed when the
clock is read. -/
inductive Arms (entry : Entry ω) (clock : κ) (world : ω) : Option Timer → Prop where
  | idle (hperiod : entry.period? world = none) : Arms entry clock world none
  | armed {period now : Millis} (hperiod : entry.period? world = some period)
      (hnow : (Clock.now clock).1 = .ok now) : Arms entry clock world (some ⟨now, period⟩)

theorem arm_cases (entry : Entry ω) (clock : κ) (world : ω) :
    (∃ timer, (arm entry clock world).value.1 = .ok timer ∧ Arms entry clock world timer)
      ∨ (arm entry clock world).value.1 = .error .clock
        ∧ entry.period? world ≠ none ∧ ∃ e, (Clock.now clock).1 = .error e := by
  rw [arm]
  cases hperiod : entry.period? world with
  | none => exact .inl ⟨none, rfl, .idle hperiod⟩
  | some period =>
      cases hnow : Clock.now clock with
      | mk reading clock' =>
          cases reading with
          | error e => exact .inr ⟨rfl, Option.some_ne_none period, e, rfl⟩
          | ok now => exact .inl ⟨_, rfl, .armed hperiod (congrArg Prod.fst hnow)⟩

theorem value_register (hroom : registry.entries.length < registry.capacity) :
    (registry.register path resource clock world).value
      = let entry : Entry ω := ⟨path, resource.flags world, resource⟩
        let armed := (arm entry clock world).value
        match armed.1 with
        | .error e => (.error e, registry, armed.2)
        | .ok timer => (.ok registry.entries.length, registry.push entry timer, armed.2) := by
  rw [register, if_neg (Nat.not_le.2 hroom)]
  simp only [Traced.value_bind]
  rcases (arm ⟨path, resource.flags world, resource⟩ clock world).value with ⟨_ | _, _⟩ <;> rfl

/-- **What comes of a registration.** There is no room, or the resource has a period and the clock
cannot be read, and the registry is as it was; or the resource is put behind the others with its
timer, and its place is yielded. -/
theorem register_cases (registry : Registry ω) (path : String) (resource : Resource ω) (clock : κ)
    (world : ω) :
    let entry : Entry ω := ⟨path, resource.flags world, resource⟩
    let after := (registry.register path resource clock world).value
    registry.capacity ≤ registry.entries.length ∧ after.1 = .error .full ∧ after.2.1 = registry
      ∨ registry.entries.length < registry.capacity
        ∧ (after.1 = .error .clock ∧ after.2.1 = registry ∧ entry.period? world ≠ none
              ∧ (∃ e, (Clock.now clock).1 = .error e)
            ∨ ∃ timer, after.1 = .ok registry.entries.length
              ∧ after.2.1 = registry.push entry timer ∧ Arms entry clock world timer) := by
  intro entry after
  rcases Nat.lt_or_ge registry.entries.length registry.capacity with hroom | hfull
  · have hafter : after = _ := value_register hroom
    refine .inr ⟨hroom, ?_⟩
    rcases arm_cases entry clock world with ⟨timer, harm, harms⟩ | ⟨harm, hperiod, hclock⟩
    · dsimp only at hafter
      rw [harm] at hafter
      exact .inr ⟨timer, by rw [hafter], by rw [hafter], harms⟩
    · dsimp only at hafter
      rw [harm] at hafter
      exact .inl ⟨by rw [hafter], by rw [hafter], hperiod, hclock⟩
  · have hafter : after = (.error .full, registry, clock) := by
      show (registry.register path resource clock world).value = _
      rw [register, if_pos hfull]
      rfl
    rw [hafter]
    exact .inl ⟨hfull, rfl, rfl⟩

/-- A registration that goes through found room, and took the place behind the others. -/
theorem register_ok (h : (registry.register path resource clock world).value.1 = .ok place) :
    registry.entries.length < registry.capacity ∧ place = registry.entries.length
      ∧ ∃ timer, (registry.register path resource clock world).value.2.1
          = registry.push ⟨path, resource.flags world, resource⟩ timer
        ∧ Arms ⟨path, resource.flags world, resource⟩ clock world timer := by
  rcases register_cases registry path resource clock world with
    ⟨-, hresult, -⟩ | ⟨hroom, ⟨hresult, -⟩ | ⟨timer, hresult, hnext, harms⟩⟩
  · cases hresult.symm.trans h
  · cases hresult.symm.trans h
  · exact ⟨hroom, (Except.ok.inj (hresult.symm.trans h)).symm, timer, hnext, harms⟩

/-- **A registration that fails changes nothing.** It found no room, or could not read the clock. -/
theorem register_error
    (h : (registry.register path resource clock world).value.1 = .error cause) :
    (registry.register path resource clock world).value.2.1 = registry
      ∧ (cause = .full ∧ registry.capacity ≤ registry.entries.length
        ∨ cause = .clock ∧ ∃ e, (Clock.now clock).1 = .error e) := by
  rcases register_cases registry path resource clock world with
    ⟨hfull, hresult, hnext⟩ | ⟨-, ⟨hresult, hnext, -, hclock⟩ | ⟨timer, hresult, -⟩⟩
  · exact ⟨hnext, .inl ⟨Except.error.inj (h.symm.trans hresult), hfull⟩⟩
  · exact ⟨hnext, .inr ⟨Except.error.inj (h.symm.trans hresult), hclock⟩⟩
  · cases hresult.symm.trans h

end

/-! ## Operations -/

/-- A poll of the timers. -/
structure Poll (ω : Type) where
  /-- The moment of the poll. -/
  now : Millis
  /-- Whether the registry serves. -/
  serving : Bool
  /-- The places of the resources whose activities ran, in that order. -/
  ticked : List Nat
  /-- The worlds that the poll passed through. -/
  worlds : List ω

/-- The poll of a registry at a moment. -/
def pollAt (registry : Registry ω) (now : Millis) (world : ω) : Poll ω where
  now := now
  serving := registry.initialized
  ticked := registry.ticked now world
  worlds := Firing.worlds now ⟨registry, world, 0⟩ (registry.due now)

/-- What happens in a run. -/
inductive Event (ω : Type) where
  /-- A resource is registered under a path, and gets a place. -/
  | registered (place : Nat) (path : String)
  /-- A registration fails. -/
  | refused (path : String) (cause : RegisterError)
  /-- All resources and timers are dropped. -/
  | emptied
  /-- The timers are polled. -/
  | polled (poll : Poll ω)

/-- What has happened when a registration yields a place or fails. -/
def Event.ofResult (path : String) : Except RegisterError Nat → Event ω
  | .ok place => .registered place path
  | .error cause => .refused path cause

/-- What has happened when the timers are polled: nothing unless the clock shows a time. -/
def pollEvents (registry : Registry ω) (world : ω) : Except ClockError Millis → List (Event ω)
  | .ok now => [.polled (registry.pollAt now world)]
  | .error _ => []

/-- One operation, with its arguments, or a change of what surrounds the registry. -/
inductive Operation (κ ω : Type) where
  | register (path : String) (resource : Resource ω)
  | init
  | teardown
  | poll
  | dispatch (observer : Observer ω) (req : Request) (reply : Reply)
  | setClock (clock : κ)
  | setWorld (world : ω)

/-- A registry with the clock that it reads and the world of its resources. -/
structure Site (κ ω : Type) where
  registry : Registry ω
  clock : κ
  world : ω

namespace Site

variable [Clock κ]

/-- A site after an operation. -/
def step (site : Site κ ω) : Operation κ ω → Traced (Event ω) (Site κ ω)
  | .register path resource =>
    let (result, registry, clock) :=
      (site.registry.register path resource site.clock site.world).value
    ⟨⟨registry, clock, site.world⟩, [.ofResult path result]⟩
  | .init => pure { site with registry := site.registry.init.value }
  | .teardown => do
    Traced.emit .emptied
    pure { site with registry := site.registry.teardown.value }
  | .poll =>
    let (_, registry, clock, world) := (site.registry.pollTimers site.clock site.world).value
    ⟨⟨registry, clock, world⟩, site.registry.pollEvents site.world (Clock.now site.clock).1⟩
  | .dispatch observer req reply =>
    let (handled, registry) := (site.registry.dispatch observer req reply site.world).value
    pure { site with registry := registry, world := handled.world }
  | .setClock clock => pure { site with clock := clock }
  | .setWorld world => pure { site with world := world }

/-- A site after a list of operations, first operation first. -/
def run (site : Site κ ω) : List (Operation κ ω) → Traced (Event ω) (Site κ ω)
  | [] => pure site
  | op :: ops => do
    let next ← site.step op
    next.run ops

/-- The site with a registry that holds nothing. -/
def start (capacity : Nat) (clock : κ) (world : ω) : Site κ ω := ⟨.empty capacity, clock, world⟩

/-- **What an operation can make of the registry**, and what happens. -/
inductive Moves (site : Site κ ω) : Operation κ ω → Registry ω → List (Event ω) → Prop where
  | registered {path : String} {resource : Resource ω} {timer : Option Timer}
      (hroom : site.registry.entries.length < site.registry.capacity)
      (harms : Arms ⟨path, resource.flags site.world, resource⟩ site.clock site.world timer) :
      Moves site (.register path resource)
        (site.registry.push ⟨path, resource.flags site.world, resource⟩ timer)
        [.registered site.registry.entries.length path]
  | refused (path : String) (resource : Resource ω) (cause : RegisterError) :
      Moves site (.register path resource) site.registry [.refused path cause]
  | init : Moves site .init { site.registry with initialized := true } []
  | teardown : Moves site .teardown (.empty site.registry.capacity) [.emptied]
  | polled {now : Millis} (hnow : (Clock.now site.clock).1 = .ok now) :
      Moves site .poll
        (Firing.afterAll now ⟨site.registry, site.world, 0⟩ (site.registry.due now)).registry
        [.polled (site.registry.pollAt now site.world)]
  /-- There is no time. -/
  | unread {e : ClockError} (hnow : (Clock.now site.clock).1 = .error e) :
      Moves site .poll site.registry []
  | dispatch (observer : Observer ω) (req : Request) (reply : Reply) :
      Moves site (.dispatch observer req reply) site.registry []
  | setClock (clock : κ) : Moves site (.setClock clock) site.registry []
  | setWorld (world : ω) : Moves site (.setWorld world) site.registry []

variable {site : Site κ ω} {op : Operation κ ω} {next : Registry ω} {events : List (Event ω)}
  {capacity : Nat}

/-- **The list of cases is complete.** -/
theorem step_moves (site : Site κ ω) (op : Operation κ ω) :
    site.Moves op (site.step op).value.registry (site.step op).trace := by
  cases op with
  | register path resource =>
      let after := (site.registry.register path resource site.clock site.world).value
      show site.Moves (.register path resource) after.2.1 [.ofResult path after.1]
      cases hresult : after.1 with
      | ok place =>
          obtain ⟨hroom, rfl, timer, hnext, harms⟩ := register_ok hresult
          rw [hnext]
          exact .registered hroom harms
      | error cause =>
          obtain ⟨hnext, -⟩ := register_error hresult
          rw [hnext]
          exact .refused path resource cause
  | init =>
      have hinit : site.registry.init.value = { site.registry with initialized := true } := by
        rw [Registry.init]
        split
        · next hserving => simp [← hserving]
        · rfl
      show site.Moves .init site.registry.init.value []
      rw [hinit]
      exact .init
  | teardown => exact .teardown
  | poll =>
      rw [step, pollTimers]
      cases hnow : Clock.now site.clock with
      | mk reading clock =>
          cases reading with
          | error e => exact .unread (congrArg Prod.fst hnow)
          | ok now =>
              have hpolled : site.Moves .poll _ _ := .polled (congrArg Prod.fst hnow)
              rw [← value_fireAll] at hpolled
              exact hpolled
  | dispatch observer req reply =>
      show site.Moves _ (site.registry.dispatch observer req reply site.world).value.2 []
      rw [registry_dispatch]
      exact .dispatch observer req reply
  | setClock clock => exact .setClock clock
  | setWorld world => exact .setWorld world

/-! ## What every run keeps -/

theorem Moves.wellFormed (h : site.Moves op next events)
    (hwell : site.registry.WellFormed capacity) : next.WellFormed capacity := by
  cases h with
  | registered hroom => exact hwell.push (hwell.capacity_eq ▸ hroom) _ _
  | teardown =>
      rw [hwell.capacity_eq]
      exact wellFormed_empty capacity
  | polled => exact Firing.wellFormed_afterAll hwell _ _
  | init => exact ⟨hwell.capacity_eq, hwell.entries_le, hwell.timers_le, hwell.armed_lt,
      hwell.ascending⟩
  | refused | unread | dispatch | setClock | setWorld => exact hwell

/-- **The shape of a registry is kept by every run.** -/
theorem wellFormed_run (h : site.registry.WellFormed capacity) (ops : List (Operation κ ω)) :
    (site.run ops).value.registry.WellFormed capacity := by
  induction ops generalizing site with
  | nil => exact h
  | cons op ops ih => exact ih ((step_moves site op).wellFormed h)

end Site

/-! ## The places that registrations yield -/

/-- The places that have been yielded since the registry was emptied last, with their paths, once
an event has happened. -/
def Event.note (places : List (Nat × String)) : Event ω → List (Nat × String)
  | .registered place path => places ++ [(place, path)]
  | .emptied => []
  | .refused .. | .polled _ => places

/-- **The places that registrations have yielded** since the registry was emptied last, with the
paths that were registered, in that order. -/
def yielded (events : List (Event ω)) : List (Nat × String) := events.foldl Event.note []

/-- The paths of the resources that a registry holds, each with its place. -/
def directory (registry : Registry ω) : List (Nat × String) :=
  registry.entries.mapIdx fun place entry => (place, entry.path)

theorem map_fst_directory (registry : Registry ω) :
    registry.directory.map Prod.fst = List.range registry.directory.length := by
  refine List.ext_getElem (by simp) fun place _ _ => ?_
  simp [directory]

theorem path?_of_mem_directory {registry : Registry ω} {place : Nat} {path : String}
    (h : (place, path) ∈ registry.directory) : registry.path? place = some path := by
  obtain ⟨place', hplace, hpair⟩ := List.mem_mapIdx.1 h
  obtain ⟨rfl, rfl⟩ := Prod.mk.inj hpair
  rw [path?, List.getElem?_eq_getElem hplace]
  rfl

namespace Site

variable [Clock κ] {site : Site κ ω} {op : Operation κ ω} {next : Registry ω}
  {events : List (Event ω)}

theorem Moves.directory (h : site.Moves op next events) :
    events.foldl Event.note site.registry.directory = next.directory := by
  cases h with
  | registered =>
      rw [Registry.directory, Registry.directory, push, List.mapIdx_concat]
      rfl
  | @polled now hnow =>
      have hframe := Firing.afterAll_frame now ⟨site.registry, site.world, 0⟩
        (site.registry.due now)
      rw [Registry.directory, Registry.directory, hframe.1]
      rfl
  | teardown | init | refused | unread | dispatch | setClock | setWorld => rfl

theorem directory_run (site : Site κ ω) (ops : List (Operation κ ω)) :
    (site.run ops).trace.foldl Event.note site.registry.directory
      = (site.run ops).value.registry.directory := by
  induction ops generalizing site with
  | nil => rfl
  | cons op ops ih =>
      rw [run, Traced.trace_bind, List.foldl_append, (step_moves site op).directory]
      exact ih _

/-! ## Main result -/

/-- **The two tables of a registry in every run.** From the empty registry on, whatever operations
there are and however clock and world change:

* the registry has the shape `Registry.WellFormed`, and no more timers expire at once than there is
  room for, so a registration that goes through finds a place in both tables;
* the registrations since the registry was emptied last have yielded the places `0, 1, 2, …`, and
  under each of them the path is found that was registered;
* a registration that fails, because there is no room or because there is no time to arm the timer
  from, leaves the registry as it is;
* emptying the registry makes it the empty one again. -/
theorem run_orderly (capacity : Nat) (clock : κ) (world : ω) (ops : List (Operation κ ω)) :
    let run := (start capacity clock world).run ops
    let site := run.value
    site.registry.WellFormed capacity
      ∧ (∀ now, (site.registry.due now).length ≤ capacity)
      ∧ (yielded run.trace).map Prod.fst = List.range (yielded run.trace).length
      ∧ (∀ place path, (place, path) ∈ yielded run.trace → site.registry.path? place = some path)
      ∧ (∀ path resource place,
          (site.registry.register path resource site.clock site.world).value.1 = .ok place →
          place = (yielded run.trace).length
            ∧ (∃ timer, (site.step (.register path resource)).value.registry
                = site.registry.push ⟨path, resource.flags site.world, resource⟩ timer)
            ∧ site.registry.entries.length < capacity ∧ site.registry.timers.length < capacity)
      ∧ (∀ path resource cause,
          (site.registry.register path resource site.clock site.world).value.1 = .error cause →
          (site.step (.register path resource)).value.registry = site.registry
            ∧ (cause = .full ∧ site.registry.entries.length = capacity
              ∨ cause = .clock ∧ ∃ e, (Clock.now site.clock).1 = .error e))
      ∧ (site.step .teardown).value.registry = .empty capacity := by
  intro run site
  have hwell : site.registry.WellFormed capacity := wellFormed_run (wellFormed_empty capacity) ops
  have hyielded : yielded run.trace = site.registry.directory :=
    directory_run (start capacity clock world) ops
  have hentries := hwell.entries_le
  have htimers := hwell.timers_le
  refine ⟨hwell, fun now => ?_, ?_, fun place path hmem => ?_, fun path resource place h => ?_,
    fun path resource cause h => ?_, ?_⟩
  · have hdue := length_due_le site.registry now
    omega
  · rw [hyielded]
    exact map_fst_directory site.registry
  · exact path?_of_mem_directory (hyielded ▸ hmem)
  · obtain ⟨hroom, rfl, timer, hnext, -⟩ := register_ok h
    have hlength : (yielded run.trace).length = site.registry.entries.length := by
      rw [hyielded, directory, List.length_mapIdx]
    rw [hwell.capacity_eq] at hroom
    exact ⟨hlength.symm, ⟨timer, hnext⟩, hroom, by omega⟩
  · obtain ⟨hnext, hcause⟩ := register_error h
    rw [hwell.capacity_eq] at hcause
    exact ⟨hnext, hcause.imp_left fun ⟨hfull, hge⟩ => ⟨hfull, by omega⟩⟩
  · show Registry.empty site.registry.capacity = _
    rw [hwell.capacity_eq]

end Site

end CoapNode.Registry
