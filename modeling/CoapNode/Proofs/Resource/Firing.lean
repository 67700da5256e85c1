import CoapNode.Proofs.Resource.Recorded
import CoapNode.Resource.Periodic

set_option autoImplicit false

/-! # What a poll of the timers does

A poll lets the timers fire that have expired (`Registry.due`), one after the other. What one of
them can lead to is listed by the constructors of `Registry.Firing.Fires`, together with the call
that is made into the resource; `Registry.Firing.fires` says that the list is complete. Recorders at
the resources write down these calls and change nothing else (`Registry.fireAll_recorded`), so the
activities that a poll runs are part of what it leaves behind (`Registry.ticked`).
-/

namespace CoapNode

variable {ω : Type}

theorem Traced.value_foldlM {ε α β : Type} (f : β → α → Traced ε β) (xs : List α) (b : β) :
    (xs.foldlM f b).value = xs.foldl (fun b x => (f b x).value) b := by
  induction xs generalizing b with
  | nil => rfl
  | cons x xs ih =>
      rw [List.foldlM_cons, value_bind, ih]
      rfl

/-- The place of a resource whose activity is called. -/
def Call.tickedPlace? : Call ω → Option Nat
  | .tick place _ => some place
  | _ => none

namespace Registry

/-! ## One timer -/

namespace Firing

/-- What a run over the timers has come to, with recorders at the resources. -/
def recorded (firing : Firing ω) (calls : List (Call ω)) : Firing (RecordedWorld ω) :=
  ⟨firing.registry.recorded, ⟨firing.world, calls⟩, firing.fired⟩

/-- **What the timer at a place can lead to**, and the call into its resource. -/
inductive Fires (now : Millis) (firing : Firing ω) (slot : Nat) :
    Firing ω → List (Call ω) → Prop where
  /-- There is no timer at the place. -/
  | vacant (htimer : firing.registry.timers[slot]?.join = none) : Fires now firing slot firing []
  /-- The timer belongs to no resource. -/
  | orphaned {periodic : Periodic} (htimer : firing.registry.timers[slot]?.join = some periodic)
      (hentry : firing.registry.entries[periodic.resource]? = none) :
      Fires now firing slot { firing with registry := firing.registry.setTimer slot none } []
  /-- The resource has no period any more. -/
  | lapsed {periodic : Periodic} {entry : Entry ω}
      (htimer : firing.registry.timers[slot]?.join = some periodic)
      (hentry : firing.registry.entries[periodic.resource]? = some entry)
      (hperiod : entry.period? firing.world = none) :
      Fires now firing slot { firing with registry := firing.registry.setTimer slot none } []
  /-- The registry does not serve, so the timer is armed again and nothing runs. -/
  | skipped {periodic : Periodic} {entry : Entry ω} {period : Millis}
      (htimer : firing.registry.timers[slot]?.join = some periodic)
      (hentry : firing.registry.entries[periodic.resource]? = some entry)
      (hperiod : entry.period? firing.world = some period)
      (hserving : firing.registry.initialized = false) :
      Fires now firing slot
        { firing with
          registry := firing.registry.setTimer slot (some ⟨periodic.resource, ⟨now, period⟩⟩) } []
  /-- The activity of the resource runs, and the timer is armed again. -/
  | ticked {periodic : Periodic} {entry : Entry ω} {period : Millis}
      (htimer : firing.registry.timers[slot]?.join = some periodic)
      (hentry : firing.registry.entries[periodic.resource]? = some entry)
      (hperiod : entry.period? firing.world = some period)
      (hserving : firing.registry.initialized = true) :
      Fires now firing slot
        ⟨firing.registry.setTimer slot (some ⟨periodic.resource, ⟨now, period⟩⟩),
          entry.resource.tick firing.world, firing.fired + 1⟩
        [.tick periodic.resource firing.world]

theorem value_tick (firing : Firing ω) (entry : Entry ω) :
    (firing.tick entry).value
      = if firing.registry.initialized then
          ⟨firing.registry, entry.resource.tick firing.world, firing.fired + 1⟩
        else firing := by
  rw [tick]
  split <;> rfl

/-- The list of cases is complete, whatever the recorders have written down before. -/
theorem exists_fires (now : Millis) (firing : Firing ω) (slot : Nat) :
    ∃ calls, Fires now firing slot (fire now firing slot).value calls
      ∧ ∀ past, (fire now (firing.recorded past) slot).value
          = (fire now firing slot).value.recorded (past ++ calls) := by
  -- with recorders the table of timers is the same, and so is what each entry says of its period
  have hentries (place : Nat) (past : List (Call ω)) :
      (firing.recorded past).registry.entries[place]?
        = firing.registry.entries[place]?.map (Entry.recorded place) := List.getElem?_mapIdx
  have htimers (past : List (Call ω)) :
      (firing.recorded past).registry.timers = firing.registry.timers := rfl
  simp only [fire, htimers, hentries]
  cases htimer : firing.registry.timers[slot]?.join with
  | none => exact ⟨[], .vacant htimer, fun past => by rw [List.append_nil]; rfl⟩
  | some periodic =>
      dsimp only
      cases hentry : firing.registry.entries[periodic.resource]? with
      | none => exact ⟨[], .orphaned htimer hentry, fun past => by rw [List.append_nil]; rfl⟩
      | some entry =>
          have hrecorded (past : List (Call ω)) :
              (entry.recorded periodic.resource).period? (firing.recorded past).world
                = entry.period? firing.world := rfl
          simp only [Option.map_some, hrecorded]
          cases hperiod : entry.period? firing.world with
          | none =>
              exact ⟨[], .lapsed htimer hentry hperiod, fun past => by rw [List.append_nil]; rfl⟩
          | some period =>
              have hrecorded' (past : List (Call ω)) :
                  (firing.recorded past).registry.initialized = firing.registry.initialized := rfl
              simp only [Traced.value_bind, Traced.value_pure, value_tick, hrecorded']
              cases hserving : firing.registry.initialized with
              | false =>
                  refine ⟨[], .skipped htimer hentry hperiod hserving, fun past => ?_⟩
                  rw [List.append_nil]
                  rfl
              | true => exact ⟨_, .ticked htimer hentry hperiod hserving, fun past => rfl⟩

/-- The calls that the timer at a place leads to. -/
def calls (now : Millis) (firing : Firing ω) (slot : Nat) : List (Call ω) :=
  (fire now (firing.recorded []) slot).value.world.calls

/-- **The list of cases is complete.** -/
theorem fires (now : Millis) (firing : Firing ω) (slot : Nat) :
    Fires now firing slot (fire now firing slot).value (calls now firing slot) := by
  obtain ⟨made, hfires, hrecorded⟩ := exists_fires now firing slot
  have hcalls : calls now firing slot = made := congrArg (·.world.calls) (hrecorded [])
  rw [hcalls]
  exact hfires

theorem fire_recorded (now : Millis) (firing : Firing ω) (slot : Nat) (past : List (Call ω)) :
    (fire now (firing.recorded past) slot).value
      = (fire now firing slot).value.recorded (past ++ calls now firing slot) := by
  obtain ⟨made, -, hrecorded⟩ := exists_fires now firing slot
  have hcalls : calls now firing slot = made := congrArg (·.world.calls) (hrecorded [])
  rw [hcalls, hrecorded]

/-! ## Several timers -/

/-- What is left when the timers at some places have fired, one after the other. -/
def afterAll (now : Millis) (firing : Firing ω) (slots : List Nat) : Firing ω :=
  slots.foldl (fun firing slot => (fire now firing slot).value) firing

/-- The calls that the timers at some places lead to. -/
def callsAll (now : Millis) : Firing ω → List Nat → List (Call ω)
  | _, [] => []
  | firing, slot :: slots =>
    calls now firing slot ++ callsAll now (fire now firing slot).value slots

/-- The worlds that are passed through: the first one, and the one after each timer. -/
def worlds (now : Millis) : Firing ω → List Nat → List ω
  | firing, [] => [firing.world]
  | firing, slot :: slots => firing.world :: worlds now (fire now firing slot).value slots

theorem afterAll_recorded (now : Millis) (firing : Firing ω) (slots : List Nat)
    (past : List (Call ω)) :
    (firing.recorded past).afterAll now slots
      = (firing.afterAll now slots).recorded (past ++ callsAll now firing slots) := by
  induction slots generalizing firing past with
  | nil =>
      rw [callsAll, List.append_nil]
      rfl
  | cons slot slots ih =>
      simp only [afterAll, List.foldl_cons, fire_recorded, callsAll, ← List.append_assoc]
      exact ih _ _

end Firing

/-! ## The timers that have expired -/

section

variable {registry : Registry ω} {now : Millis}

theorem mem_due_iff {slot : Nat} :
    slot ∈ registry.due now ↔ ∃ periodic, registry.timers[slot]? = some (some periodic)
      ∧ periodic.timer.expired now = true := by
  simp only [due, List.mem_map, List.mem_mergeSort, List.mem_filterMap,
    List.mem_zipIdx_iff_getElem?, Option.map_eq_some_iff, Option.filter_eq_some_iff, Prod.exists]
  constructor
  · rintro ⟨deadline, place, ⟨timer, place', htimer, periodic, ⟨rfl, hexpired⟩, hpair⟩, rfl⟩
    obtain ⟨-, rfl⟩ := Prod.mk.inj hpair
    exact ⟨periodic, htimer, hexpired⟩
  · rintro ⟨periodic, htimer, hexpired⟩
    exact ⟨_, slot, ⟨_, slot, htimer, periodic, ⟨rfl, hexpired⟩, rfl⟩, rfl⟩

/-- No timer fires twice in one poll. -/
theorem nodup_due (registry : Registry ω) (now : Millis) : (registry.due now).Nodup := by
  -- sorting keeps the places apart, which are counted up along the table
  have hplaces : registry.timers.zipIdx.Pairwise fun x y => x.2 ≠ y.2 := by
    rw [← List.pairwise_map (f := Prod.snd), List.zipIdx_map_snd]
    exact List.nodup_range'
  rw [due, ((List.mergeSort_perm _ _).map _).nodup_iff, List.map_filterMap]
  refine List.pairwise_filterMap.2 (hplaces.imp ?_)
  intro x y hne slot hx slot' hy
  simp only [Option.map_map, Option.map_eq_some_iff] at hx hy
  obtain ⟨_, -, rfl⟩ := hx
  obtain ⟨_, -, rfl⟩ := hy
  exact hne

theorem length_due_le (registry : Registry ω) (now : Millis) :
    (registry.due now).length ≤ registry.timers.length := by
  rw [due, List.length_map, List.length_mergeSort]
  exact Nat.le_trans (List.length_filterMap_le _ _) (Nat.le_of_eq List.length_zipIdx)

end

/-! ## A whole poll -/

/-- **The activities that a poll runs**, each by the place of its resource. -/
def ticked (registry : Registry ω) (now : Millis) (world : ω) : List Nat :=
  (registry.recorded.fireAll now ⟨world, []⟩).value.world.calls.filterMap Call.tickedPlace?

theorem value_fireAll (registry : Registry ω) (now : Millis) (world : ω) :
    (registry.fireAll now world).value
      = Firing.afterAll now ⟨registry, world, 0⟩ (registry.due now) :=
  Traced.value_foldlM _ _ _

/-- **Recorders write down which activities a poll runs**, and change nothing else. -/
theorem fireAll_recorded (registry : Registry ω) (now : Millis) (world : ω)
    (past : List (Call ω)) :
    (registry.recorded.fireAll now ⟨world, past⟩).value
      = (registry.fireAll now world).value.recorded
          (past ++ Firing.callsAll now ⟨registry, world, 0⟩ (registry.due now)) := by
  rw [value_fireAll, value_fireAll]
  exact Firing.afterAll_recorded now ⟨registry, world, 0⟩ (registry.due now) past

end Registry

end CoapNode
