import CoapNode.Transaction.Slots

set_option autoImplicit false

/-! # Places and their occupants

Who is in a row of places, and in which order, is its list of occupants (`Slots.occupants`).
Finding, replacing and inserting concern one place each, so they are described by cutting the row in
front of that place and behind it (`split_of_find?`, `split_of_insert?`). Freeing and changing all
places at once are operations on the list of occupants.
-/

namespace CoapNode.Slots

variable {α : Type}

@[simp] theorem occupants_nil : occupants ([] : Slots α) = [] :=
  rfl

@[simp] theorem occupants_append (front back : Slots α) :
    occupants (front ++ back) = front.occupants ++ back.occupants :=
  List.filterMap_append

@[simp] theorem occupants_cons_none (slots : Slots α) :
    occupants (none :: slots) = slots.occupants :=
  rfl

@[simp] theorem occupants_cons_some (x : α) (slots : Slots α) :
    occupants (some x :: slots) = x :: slots.occupants :=
  rfl

theorem length_occupants_le (slots : Slots α) : slots.occupants.length ≤ slots.length :=
  List.length_filterMap_le id slots

theorem length_update (slots : Slots α) (p : α → Bool) (new : Option α) :
    (slots.update p new).length = slots.length := by
  fun_induction update slots p new with
  | case1 => rfl
  | case2 rest ih => exact congrArg (· + 1) ih
  | case3 x rest hx => rfl
  | case4 x rest hx ih => exact congrArg (· + 1) ih

/-- **The place of a first occupant.** If a row has an occupant with a property, it can be cut at
the place of the first one, and that is the place that an update changes. -/
theorem split_of_find? {slots : Slots α} {p : α → Bool} {x : α} (h : slots.find? p = some x) :
    p x = true ∧ ∃ front back : Slots α, slots = front ++ some x :: back
      ∧ (∀ y ∈ front.occupants, p y = false)
      ∧ ∀ new, slots.update p new = front ++ new :: back := by
  induction slots with
  | nil => cases h
  | cons place slots ih =>
      cases place with
      | none =>
          obtain ⟨hx, front, back, hslots, hfront, hupdate⟩ := ih h
          exact ⟨hx, none :: front, back, congrArg (none :: ·) hslots, hfront,
            fun new => congrArg (none :: ·) (hupdate new)⟩
      | some y =>
          rw [find?, occupants_cons_some, List.find?_cons] at h
          cases hy : p y with
          | true =>
              rw [hy] at h
              obtain rfl := Option.some.inj h
              exact ⟨hy, [], slots, rfl, nofun, fun new => by simp [update, hy]⟩
          | false =>
              rw [hy] at h
              obtain ⟨hx, front, back, hslots, hfront, hupdate⟩ := ih h
              refine ⟨hx, some y :: front, back, congrArg (some y :: ·) hslots, ?_, fun new => ?_⟩
              · rintro z (- | ⟨-, hz⟩)
                · exact hy
                · exact hfront z hz
              · simp [update, hy, hupdate new]

/-- Without an occupant with the property, an update changes nothing. -/
theorem update_of_find?_eq_none {slots : Slots α} {p : α → Bool} (h : slots.find? p = none)
    (new : Option α) : slots.update p new = slots := by
  induction slots with
  | nil => rfl
  | cons place slots ih =>
      cases place with
      | none => exact congrArg (none :: ·) (ih h)
      | some x =>
          rw [find?, occupants_cons_some, List.find?_cons] at h
          cases hx : p x with
          | true =>
              rw [hx] at h
              cases h
          | false =>
              rw [hx] at h
              simp [update, hx, ih h]

/-- **Updates of different occupants commute**, if neither puts in what the other one looks for. -/
theorem update_comm {p q : α → Bool} {new new' : Option α} (hpq : ∀ x, p x = true → q x = false)
    (hnew : ∀ x ∈ new, q x = false) (hnew' : ∀ x ∈ new', p x = false) (slots : Slots α) :
    (slots.update p new).update q new' = (slots.update q new').update p new := by
  induction slots with
  | nil => rfl
  | cons place slots ih =>
      cases place with
      | none => exact congrArg (none :: ·) ih
      | some x =>
          cases hp : p x with
          | true =>
              -- what has been put in is passed over
              cases new with
              | none => simp [update, hp, hpq x hp]
              | some y => simp [update, hp, hpq x hp, hnew y rfl]
          | false =>
              cases hq : q x with
              | true =>
                  cases new' with
                  | none => simp [update, hp, hq]
                  | some y => simp [update, hp, hq, hnew' y rfl]
              | false => simp [update, hp, hq, ih]

/-- Filling takes the first free place. -/
theorem split_of_fill? {slots slots' : Slots α} {x : α} (h : slots.fill? x = some slots') :
    ∃ front back : Slots α, slots = front ++ none :: back ∧ slots' = front ++ some x :: back := by
  induction slots generalizing slots' with
  | nil => cases h
  | cons place slots ih =>
      cases place with
      | none =>
          obtain rfl := Option.some.inj h
          exact ⟨[], slots, rfl, rfl⟩
      | some y =>
          obtain ⟨rest, hrest, rfl⟩ := Option.map_eq_some_iff.1 h
          obtain ⟨front, back, hslots, hnew⟩ := ih hrest
          exact ⟨some y :: front, back, congrArg (some y :: ·) hslots,
            congrArg (some y :: ·) hnew⟩

/-- Nothing can be filled in exactly if all places are taken. -/
theorem fill?_eq_none_iff {slots : Slots α} {x : α} :
    slots.fill? x = none ↔ slots.occupants.length = slots.length := by
  induction slots with
  | nil => exact iff_of_true rfl rfl
  | cons place slots ih =>
      cases place with
      | none =>
          have hle := length_occupants_le slots
          refine iff_of_false nofun ?_
          rw [occupants_cons_none, List.length_cons]
          omega
      | some y => simp [fill?, ih]

/-- **The place of a newcomer.** Inserting takes a free place, or a new one at the end of a row that
is full but has not reached its capacity. -/
theorem split_of_insert? {slots slots' : Slots α} {capacity : Nat} {x : α}
    (h : slots.insert? capacity x = some slots') :
    ∃ front back : Slots α, slots' = front ++ some x :: back
      ∧ (slots = front ++ none :: back
        ∨ slots = front ∧ back = [] ∧ slots.occupants.length = slots.length
          ∧ slots.length < capacity) := by
  rw [insert?] at h
  split at h
  · next hfill =>
      obtain rfl := Option.some.inj h
      obtain ⟨front, back, hslots, hslots'⟩ := split_of_fill? hfill
      exact ⟨front, back, hslots', .inl hslots⟩
  · next hfill =>
      split at h
      · next hroom =>
          obtain rfl := Option.some.inj h
          exact ⟨slots, [], rfl, .inr ⟨rfl, rfl, fill?_eq_none_iff.1 hfill, hroom⟩⟩
      · cases h

/-- A row does not grow beyond its capacity. -/
theorem length_insert?_le {slots slots' : Slots α} {capacity : Nat} {x : α}
    (h : slots.insert? capacity x = some slots') (hle : slots.length ≤ capacity) :
    slots'.length ≤ capacity := by
  obtain ⟨front, back, rfl, rfl | ⟨rfl, rfl, -, hroom⟩⟩ := split_of_insert? h
  · simpa using hle
  · rw [List.length_append]
    exact hroom

/-- Nothing can be inserted exactly if all places are taken and the row has reached its capacity. -/
theorem insert?_eq_none_iff {slots : Slots α} {capacity : Nat} {x : α} :
    slots.insert? capacity x = none
      ↔ slots.occupants.length = slots.length ∧ capacity ≤ slots.length := by
  rw [insert?, ← fill?_eq_none_iff (x := x)]
  cases slots.fill? x with
  | some slots' => simp
  | none => simp

theorem occupants_erase (slots : Slots α) (p : α → Bool) :
    (slots.erase p).occupants = slots.occupants.filter (!p ·) := by
  induction slots with
  | nil => rfl
  | cons place slots ih =>
      cases place with
      | none => exact ih
      | some x =>
          show occupants (Option.filter (fun y => !p y) (some x) :: erase slots p) = _
          cases hx : p x <;> simp [Option.filter, hx, ih]

theorem erase_append (front back : Slots α) (p : α → Bool) :
    erase (front ++ back) p = front.erase p ++ back.erase p :=
  List.map_append

/-- Without an occupant with the property, no place is freed. -/
theorem erase_eq_self {slots : Slots α} {p : α → Bool} (h : ∀ x ∈ slots.occupants, p x = false) :
    slots.erase p = slots := by
  induction slots with
  | nil => rfl
  | cons place slots ih =>
      cases place with
      | none => exact congrArg (none :: ·) (ih h)
      | some x =>
          obtain ⟨hx, hrest⟩ := List.forall_mem_cons.1 h
          show Option.filter (fun y => !p y) (some x) :: erase slots p = _
          simp [Option.filter, hx, ih hrest]

theorem occupants_map (slots : Slots α) (f : α → α) :
    occupants (slots.map (·.map f)) = slots.occupants.map f := by
  induction slots with
  | nil => rfl
  | cons place slots ih =>
      cases place with
      | none => exact ih
      | some x => exact congrArg (f x :: ·) ih

/-- What the places bring is what their occupants bring. -/
theorem flatMap_elim {β : Type} (slots : Slots α) (f : α → List β) :
    (slots.flatMap fun place => place.elim [] f) = slots.occupants.flatMap f := by
  induction slots with
  | nil => rfl
  | cons place slots ih =>
      cases place with
      | none => exact ih
      | some x => exact congrArg (f x ++ ·) ih

end CoapNode.Slots
