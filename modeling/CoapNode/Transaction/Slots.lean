set_option autoImplicit false

/-! # Slots

A row of places, each of which is free or taken. What is in one place does not move when
another place is freed. The row grows only when no place is free.
-/

namespace CoapNode

/-- A row of places. -/
abbrev Slots (α : Type) := List (Option α)

namespace Slots

variable {α : Type}

/-- What is in the places that are taken, in the order of the places. -/
def occupants (slots : Slots α) : List α := slots.filterMap id

/-- The first occupant with a property. -/
def find? (slots : Slots α) (p : α → Bool) : Option α := slots.occupants.find? p

/-- Replace the first occupant with a property, or free its place. -/
def update (slots : Slots α) (p : α → Bool) (new : Option α) : Slots α :=
  match slots with
  | [] => []
  | none :: rest => none :: update rest p new
  | some x :: rest => if p x then new :: rest else some x :: update rest p new

/-- Put something into the first free place, if there is one. -/
def fill? (slots : Slots α) (x : α) : Option (Slots α) :=
  match slots with
  | [] => none
  | none :: rest => some (some x :: rest)
  | some y :: rest => (fill? rest x).map (some y :: ·)

/-- Put something into the first free place. If there is none, the row grows by a place for it, as
long as it has fewer places than the given number. -/
def insert? (slots : Slots α) (capacity : Nat) (x : α) : Option (Slots α) :=
  match slots.fill? x with
  | some slots => some slots
  | none => if slots.length < capacity then some (slots ++ [some x]) else none

/-- Free the places of all occupants with a property. -/
def erase (slots : Slots α) (p : α → Bool) : Slots α := slots.map (·.filter fun x => !p x)

end Slots

end CoapNode
