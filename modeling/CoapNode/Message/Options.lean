import CoapNode.Bytes

set_option autoImplicit false

/-! # Message options

A message carries options: numbered values, where a number may occur several times. They are
kept in the order in which they are sent, by ascending number, and the values of one number
in the order in which they were added.
-/

namespace CoapNode

/-- One option of a message. -/
structure OptionInstance where
  number : UInt32
  value : Bytes
deriving DecidableEq, Repr

/-- May the first option stand before the second one? -/
def OptionInstance.notAfter (a b : OptionInstance) : Bool := a.number ≤ b.number

theorem OptionInstance.notAfter_trans (a b c : OptionInstance) (hab : a.notAfter b = true)
    (hbc : b.notAfter c = true) : a.notAfter c = true :=
  decide_eq_true (UInt32.le_trans (of_decide_eq_true hab) (of_decide_eq_true hbc))

theorem OptionInstance.notAfter_total (a b : OptionInstance) :
    (a.notAfter b || b.notAfter a) = true := by
  simpa [notAfter] using UInt32.le_total a.number b.number

/-- Place an option behind all options whose number is not larger. -/
def insertOption (x : OptionInstance) : List OptionInstance → List OptionInstance
  | [] => [x]
  | y :: ys => if y.number ≤ x.number then y :: insertOption x ys else x :: y :: ys

theorem mem_insertOption {x z : OptionInstance} {ys : List OptionInstance} :
    z ∈ insertOption x ys ↔ z = x ∨ z ∈ ys := by
  induction ys with
  | nil => simp [insertOption]
  | cons y ys ih =>
    unfold insertOption
    split
    · rw [List.mem_cons, ih, List.mem_cons]
      exact or_left_comm
    · rw [List.mem_cons]

theorem pairwise_insertOption {x : OptionInstance} {ys : List OptionInstance}
    (h : ys.Pairwise fun a b => a.number ≤ b.number) :
    (insertOption x ys).Pairwise fun a b => a.number ≤ b.number := by
  induction ys with
  | nil => simp [insertOption]
  | cons y ys ih =>
    rw [List.pairwise_cons] at h
    unfold insertOption
    split
    · rename_i hle
      refine List.pairwise_cons.2 ⟨fun z hz => ?_, ih h.2⟩
      rcases mem_insertOption.1 hz with rfl | hz
      · exact hle
      · exact h.1 z hz
    · rename_i hlt
      have hxy : x.number ≤ y.number := UInt32.le_of_lt (UInt32.not_le.1 hlt)
      refine List.pairwise_cons.2 ⟨fun z hz => ?_, List.pairwise_cons.2 h⟩
      rcases List.mem_cons.1 hz with rfl | hz
      · exact hxy
      · exact UInt32.le_trans hxy (h.1 z hz)

/-- The options of a message, by ascending number. -/
@[ext] structure Options where
  items : List OptionInstance
  ascending : items.Pairwise fun a b => a.number ≤ b.number
deriving DecidableEq, Repr

namespace Options

/-- No options. -/
def empty : Options := ⟨[], List.Pairwise.nil⟩

/-- The options of a list. The values of one number stay in the order of the list. -/
def ofList (items : List OptionInstance) : Options :=
  ⟨items.mergeSort OptionInstance.notAfter,
    (List.pairwise_mergeSort OptionInstance.notAfter_trans OptionInstance.notAfter_total items).imp
      of_decide_eq_true⟩

/-- A list that is in order already stays as it is. -/
theorem items_ofList {items : List OptionInstance}
    (h : items.Pairwise fun a b => a.number ≤ b.number) : (ofList items).items = items :=
  List.mergeSort_of_pairwise (h.imp decide_eq_true)

/-- Add a value to those of a number. -/
def push (options : Options) (number : UInt32) (value : Bytes) : Options :=
  ⟨insertOption ⟨number, value⟩ options.items, pairwise_insertOption options.ascending⟩

/-- Drop all values of a number. -/
def remove (options : Options) (number : UInt32) : Options :=
  ⟨options.items.filter (·.number ≠ number), options.ascending.filter _⟩

/-- Make a value the only one of its number. -/
def set (options : Options) (number : UInt32) (value : Bytes) : Options :=
  (options.remove number).push number value

/-- The values of a number, in the order in which they were added. -/
def values (options : Options) (number : UInt32) : List Bytes :=
  (options.items.filter (·.number = number)).map (·.value)

/-- The first value of a number. -/
def first? (options : Options) (number : UInt32) : Option Bytes := (options.values number).head?

/-- The numbers that occur, ascending, each with its values. -/
def byNumber (options : Options) : List (UInt32 × List Bytes) :=
  (options.items.map (·.number)).eraseDups.map fun number => (number, options.values number)

/-! ## Numbers with a meaning here -/

/-- Registers or deregisters an observer; in a response, the sequence number. -/
def observe : UInt32 := 6

/-- One segment of the path of a request. -/
def uriPath : UInt32 := 11

/-- The format of the payload. -/
def contentFormat : UInt32 := 12

/-- Which block of the response is wanted or sent. -/
def block2 : UInt32 := 23

end Options

end CoapNode
