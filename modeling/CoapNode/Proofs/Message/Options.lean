import CoapNode.Message.Options

set_option autoImplicit false

/-! # The values of an option number

The options of a message are one list, sorted by number. What a reader of the options asks for
is the list of values of one number (`Options.values`), so the operations on options are
described by what they do to these lists: `push` appends to the values of its number, `remove`
leaves none, and `set` leaves exactly one. The values of other numbers stay as they are. Setting a
number twice is setting it once (`Options.set_set`), and pushing several values one after the other
keeps their order (`Options.items_foldl_push`).
-/

namespace CoapNode

/-- **An inserted option stands last among the options of its number.** The list has to be
sorted: the new option is placed in front of the first larger number, and in a sorted list no
option of the same number can follow there. -/
theorem filter_insertOption (x : OptionInstance) (m : UInt32) {ys : List OptionInstance}
    (h : ys.Pairwise fun a b => a.number ≤ b.number) :
    (insertOption x ys).filter (·.number = m)
      = ys.filter (·.number = m) ++ if x.number = m then [x] else [] := by
  induction ys with
  | nil => by_cases hx : x.number = m <;> simp [insertOption, hx]
  | cons y ys ih =>
      rw [List.pairwise_cons] at h
      unfold insertOption
      by_cases hyx : y.number ≤ x.number
      · rw [if_pos hyx, List.filter_cons, List.filter_cons, ih h.2]
        split <;> rfl
      · rw [if_neg hyx, List.filter_cons]
        by_cases hx : x.number = m
        · -- everything from `y` on has a larger number than `x`
          have hnil : (y :: ys).filter (·.number = m) = [] := by
            rw [List.filter_eq_nil_iff]
            intro z hz
            have hyz : y.number ≤ z.number := by
              rcases List.mem_cons.1 hz with rfl | hz
              · exact UInt32.le_refl _
              · exact h.1 z hz
            have hxz : x.number < z.number := UInt32.lt_of_lt_of_le (UInt32.not_le.1 hyx) hyz
            simpa [← hx] using (UInt32.ne_of_lt hxz).symm
          simp [hx, hnil]
        · simp [hx]

/-- Inserting an option only adds to its own number. -/
theorem filter_ne_insertOption (x : OptionInstance) (ys : List OptionInstance) :
    (insertOption x ys).filter (·.number ≠ x.number) = ys.filter (·.number ≠ x.number) := by
  induction ys with
  | nil => simp [insertOption]
  | cons y ys ih =>
      unfold insertOption
      by_cases h : y.number ≤ x.number
      · rw [if_pos h, List.filter_cons, List.filter_cons, ih]
      · rw [if_neg h, List.filter_cons_of_neg (by simp)]

theorem insertOption_of_forall_le {x : OptionInstance} {ys : List OptionInstance}
    (h : ∀ y ∈ ys, y.number ≤ x.number) : insertOption x ys = ys ++ [x] := by
  induction ys with
  | nil => rfl
  | cons y ys ih =>
      obtain ⟨hy, hys⟩ := List.forall_mem_cons.1 h
      rw [insertOption, if_pos hy, ih hys, List.cons_append]

namespace Options

theorem values_push (o : Options) (n m : UInt32) (v : Bytes) :
    (o.push n v).values m = o.values m ++ if n = m then [v] else [] := by
  simp only [values, push, filter_insertOption _ m o.ascending, List.map_append]
  split <;> rfl

theorem values_remove (o : Options) (n m : UInt32) :
    (o.remove n).values m = if n = m then [] else o.values m := by
  simp only [values, remove, List.filter_filter]
  by_cases h : n = m
  · subst h
    simp
  · rw [if_neg h]
    congr 2
    funext x
    by_cases hx : x.number = m
    · simp [hx, Ne.symm h]
    · simp [hx]

theorem values_set (o : Options) (n m : UInt32) (v : Bytes) :
    (o.set n v).values m = if n = m then [v] else o.values m := by
  rw [set, values_push, values_remove]
  split <;> simp

theorem first?_set (o : Options) (n : UInt32) (v : Bytes) : (o.set n v).first? n = some v := by
  simp [first?, values_set]

/-- Values of one number that are added one after the other stay in this order. -/
theorem items_foldl_push {α : Type} (number : UInt32) (valueOf : α → Bytes) (xs : List α)
    {options : Options} (h : ∀ option ∈ options.items, option.number = number) :
    (xs.foldl (fun options x => options.push number (valueOf x)) options).items
      = options.items ++ xs.map fun x => ⟨number, valueOf x⟩ := by
  induction xs generalizing options with
  | nil => exact (List.append_nil _).symm
  | cons x xs ih =>
      have hpush : (options.push number (valueOf x)).items
          = options.items ++ [⟨number, valueOf x⟩] :=
        insertOption_of_forall_le fun option hoption =>
          UInt32.le_of_eq (h option hoption)
      have hnumber : ∀ option ∈ (options.push number (valueOf x)).items,
          option.number = number := by
        rw [hpush]
        exact List.forall_mem_append.2 ⟨h, List.forall_mem_singleton.2 rfl⟩
      rw [List.foldl_cons, ih hnumber, hpush, List.append_assoc, List.map_cons,
        List.singleton_append]

/-! ## Setting an option twice -/

theorem remove_push (o : Options) (n : UInt32) (v : Bytes) : (o.push n v).remove n = o.remove n := by
  apply Options.ext
  exact filter_ne_insertOption ⟨n, v⟩ o.items

theorem remove_remove (o : Options) (n : UInt32) : (o.remove n).remove n = o.remove n := by
  apply Options.ext
  show (o.items.filter _).filter _ = _
  rw [List.filter_filter]
  simp only [Bool.and_self]
  rfl

/-- **The last value counts.** -/
theorem set_set (o : Options) (n : UInt32) (v w : Bytes) : (o.set n v).set n w = o.set n w := by
  show (((o.remove n).push n v).remove n).push n w = (o.remove n).push n w
  rw [remove_push, remove_remove]

end Options

end CoapNode
