set_option autoImplicit false

/-! # Computations that leave a trace

`Traced ε α` is a value of type `α` together with the events of type `ε` that led to it, in
order of occurrence. Sequencing two such computations puts the events of the first before
those of the second, so the order of everything a node says or sends is part of its value.
-/

namespace CoapNode

/-- A value and the events that led to it, first event first. -/
structure Traced (ε α : Type) where
  value : α
  trace : List ε

namespace Traced

variable {ε δ α β : Type}

/-- Sequence two computations; the events of the first come first. -/
def andThen (x : Traced ε α) (f : α → Traced ε β) : Traced ε β :=
  let y := f x.value
  ⟨y.value, x.trace ++ y.trace⟩

instance : Monad (Traced ε) where
  pure a := ⟨a, []⟩
  bind := andThen

instance : LawfulMonad (Traced ε) :=
  LawfulMonad.mk' _ (fun x => congrArg (Traced.mk x.value) (List.append_nil x.trace))
    (fun _ _ => rfl) (fun x _ _ => congrArg (Traced.mk _) (List.append_assoc x.trace _ _))

/-- Record one event. -/
def emit (e : ε) : Traced ε Unit := ⟨(), [e]⟩

/-- Apply a function to every event. -/
def mapTrace (f : ε → δ) (x : Traced ε α) : Traced δ α := ⟨x.value, x.trace.map f⟩

/-- Apply a computation to every element of a list, in order. -/
def each (f : α → Traced ε β) (xs : List α) : Traced ε (List β) :=
  ⟨xs.map fun x => (f x).value, xs.flatMap fun x => (f x).trace⟩

@[simp] theorem value_pure (a : α) : (pure a : Traced ε α).value = a := rfl

@[simp] theorem trace_pure (a : α) : (pure a : Traced ε α).trace = [] := rfl

@[simp] theorem value_bind (x : Traced ε α) (f : α → Traced ε β) :
    (x >>= f).value = (f x.value).value := rfl

@[simp] theorem trace_bind (x : Traced ε α) (f : α → Traced ε β) :
    (x >>= f).trace = x.trace ++ (f x.value).trace := rfl

@[simp] theorem value_map (f : α → β) (x : Traced ε α) : (f <$> x).value = f x.value := rfl

@[simp] theorem trace_map (f : α → β) (x : Traced ε α) : (f <$> x).trace = x.trace :=
  List.append_nil x.trace

@[simp] theorem value_emit (e : ε) : (emit e).value = () := rfl

@[simp] theorem trace_emit (e : ε) : (emit e).trace = [e] := rfl

@[simp] theorem value_mapTrace (f : ε → δ) (x : Traced ε α) : (x.mapTrace f).value = x.value := rfl

@[simp] theorem trace_mapTrace (f : ε → δ) (x : Traced ε α) :
    (x.mapTrace f).trace = x.trace.map f := rfl

@[simp] theorem value_each (f : α → Traced ε β) (xs : List α) :
    (each f xs).value = xs.map fun x => (f x).value := rfl

@[simp] theorem trace_each (f : α → Traced ε β) (xs : List α) :
    (each f xs).trace = xs.flatMap fun x => (f x).trace := rfl

end Traced

end CoapNode
