set_option autoImplicit false

/-! # Values written as text

Reports show structured values in one notation: a tagged value is `Tag(value)`, a record is
its name followed by its fields in braces, and an optional value is `Some(value)` or `None`.
-/

namespace CoapNode.Text

/-- A value under a tag, `Tag(value)`. -/
def tagged (tag value : String) : String := tag ++ "(" ++ value ++ ")"

/-- A record with named fields, in the order given. -/
def record (name : String) (fields : List (String × String)) : String :=
  name ++ " \x7b " ++ ", ".intercalate (fields.map fun f => f.1 ++ ": " ++ f.2) ++ " \x7d"

/-- An optional value. -/
def optional (value : Option String) : String :=
  match value with
  | some text => tagged "Some" text
  | none => "None"

/-- A truth value. -/
def bool (b : Bool) : String := if b then "true" else "false"

end CoapNode.Text
