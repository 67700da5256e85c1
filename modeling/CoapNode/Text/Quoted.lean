import CoapNode.Text.Unprintable

set_option autoImplicit false

/-! # Quoted text

Text from outside is quoted before it goes into a log line: quotes and backslashes are
escaped, and characters that cannot be seen are written as their code points.
-/

namespace CoapNode.Text

/-- One character as it stands inside quotes. -/
def quotedChar (c : Char) : List Char :=
  match c with
  | '"' => ['\\', '"']
  | '\\' => ['\\', '\\']
  | '\n' => ['\\', 'n']
  | '\r' => ['\\', 'r']
  | '\t' => ['\\', 't']
  | '\x00' => ['\\', '0']
  | c =>
    if isUnprintable c then
      ['\\', 'u', '\x7b'] ++ Nat.toDigits 16 c.toNat ++ ['\x7d']
    else [c]

/-- A text between quotes, with every character that could mislead a reader escaped. -/
def quoted (text : String) : String :=
  String.ofList ('"' :: text.toList.flatMap quotedChar ++ ['"'])

end CoapNode.Text
