import CoapNode.Bytes

set_option autoImplicit false

/-! # UTF-8

`encode` writes characters as UTF-8. `decodeLossy` reads any bytes: what is not valid UTF-8
is replaced, one replacement character for each longest stretch that could have begun a
character but does not finish one.
-/

namespace CoapNode.Utf8

/-- The bytes of a sequence of characters. -/
def encode (chars : List Char) : Bytes := chars.flatMap String.utf8EncodeChar

/-- The bytes of a text. -/
def ofString (text : String) : Bytes := encode text.toList

/-- What a byte that begins a character of several bytes promises. -/
structure Lead where
  /-- How many bytes follow. -/
  following : Nat
  /-- The part of the code point that the first byte carries. -/
  high : Nat
  /-- Smallest allowed value of the byte after it. -/
  lo : UInt8
  /-- Largest allowed value of the byte after it. -/
  hi : UInt8

/-- The promise of a first byte; `none` for a byte that begins no character of several bytes.
The bounds on the second byte rule out overlong forms, surrogates and code points above
`0x10FFFF`. -/
def lead? (b : UInt8) : Option Lead :=
  if b < 0xC2 then none
  else if b < 0xE0 then some ⟨1, b.toNat - 0xC0, 0x80, 0xBF⟩
  else if b = 0xE0 then some ⟨2, 0, 0xA0, 0xBF⟩
  else if b = 0xED then some ⟨2, 0xD, 0x80, 0x9F⟩
  else if b < 0xF0 then some ⟨2, b.toNat - 0xE0, 0x80, 0xBF⟩
  else if b = 0xF0 then some ⟨3, 0, 0x90, 0xBF⟩
  else if b < 0xF4 then some ⟨3, b.toNat - 0xF0, 0x80, 0xBF⟩
  else if b = 0xF4 then some ⟨3, 4, 0x80, 0x8F⟩
  else none

/-- The character that stands for undecodable bytes. -/
def replacement : Char := '\uFFFD'

/-- Read `n` further bytes of a character whose code point so far is `code`; the first of them
must lie between `lo` and `hi`, the others between `0x80` and `0xBF`. Yields the character, or
the replacement if a byte does not fit, and the number of bytes that did fit. -/
def continuation : Nat → Nat → UInt8 → UInt8 → Bytes → Char × Nat
  | 0, code, _, _, _ => (Char.ofNat code, 0)
  | _ + 1, _, _, _, [] => (replacement, 0)
  | n + 1, code, lo, hi, b :: rest =>
    if lo ≤ b ∧ b ≤ hi then
      let (c, used) := continuation n (code * 64 + (b.toNat - 0x80)) 0x80 0xBF rest
      (c, used + 1)
    else (replacement, 0)

/-- The character at the front of `b :: rest`, and how many bytes of `rest` belong to it. -/
def decodeFirst (b : UInt8) (rest : Bytes) : Char × Nat :=
  if b < 0x80 then (Char.ofNat b.toNat, 0)
  else
    match lead? b with
    | some l => continuation l.following l.high l.lo l.hi rest
    | none => (replacement, 0)

/-- Read bytes as UTF-8, replacing what is malformed. -/
def decodeLossy : Bytes → List Char
  | [] => []
  | b :: rest =>
    let first := decodeFirst b rest
    first.1 :: decodeLossy (rest.drop first.2)
termination_by bytes => bytes.length
decreasing_by simp only [List.length_drop, List.length_cons]; omega

end CoapNode.Utf8
