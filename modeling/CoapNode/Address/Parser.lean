import CoapNode.Address.Basic

set_option autoImplicit false

/-! # Reading addresses

Readers take characters from the front of a list and return what they read with the rest;
`parse?` asks in addition that nothing is left.

* An octet is a run of decimal digits with a value of at most 255; it may begin with `0` only
  if its value is zero.
* A group is a run of one to four hexadecimal digits.
* An IPv6 address has eight groups, or fewer around one `::`, which stands for at least one
  zero group. Its last two groups may be written as an IPv4 address.
-/

namespace CoapNode

/-- The value of a run of decimal digits. -/
def decimalValue (digits : List Char) : Nat :=
  digits.foldl (fun n c => n * 10 + (c.toNat - '0'.toNat)) 0

/-- Is this a hexadecimal digit? -/
def isHexDigit (c : Char) : Bool :=
  c.isDigit || ('a' ≤ c && c ≤ 'f') || ('A' ≤ c && c ≤ 'F')

/-- The value of a hexadecimal digit. -/
def hexDigitValue (c : Char) : Nat :=
  if c.isDigit then c.toNat - '0'.toNat
  else if 'a' ≤ c then c.toNat - 'a'.toNat + 10
  else c.toNat - 'A'.toNat + 10

/-- The value of a run of hexadecimal digits. -/
def hexValue (digits : List Char) : Nat :=
  digits.foldl (fun n c => n * 16 + hexDigitValue c) 0

/-- Read one given character. -/
def expect (c : Char) : List Char → Option (List Char)
  | d :: rest => if d = c then some rest else none
  | [] => none

/-- Read a port: decimal digits after an optional `+`, with a value of at most 65535. -/
def parsePort? (text : List Char) : Option UInt16 :=
  let digits := (expect '+' text).getD text
  if digits ≠ [] ∧ digits.all Char.isDigit ∧ decimalValue digits ≤ 65535 then
    some (UInt16.ofNat (decimalValue digits))
  else none

namespace IPv4

/-- Read one octet. -/
def readOctet (text : List Char) : Option (UInt8 × List Char) :=
  let digits := text.takeWhile Char.isDigit
  let value := decimalValue digits
  if digits = [] ∨ 255 < value ∨ (value ≠ 0 ∧ digits.head? = some '0') then none
  else some (UInt8.ofNat value, text.dropWhile Char.isDigit)

/-- Read four octets separated by dots. -/
def read (text : List Char) : Option (IPv4 × List Char) := do
  let (a, text) ← readOctet text
  let text ← expect '.' text
  let (b, text) ← readOctet text
  let text ← expect '.' text
  let (c, text) ← readOctet text
  let text ← expect '.' text
  let (d, text) ← readOctet text
  return (⟨a, b, c, d⟩, text)

end IPv4

namespace IPv6

/-- Read one group. -/
def readGroup (text : List Char) : Option (UInt16 × List Char) :=
  let digits := text.takeWhile isHexDigit
  if digits = [] ∨ 4 < digits.length then none
  else some (UInt16.ofNat (hexValue digits), text.dropWhile isHexDigit)

/-- A maximal sequence of groups. -/
structure Groups where
  groups : List UInt16
  /-- The last two groups were written as an IPv4 address, which ends the sequence. -/
  endsInIPv4 : Bool
  /-- What follows. -/
  rest : List Char

/-- Read at most `limit` groups separated by colons; the first group of an address or of the
part after `::` has no colon before it. An IPv4 address is read where two groups still fit. -/
def readGroups : (limit : Nat) → (first : Bool) → List Char → Groups
  | 0, _, text => ⟨[], false, text⟩
  | limit + 1, first, text =>
    match if first then some text else expect ':' text with
    | none => ⟨[], false, text⟩
    | some inner =>
      match if limit = 0 then none else IPv4.read inner with
      | some (ip, rest) => ⟨[groupOf ip.a ip.b, groupOf ip.c ip.d], true, rest⟩
      | none =>
        match readGroup inner with
        | none => ⟨[], false, text⟩
        | some (g, rest) =>
          let more := readGroups limit false rest
          ⟨g :: more.groups, more.endsInIPv4, more.rest⟩

/-- Read an IPv6 address. -/
def read (text : List Char) : Option (IPv6 × List Char) :=
  let head := readGroups 8 true text
  if head.groups.length = 8 then
    (ofList? head.groups).map (·, head.rest)
  else if head.endsInIPv4 then none
  else do
    let rest ← expect ':' head.rest
    let rest ← expect ':' rest
    let tail := readGroups (7 - head.groups.length) true rest
    let zeros := List.replicate (8 - head.groups.length - tail.groups.length) 0
    let ip ← ofList? (head.groups ++ zeros ++ tail.groups)
    return (ip, tail.rest)

end IPv6

/-- Read an address of either family; a text that begins with an IPv4 address is one or is
none. -/
def IPAddress.parse? (text : List Char) : Option IPAddress :=
  match IPv4.read text with
  | some (ip, []) => some (.v4 ip)
  | some (_, _ :: _) => none
  | none =>
    match IPv6.read text with
    | some (ip, []) => some (.v6 ip)
    | _ => none

namespace SocketAddress

/-- Read `a.b.c.d:port`. -/
def parseV4? (text : List Char) : Option SocketAddress := do
  let (ip, text) ← IPv4.read text
  let text ← expect ':' text
  return .v4 ip (← parsePort? text)

/-- Read `[address]:port` or `[address%scope]:port`. -/
def parseV6? (text : List Char) : Option SocketAddress := do
  let text ← expect '[' text
  let (ip, text) ← IPv6.read text
  let (scope, text) :=
    match expect '%' text with
    | some text => (decimalValue (text.takeWhile Char.isDigit), text.dropWhile Char.isDigit)
    | none => (0, text)
  let text ← expect ']' text
  let text ← expect ':' text
  return .v6 ip (← parsePort? text) 0 (UInt32.ofNat scope)

/-- Read a socket address. -/
def parse? (text : String) : Option SocketAddress :=
  (parseV4? text.toList).or (parseV6? text.toList)

end SocketAddress

end CoapNode
