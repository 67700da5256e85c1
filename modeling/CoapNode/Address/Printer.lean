import CoapNode.Address.Basic

set_option autoImplicit false

/-! # Writing addresses

IPv4 addresses are written with dots. IPv6 addresses are written in lower case without
leading zeros, with the first of the longest runs of at least two zero groups shortened to
`::`. Addresses whose first six groups are zero, and mapped addresses, end in the dotted
form; `::` and `::1` are written as such.
-/

namespace CoapNode

/-- A number in decimal digits. -/
def decimal (n : Nat) : List Char := Nat.toDigits 10 n

/-- The hexadecimal digit with the given value. -/
def hexDigit (n : Nat) : Char := Nat.digitChar (n % 16)

/-- A group in hexadecimal digits, without leading zeros. -/
def hexGroup (g : UInt16) : List Char :=
  let n := g.toNat
  if n < 16 then [hexDigit n]
  else if n < 256 then [hexDigit (n / 16), hexDigit n]
  else if n < 4096 then [hexDigit (n / 256), hexDigit (n / 16), hexDigit n]
  else [hexDigit (n / 4096), hexDigit (n / 256), hexDigit (n / 16), hexDigit n]

/-- The characters of an IPv4 address. -/
def IPv4.chars (ip : IPv4) : List Char :=
  decimal ip.a.toNat ++ '.' :: decimal ip.b.toNat ++ '.' :: decimal ip.c.toNat ++
    '.' :: decimal ip.d.toNat

namespace IPv6

/-- Groups separated by colons. -/
def joinGroups : List UInt16 → List Char
  | [] => []
  | [g] => hexGroup g
  | g :: gs => hexGroup g ++ ':' :: joinGroups gs

/-- Where the first of the longest runs of zero groups starts, and its length. -/
def longestZeroRun : List UInt16 → Nat × Nat
  | [] => (0, 0)
  | g :: gs =>
    let here := ((g :: gs).takeWhile (· == 0)).length
    let (start, length) := longestZeroRun gs
    if length ≤ here then (0, here) else (start + 1, length)

/-- The characters of an address in the notation with shortened zeros. -/
def compressed (ip : IPv6) : List Char :=
  let groups := ip.toList
  let (start, length) := longestZeroRun groups
  if 1 < length then
    joinGroups (groups.take start) ++ ':' :: ':' :: joinGroups (groups.drop (start + length))
  else joinGroups groups

/-- Are the first six groups zero? -/
def hasSixZeros (ip : IPv6) : Bool :=
  ip.g0 == 0 && ip.g1 == 0 && ip.g2 == 0 && ip.g3 == 0 && ip.g4 == 0 && ip.g5 == 0

/-- The characters of an address. -/
def chars (ip : IPv6) : List Char :=
  if ip = unspecified then "::".toList
  else if ip = { unspecified with g7 := 1 } then "::1".toList
  else if ip.hasSixZeros then "::".toList ++ ip.tail4.chars
  else if ip.isMapped then "::ffff:".toList ++ ip.tail4.chars
  else ip.compressed

end IPv6

namespace SocketAddress

/-- The characters of a socket address. The flow is not written. -/
def chars : SocketAddress → List Char
  | .v4 ip port => ip.chars ++ ':' :: decimal port.toNat
  | .v6 ip port _ scope =>
    '[' :: ip.chars ++ (if scope = 0 then [] else '%' :: decimal scope.toNat) ++
      ']' :: ':' :: decimal port.toNat

/-- The text of a socket address. -/
def text (address : SocketAddress) : String := String.ofList address.chars

end SocketAddress

end CoapNode
