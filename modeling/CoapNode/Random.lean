import CoapNode.Bytes

set_option autoImplicit false

/-! # Random numbers

Message ids, tokens and retransmission delays are drawn from the ChaCha keystream with eight
rounds. A generator is a key and a position in the keystream of that key; drawing a word moves
the position by one. `Random.ofSeed` expands a number to a key.
-/

namespace CoapNode

/-! ## The keystream -/

/-- Four words of the sixteen that a block consists of. -/
structure Row where
  a : UInt32
  b : UInt32
  c : UInt32
  d : UInt32
deriving DecidableEq, Repr

namespace Row

/-- Combine two rows word by word. -/
def zip (f : UInt32 → UInt32 → UInt32) (x y : Row) : Row :=
  ⟨f x.a y.a, f x.b y.b, f x.c y.c, f x.d y.d⟩

/-- Apply a function to every word. -/
def map (f : UInt32 → UInt32) (x : Row) : Row := ⟨f x.a, f x.b, f x.c, f x.d⟩

/-- Move every word one place to the front, and the first one to the end. -/
def turn (x : Row) : Row := ⟨x.b, x.c, x.d, x.a⟩

/-- The words of a row. -/
def toList (x : Row) : List UInt32 := [x.a, x.b, x.c, x.d]

end Row

/-- Rotate the bits of a word to the left, by between 1 and 31 places. -/
def rotateBits (n : UInt32) (x : UInt32) : UInt32 := (x <<< n) ||| (x >>> (32 - n))

/-- A block of the keystream, or the state that it is computed from. -/
structure KeyBlock where
  r0 : Row
  r1 : Row
  r2 : Row
  r3 : Row
deriving DecidableEq, Repr

namespace KeyBlock

/-- Mix the four columns. -/
def mixColumns (s : KeyBlock) : KeyBlock :=
  let r0 := s.r0.zip (· + ·) s.r1
  let r3 := (s.r3.zip (· ^^^ ·) r0).map (rotateBits 16)
  let r2 := s.r2.zip (· + ·) r3
  let r1 := (s.r1.zip (· ^^^ ·) r2).map (rotateBits 12)
  let r0 := r0.zip (· + ·) r1
  let r3 := (r3.zip (· ^^^ ·) r0).map (rotateBits 8)
  let r2 := r2.zip (· + ·) r3
  let r1 := (r1.zip (· ^^^ ·) r2).map (rotateBits 7)
  ⟨r0, r1, r2, r3⟩

/-- Mix the four diagonals, which are the columns after turning the rows. -/
def mixDiagonals (s : KeyBlock) : KeyBlock :=
  let m := mixColumns ⟨s.r0, s.r1.turn, s.r2.turn.turn, s.r3.turn.turn.turn⟩
  ⟨m.r0, m.r1.turn.turn.turn, m.r2.turn.turn, m.r3.turn⟩

/-- Two rounds. -/
def mix (s : KeyBlock) : KeyBlock := s.mixColumns.mixDiagonals

/-- Eight rounds, and the state they started from added to the outcome. -/
def scramble (s : KeyBlock) : KeyBlock :=
  let m := s.mix.mix.mix.mix
  ⟨m.r0.zip (· + ·) s.r0, m.r1.zip (· + ·) s.r1, m.r2.zip (· + ·) s.r2, m.r3.zip (· + ·) s.r3⟩

/-- The sixteen words of a block. -/
def words (s : KeyBlock) : List UInt32 := s.r0.toList ++ s.r1.toList ++ s.r2.toList ++ s.r3.toList

end KeyBlock

/-- A key of the keystream: eight words. -/
structure StreamKey where
  low : Row
  high : Row
deriving DecidableEq, Repr

namespace StreamKey

/-- The first row of every state, the text `expand 32-byte k`. -/
def constants : Row := ⟨0x61707865, 0x3320646E, 0x79622D32, 0x6B206574⟩

/-- One block of the keystream. -/
def block (key : StreamKey) (n : Nat) : KeyBlock :=
  KeyBlock.scramble
    ⟨constants, key.low, key.high, ⟨UInt32.ofNat n, UInt32.ofNat (n / UInt32.size), 0, 0⟩⟩

/-- One word of the keystream. -/
def word (key : StreamKey) (n : Nat) : UInt32 := (key.block (n / 16)).words.getD (n % 16) 0

end StreamKey

/-! ## The generator -/

/-- A source of random numbers: a key, and how many words of its keystream are used up. -/
structure Random where
  key : StreamKey
  position : Nat
deriving DecidableEq, Repr

namespace Random

/-- One step in the expansion of a seed. -/
def seedStep (s : UInt64) : UInt64 := s * 6364136223846793005 + 11634580027462260723

/-- The word that a step of the expansion yields. -/
def seedWord (s : UInt64) : UInt32 :=
  let x := (((s >>> 18) ^^^ s) >>> 27).toUInt32
  let n := (s >>> 59).toUInt32
  (x >>> n) ||| (x <<< (32 - n))

/-- Expand a seed to a row of words; yields the row and where to go on. -/
def seedRow (s : UInt64) : Row × UInt64 :=
  let s0 := seedStep s
  let s1 := seedStep s0
  let s2 := seedStep s1
  let s3 := seedStep s2
  (⟨seedWord s0, seedWord s1, seedWord s2, seedWord s3⟩, s3)

/-- The generator for a seed. -/
def ofSeed (seed : UInt64) : Random :=
  let (low, s) := seedRow seed
  let (high, _) := seedRow s
  ⟨⟨low, high⟩, 0⟩

/-- Draw a word. -/
def word (random : Random) : UInt32 × Random :=
  (random.key.word random.position, { random with position := random.position + 1 })

/-- Draw sixteen bits, the low half of a word. -/
def half (random : Random) : UInt16 × Random :=
  let (w, random) := random.word
  (w.toUInt16, random)

/-- Draw sixty-four bits, the low half first. -/
def double (random : Random) : UInt64 × Random :=
  let (lo, random) := random.word
  let (hi, random) := random.word
  (lo.toUInt64 + (hi.toUInt64 <<< 32), random)

/-- Draw bytes, each the low end of a word. -/
def bytes (random : Random) : Nat → Bytes × Random
  | 0 => ([], random)
  | n + 1 =>
    let (w, random) := random.word
    let (rest, random) := random.bytes n
    (w.toUInt8 :: rest, random)

theorem length_bytes (random : Random) (n : Nat) : (random.bytes n).1.length = n := by
  induction n generalizing random with
  | zero => rfl
  | succ n ih => exact congrArg Nat.succ (ih _)

/-! ## Ranges

To draw one of `width` equally likely numbers, sixty-four random bits `v` are scaled to the
high half of `v * width`. A draw whose low half lies beyond the largest fair one is thrown
away. More than half of all draws are fair, so that `attempts` of them hardly ever fail; the
draw after them is used as it is.
-/

/-- How many draws are given a chance to be fair. -/
def attempts : Nat := 256

/-- The largest low half of a fair draw: `width` is doubled as long as it fits into sixty-four
bits, and one is taken off. -/
def fairLimit (width : UInt64) : Nat :=
  width.toNat <<< (63 - Nat.log2 width.toNat) - 1

/-- Draw a number below a width that is not zero. -/
def below (random : Random) (width : UInt64) : Nat → UInt64 × Random
  | 0 =>
    let (v, random) := random.double
    (UInt64.ofNat (v.toNat * width.toNat / UInt64.size), random)
  | n + 1 =>
    let (v, random) := random.double
    let scaled := v.toNat * width.toNat
    if scaled % UInt64.size ≤ fairLimit width then (UInt64.ofNat (scaled / UInt64.size), random)
    else random.below width n

/-- Draw a number between two bounds, both of which may be drawn. -/
def between (random : Random) (lo hi : UInt64) : UInt64 × Random :=
  let width := hi - lo + 1
  if width = 0 then random.double
  else
    let (n, random) := random.below width attempts
    (lo + n, random)

end Random

end CoapNode
