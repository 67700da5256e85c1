import CoapNode.Message.Basic
import CoapNode.Proofs.Message.Options
import Mathlib.Algebra.Group.Nat.Defs

set_option autoImplicit false

/-! # Block numbers travel unharmed

A block packs its number, its "more" flag and its size exponent into 32 bits, and a Block2
option carries these bits in at most three bytes. Hence two limits: below `2 ^ 28` a number
survives the packing (`Block.num_new`, `Block.more_new`, `Block.size_new`), and below `2 ^ 20`
the packed value also survives the option (`Message.block2?_setBlock2`). A value that needs four
bytes is written but cannot be read back.
-/

namespace CoapNode

/-! ## Unsigned option values -/

namespace Uint

/-- Leading zero bytes do not count. -/
theorem decode_dropWhile (v : Bytes) : decode (v.dropWhile (· == 0)) = decode v := by
  induction v with
  | nil => rfl
  | cons b v ih =>
      by_cases hb : b = 0
      · subst hb
        rw [List.dropWhile_cons_of_pos (by rfl), ih]
        rfl
      · rw [List.dropWhile_cons_of_neg (by simpa using hb)]

theorem decode_encode (n : UInt32) : decode (encode n) = n := by
  have hn := n.toNat_lt
  rw [encode, decode_dropWhile]
  apply UInt32.toNat_inj.1
  simp [decode]
  omega

/-- Three bytes hold exactly the numbers below `2 ^ 24`. -/
theorem length_encode_le (n : UInt32) : (encode n).length ≤ 3 ↔ n.toNat < 2 ^ 24 := by
  have hn := n.toNat_lt
  have hb : (n / 16777216).toUInt8.toNat = n.toNat / 16777216 := by
    simp
    omega
  rw [encode]
  by_cases h : n.toNat < 2 ^ 24
  · -- the first of the four bytes is zero and is left out
    have h0 : (n / 16777216).toUInt8 = 0 := by
      apply UInt8.toNat_inj.1
      rw [hb]
      simp
      omega
    rw [List.dropWhile_cons_of_pos (by simp [h0])]
    exact iff_of_true (List.dropWhile_sublist _).length_le h
  · have h0 : (n / 16777216).toUInt8 ≠ 0 := by
      intro h0
      rw [h0] at hb
      simp at hb
      omega
    rw [List.dropWhile_cons_of_neg (by simpa using h0)]
    simp
    omega

theorem decode_lt {v : Bytes} (h : v.length ≤ 3) : (decode v).toNat < 2 ^ 24 := by
  match v, h with
  | [], _ => simp [decode]
  | [a], _ =>
      have ha := a.toNat_lt
      simp [decode]
      omega
  | [a, b], _ =>
      have ha := a.toNat_lt
      have hb := b.toNat_lt
      simp [decode]
      omega
  | [a, b, c], _ =>
      have ha := a.toNat_lt
      have hb := b.toNat_lt
      have hc := c.toNat_lt
      simp [decode]
      omega
  | _ :: _ :: _ :: _ :: _, h =>
      simp only [List.length_cons] at h
      omega

end Uint

/-! ## Packing -/

namespace Block

theorem exponentOf_le (size : UInt16) : exponentOf size ≤ 6 := by
  have hlog : Nat.log2 (max 16 (min 1024 size.toNat)) < 11 := by
    rw [Nat.log2_lt (by omega)]
    omega
  unfold exponentOf
  omega

theorem toNat_sizeOfExponent {e : Nat} (he : e ≤ 6) : (sizeOfExponent e).toNat = 2 ^ (e + 4) := by
  have hlt : 2 ^ (e + 4) < 2 ^ 16 := Nat.pow_lt_pow_right (by omega) (by omega)
  rw [sizeOfExponent, UInt16.toNat_ofNat', Nat.one_shiftLeft]
  exact Nat.mod_eq_of_lt hlt

/-- Block sizes are the powers of two from 16 to 1024. -/
theorem toNat_validSize (size : UInt16) : (validSize size).toNat = 2 ^ (exponentOf size + 4) :=
  toNat_sizeOfExponent (exponentOf_le size)

theorem validSize_pos (size : UInt16) : 0 < (validSize size).toNat := by
  rw [toNat_validSize]
  exact Nat.two_pow_pos _

theorem validSize_le (size : UInt16) : (validSize size).toNat ≤ 1024 := by
  have h := exponentOf_le size
  rw [toNat_validSize]
  calc 2 ^ (exponentOf size + 4) ≤ 2 ^ 10 := Nat.pow_le_pow_right (by omega) (by omega)
    _ = 1024 := rfl

/-- Of two block sizes the smaller one divides the larger one. -/
theorem validSize_dvd {a b : UInt16} (h : (validSize a).toNat ≤ (validSize b).toNat) :
    (validSize a).toNat ∣ (validSize b).toNat := by
  rw [toNat_validSize, toNat_validSize] at h ⊢
  exact Nat.pow_dvd_pow 2 ((Nat.pow_le_pow_iff_right (by omega)).1 h)

theorem exponent_le (block : Block) : block.exponent ≤ 6 := Nat.min_le_right _ _

theorem toNat_size (block : Block) : block.size.toNat = 2 ^ (block.exponent + 4) :=
  toNat_sizeOfExponent block.exponent_le

theorem exponentOf_sizeOfExponent {e : Nat} (he : e ≤ 6) : exponentOf (sizeOfExponent e) = e := by
  have hlow : 16 ≤ 2 ^ (e + 4) := Nat.pow_le_pow_right (n := 2) (by omega) (show 4 ≤ e + 4 by omega)
  have hhigh : 2 ^ (e + 4) ≤ 1024 :=
    Nat.pow_le_pow_right (n := 2) (by omega) (show e + 4 ≤ 10 by omega)
  rw [exponentOf, toNat_sizeOfExponent he, Nat.min_eq_right hhigh, Nat.max_eq_right hlow,
    Nat.log2_two_pow, Nat.add_sub_cancel]

/-- A block size is valid as it is. -/
theorem validSize_sizeOfExponent {e : Nat} (he : e ≤ 6) :
    validSize (sizeOfExponent e) = sizeOfExponent e := by
  rw [validSize, exponentOf_sizeOfExponent he]

/-- The packed value is a sum of three parts that do not overlap. -/
theorem toNat_raw_new (size : UInt16) {num : UInt32} (more : Bool) (h : num.toNat < 2 ^ 28) :
    (new size num more).raw.toNat
      = num.toNat * 16 + (if more then 8 else 0) + exponentOf size := by
  have he := exponentOf_le size
  have hm : (if more then (8 : UInt32) else 0).toNat = if more then 8 else 0 := by
    cases more <;> rfl
  have hm8 : (if more then 8 else 0) ≤ 8 := by split <;> omega
  simp only [new, UInt32.toNat_add, UInt32.toNat_mul, hm, UInt32.toNat_ofNat', UInt32.reduceToNat]
  omega

theorem num_new (size : UInt16) {num : UInt32} (more : Bool) (h : num.toNat < 2 ^ 28) :
    (new size num more).num = num := by
  have he := exponentOf_le size
  have hm8 : (if more then 8 else 0) ≤ 8 := by split <;> omega
  apply UInt32.toNat_inj.1
  rw [Block.num, UInt32.toNat_div, toNat_raw_new size more h]
  simp only [UInt32.reduceToNat]
  omega

theorem more_new (size : UInt16) {num : UInt32} (more : Bool) (h : num.toNat < 2 ^ 28) :
    (new size num more).more = more := by
  have he := exponentOf_le size
  have hbit : ((new size num more).raw / 8 % 2).toNat = if more then 1 else 0 := by
    rw [UInt32.toNat_mod, UInt32.toNat_div, toNat_raw_new size more h]
    simp only [UInt32.reduceToNat]
    split <;> omega
  have hword : (new size num more).raw / 8 % 2 = if more then 1 else 0 := by
    apply UInt32.toNat_inj.1
    rw [hbit]
    cases more <;> rfl
  rw [Block.more, hword]
  cases more <;> rfl

theorem size_new (size : UInt16) {num : UInt32} (more : Bool) (h : num.toNat < 2 ^ 28) :
    (new size num more).size = validSize size := by
  have he := exponentOf_le size
  have hexp : (new size num more).exponent = exponentOf size := by
    rw [exponent, toNat_raw_new size more h]
    split <;> omega
  rw [Block.size, hexp, validSize]

/-- The offset of a block whose number can be read does not saturate. -/
theorem toNat_offset {block : Block} (h : block.num.toNat < 2 ^ 20) :
    block.offset.toNat = block.num.toNat * block.size.toNat := by
  have hsize : block.size.toNat ≤ 1024 := by
    rw [toNat_size]
    exact Nat.pow_le_pow_right (n := 2) (by omega)
      (show block.exponent + 4 ≤ 10 from Nat.add_le_add_right block.exponent_le 4)
  have hprod : block.num.toNat * block.size.toNat ≤ 2 ^ 30 :=
    calc block.num.toNat * block.size.toNat
        ≤ 2 ^ 20 * 1024 := Nat.mul_le_mul (Nat.le_of_lt h) hsize
      _ = 2 ^ 30 := rfl
  have hmax : UInt32.size = 2 ^ 32 := rfl
  rw [offset, UInt32.toNat_ofNat', Nat.min_eq_left (by omega), Nat.mod_eq_of_lt (by omega)]

theorem offset_new (size : UInt16) {num : UInt32} (more : Bool) (h : num.toNat < 2 ^ 20) :
    (new size num more).offset.toNat = num.toNat * (validSize size).toNat := by
  have hnum : num.toNat < 2 ^ 28 := by omega
  have hread : (new size num more).num.toNat < 2 ^ 20 := by
    rw [num_new size more hnum]
    exact h
  rw [toNat_offset hread, num_new size more hnum, size_new size more hnum]

/-- **A block fits in an option if its number has at most twenty bits.** -/
theorem raw_new_lt (size : UInt16) {num : UInt32} (more : Bool) (h : num.toNat < 2 ^ 28) :
    (new size num more).raw.toNat < 2 ^ 24 ↔ num.toNat < 2 ^ 20 := by
  have he := exponentOf_le size
  have hm8 : (if more then 8 else 0) ≤ 8 := by split <;> omega
  rw [toNat_raw_new size more h]
  omega

/-- **A value can be read back if it has three bytes.** -/
theorem ofValue?_toValue (block : Block) :
    ofValue? block.toValue = if block.raw.toNat < 2 ^ 24 then some block else none := by
  rw [ofValue?, toValue, Uint.decode_encode]
  by_cases h : block.raw.toNat < 2 ^ 24
  · rw [if_pos ((Uint.length_encode_le _).2 h), if_pos h]
  · rw [if_neg (fun hle => h ((Uint.length_encode_le _).1 hle)), if_neg h]

/-- The number of a block that was read from an option has at most twenty bits. -/
theorem num_lt_of_ofValue? {v : Bytes} {block : Block} (h : ofValue? v = some block) :
    block.num.toNat < 2 ^ 20 := by
  rw [ofValue?] at h
  split at h
  · next hlen =>
      cases h
      have hraw := Uint.decode_lt hlen
      show (Uint.decode v / 16).toNat < 2 ^ 20
      rw [UInt32.toNat_div]
      simp only [UInt32.reduceToNat]
      omega
  · cases h

end Block

/-! ## Blocks in messages -/

namespace Message

/-- **A block can be read back if its option value has three bytes.** -/
theorem block2?_setBlock2 (msg : Message) (block : Block) :
    (msg.setBlock2 block).block2? = if block.raw.toNat < 2 ^ 24 then some block else none := by
  rw [block2?, setBlock2, Options.first?_set, Option.bind_some, Block.ofValue?_toValue]

/-- Of two blocks that are set the second one counts. -/
theorem setBlock2_setBlock2 (msg : Message) (a b : Block) :
    (msg.setBlock2 a).setBlock2 b = msg.setBlock2 b := by
  show { msg with options := (msg.options.set Options.block2 a.toValue).set Options.block2 b.toValue }
    = msg.setBlock2 b
  rw [Options.set_set]
  rfl

/-- The number of a block that can be read has at most twenty bits. -/
theorem num_lt_of_block2? {msg : Message} {block : Block} (h : msg.block2? = some block) :
    block.num.toNat < 2 ^ 20 := by
  obtain ⟨v, -, hv⟩ := Option.bind_eq_some_iff.1 h
  exact Block.num_lt_of_ofValue? hv

end Message

end CoapNode
