import CoapNode.Proofs.Message.Block
import Mathlib.Order.Bounds.Defs

set_option autoImplicit false

/-! # The value of a block option

Packing a block and writing it as an option value lose nothing (`Block.packing_exact`). Of a wanted
size the largest block size is kept that is not above it, the three parts are found again where they
were put, and for numbers of at most twenty bits the value has at most three bytes. In the other
direction every value of at most three bytes is that of a block, but only the one without leading
zeros is written for it.
-/

namespace CoapNode

/-! ## Shortest values -/

namespace Uint

theorem encode_decode_four (a b c d : UInt8) :
    encode (decode [a, b, c, d]) = [a, b, c, d].dropWhile (· == 0) := by
  have ha := a.toNat_lt
  have hb := b.toNat_lt
  have hc := c.toNat_lt
  have hd := d.toNat_lt
  have hvalue : (decode [a, b, c, d]).toNat
      = ((a.toNat * 256 + b.toNat) * 256 + c.toNat) * 256 + d.toNat := by
    simp [decode]
    omega
  rw [encode]
  congr 1
  simp only [List.cons.injEq, and_true, ← UInt8.toNat_inj, UInt32.toNat_toUInt8, UInt32.toNat_div,
    hvalue, UInt32.reduceToNat]
  omega

/-- A zero in front changes neither the number nor its shortest value. -/
theorem encode_decode_of_cons_zero {v : Bytes}
    (h : encode (decode (0 :: v)) = (0 :: v).dropWhile (· == 0)) :
    encode (decode v) = v.dropWhile (· == 0) := h

/-- **What was read is written without its leading zeros.** -/
theorem encode_decode {v : Bytes} (h : v.length ≤ 4) :
    encode (decode v) = v.dropWhile (· == 0) := by
  -- fewer than four bytes are brought to four by zeros in front
  match v, h with
  | [], _ => rfl
  | [a], _ =>
      exact encode_decode_of_cons_zero (encode_decode_of_cons_zero
        (encode_decode_of_cons_zero (encode_decode_four 0 0 0 a)))
  | [a, b], _ =>
      exact encode_decode_of_cons_zero (encode_decode_of_cons_zero (encode_decode_four 0 0 a b))
  | [a, b, c], _ => exact encode_decode_of_cons_zero (encode_decode_four 0 a b c)
  | [a, b, c, d], _ => exact encode_decode_four a b c d
  | _ :: _ :: _ :: _ :: _ :: _, h =>
      simp only [List.length_cons] at h
      omega

/-- No value begins with a zero. -/
theorem head?_encode (n : UInt32) : (encode n).head? ≠ some 0 := by
  intro hzero
  have hhead := List.head?_dropWhile_not (· == (0 : UInt8))
    [(n / 16777216).toUInt8, (n / 65536).toUInt8, (n / 256).toUInt8, n.toUInt8]
  rw [encode] at hzero
  rw [hzero] at hhead
  cases hhead

end Uint

namespace Block

/-! ## Sizes -/

/-- **A block size is the largest power of two that is not above the wanted size**, where this is
brought between 16 and 1024 first. -/
theorem isGreatest_validSize (size : UInt16) :
    IsGreatest {n | (∃ k, n = 2 ^ k) ∧ n ≤ max 16 (min 1024 size.toNat)}
      (validSize size).toNat := by
  rw [toNat_validSize, exponentOf]
  generalize hwanted : max 16 (min 1024 size.toNat) = wanted
  have hpos : wanted ≠ 0 := by omega
  have hlog : 4 ≤ wanted.log2 := (Nat.le_log2 hpos).2 (by omega)
  rw [Nat.sub_add_cancel hlog]
  constructor
  · exact ⟨⟨_, rfl⟩, Nat.log2_self_le hpos⟩
  · rintro _ ⟨⟨k, rfl⟩, hle⟩
    exact Nat.pow_le_pow_right (by omega) ((Nat.le_log2 hpos).2 hle)

/-! ## Main result -/

/-- **Packing a block is exact.** A block whose number has at most twenty bits has the number, the
flag and the largest size not above the wanted one, its offset is the product of number and size,
and its shortest value has at most three bytes and is read as the same block. Every value of at most
three bytes is that of a block, which is written without the leading zeros of the value; longer
values are those of no block. -/
theorem packing_exact :
    (∀ (size : UInt16) (num : UInt32) (more : Bool), num.toNat < 2 ^ 20 →
        let block := new size num more
        block.num = num ∧ block.more = more ∧ block.size = validSize size
          ∧ block.offset.toNat = num.toNat * block.size.toNat
          ∧ block.toValue.length ≤ 3 ∧ block.toValue.head? ≠ some 0
          ∧ ofValue? block.toValue = some block)
      ∧ (∀ size : UInt16,
        IsGreatest {n | (∃ k, n = 2 ^ k) ∧ n ≤ max 16 (min 1024 size.toNat)}
          (validSize size).toNat)
      ∧ (∀ v : Bytes, v.length ≤ 3 →
        ∃ block, ofValue? v = some block ∧ block.toValue = v.dropWhile (· == 0))
      ∧ ∀ v : Bytes, 3 < v.length → ofValue? v = none := by
  refine ⟨fun size num more h => ?_, isGreatest_validSize,
    fun v h => ⟨_, if_pos h, Uint.encode_decode (by omega)⟩, fun v h => if_neg (Nat.not_le.2 h)⟩
  intro block
  have hnum : num.toNat < 2 ^ 28 := by omega
  have hraw : block.raw.toNat < 2 ^ 24 := (raw_new_lt size more hnum).2 h
  have hsize : block.size = validSize size := size_new size more hnum
  have hoffset : block.offset.toNat = num.toNat * block.size.toNat := by
    rw [hsize]
    exact offset_new size more h
  have hread : ofValue? block.toValue = some block := by
    rw [ofValue?_toValue, if_pos hraw]
  exact ⟨num_new size more hnum, more_new size more hnum, hsize, hoffset,
    (Uint.length_encode_le _).2 hraw, Uint.head?_encode _, hread⟩

/-- The last block that fits, of the largest size, and two values next to the bounds. -/
theorem packing_exact_sampleLast :
    let block := new 65535 1048575 true
    (1048575 : UInt32).toNat < 2 ^ 20
      ∧ block.num = 1048575 ∧ block.more = true ∧ block.size = 1024
      ∧ block.offset.toNat = 1073740800
      ∧ block.toValue = [0xFF, 0xFF, 0xFE] ∧ ofValue? block.toValue = some block
      ∧ (∃ short, ofValue? [0, 0, 0x1A] = some short ∧ short.toValue = [0x1A])
      ∧ ofValue? [0, 0, 0, 0x1A] = none := by
  intro block
  have hnum : (1048575 : UInt32).toNat < 2 ^ 20 := by decide
  obtain ⟨hnew, -, hshort, hlong⟩ := packing_exact
  obtain ⟨hblock, hmore, hsize, hoffset, -, -, hvalue⟩ := hnew 65535 1048575 true hnum
  have hvalid : validSize 65535 = 1024 := by decide
  rw [hvalid] at hsize
  rw [hsize] at hoffset
  exact ⟨hnum, hblock, hmore, hsize, hoffset, by decide, hvalue,
    hshort [0, 0, 0x1A] (by decide), hlong [0, 0, 0, 0x1A] (by decide)⟩

end Block

end CoapNode
