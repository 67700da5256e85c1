import CoapNode.Text.Utf8

set_option autoImplicit false

/-! # Reading text that was written as UTF-8

What was written as UTF-8 is read back without a replacement (`decodeLossy_encode`). A character is
taken off the front of the bytes at a time. Its first byte promises how many bytes follow and
between which bounds the second one lies, and the bounds leave room for every code point that is
written with that many bytes.
-/

namespace CoapNode.Utf8

theorem toNat_ofNat_of_lt {x : Nat} (h : x < 256) : (UInt8.ofNat x).toNat = x := by
  rw [UInt8.toNat_ofNat']
  exact Nat.mod_eq_of_lt h

/-! ## What a first byte promises

The bounds on the second byte of a character are said for that byte, whose value is `y`. -/

section

variable {x y : Nat}

theorem lead?_two (hmin : 0xC2 ≤ x) (hmax : x < 0xE0) :
    lead? (UInt8.ofNat x) = some ⟨1, x - 0xC0, 0x80, 0xBF⟩ := by
  have hx : (UInt8.ofNat x).toNat = x := toNat_ofNat_of_lt (by omega)
  simp only [lead?, UInt8.lt_iff_toNat_lt, hx, UInt8.reduceToNat, Nat.not_lt.2 hmin, hmax, if_false,
    if_true]

/-- Of three bytes the second one is bounded so that the form is not overlong, and no surrogate. -/
theorem lead?_three (hmin : 0xE0 ≤ x) (hmax : x < 0xF0) (hy : 0x80 ≤ y ∧ y ≤ 0xBF)
    (hlong : x = 0xE0 → 0xA0 ≤ y) (hsurrogate : x = 0xED → y ≤ 0x9F) :
    ∃ lo hi, lead? (UInt8.ofNat x) = some ⟨2, x - 0xE0, lo, hi⟩ ∧ lo.toNat ≤ y ∧ y ≤ hi.toNat := by
  have hx : (UInt8.ofNat x).toNat = x := toNat_ofNat_of_lt (by omega)
  have htwo : ¬x < 0xC2 ∧ ¬x < 0xE0 := by omega
  simp only [lead?, UInt8.lt_iff_toNat_lt, ← UInt8.toNat_inj, hx, UInt8.reduceToNat, htwo, hmax,
    if_false, if_true]
  split
  · next h => exact ⟨0xA0, 0xBF, by rw [h], hlong h, hy.2⟩
  · split
    · next h => exact ⟨0x80, 0x9F, by rw [h], hy.1, hsurrogate h⟩
    · exact ⟨0x80, 0xBF, rfl, hy⟩

/-- Of four bytes the second one is bounded so that the form is not overlong, and the code point not
too large. -/
theorem lead?_four (hmin : 0xF0 ≤ x) (hmax : x < 0xF5) (hy : 0x80 ≤ y ∧ y ≤ 0xBF)
    (hlong : x = 0xF0 → 0x90 ≤ y) (hlarge : x = 0xF4 → y ≤ 0x8F) :
    ∃ lo hi, lead? (UInt8.ofNat x) = some ⟨3, x - 0xF0, lo, hi⟩ ∧ lo.toNat ≤ y ∧ y ≤ hi.toNat := by
  have hx : (UInt8.ofNat x).toNat = x := toNat_ofNat_of_lt (by omega)
  have hthree : ¬x < 0xC2 ∧ ¬x < 0xE0 ∧ x ≠ 0xE0 ∧ x ≠ 0xED ∧ ¬x < 0xF0 := by omega
  simp only [lead?, UInt8.lt_iff_toNat_lt, ← UInt8.toNat_inj, hx, UInt8.reduceToNat, hthree,
    if_false]
  split
  · next h => exact ⟨0x90, 0xBF, by rw [h], hlong h, hy.2⟩
  · split
    · exact ⟨0x80, 0xBF, rfl, hy⟩
    · have h : x = 0xF4 := by omega
      rw [if_pos h]
      exact ⟨0x80, 0x8F, by rw [h], hy.1, hlarge h⟩

end

/-! ## One character -/

/-- A byte between the bounds carries six more bits of the code point. -/
theorem continuation_succ {n code y : Nat} {lo hi : UInt8} {rest : Bytes} (hy : y < 256)
    (hlo : lo.toNat ≤ y) (hhi : y ≤ hi.toNat) :
    continuation (n + 1) code lo hi (UInt8.ofNat y :: rest)
      = ((continuation n (code * 64 + (y - 0x80)) 0x80 0xBF rest).1,
        (continuation n (code * 64 + (y - 0x80)) 0x80 0xBF rest).2 + 1) := by
  have hbounds : lo ≤ UInt8.ofNat y ∧ UInt8.ofNat y ≤ hi := by
    rw [UInt8.le_iff_toNat_le, UInt8.le_iff_toNat_le, toNat_ofNat_of_lt hy]
    exact ⟨hlo, hhi⟩
  rw [continuation, if_pos hbounds, toNat_ofNat_of_lt hy]

/-- Six bits in a byte that is not the second one of its character. -/
theorem continuation_six {n code bits : Nat} {rest : Bytes} (hbits : bits < 64) :
    continuation (n + 1) code 0x80 0xBF (UInt8.ofNat (bits + 128) :: rest)
      = ((continuation n (code * 64 + bits) 0x80 0xBF rest).1,
        (continuation n (code * 64 + bits) 0x80 0xBF rest).2 + 1) := by
  have hlo : (0x80 : UInt8).toNat ≤ bits + 128 := Nat.le_add_left 128 bits
  have hhi : bits + 128 ≤ (0xBF : UInt8).toNat := by
    show bits + 128 ≤ 191
    omega
  rw [continuation_succ (by omega) hlo hhi, Nat.add_sub_cancel]

theorem decodeFirst_of_lead? {x : Nat} {lead : Lead} {rest : Bytes} (hmin : 0x80 ≤ x)
    (hmax : x < 256) (h : lead? (UInt8.ofNat x) = some lead) :
    decodeFirst (UInt8.ofNat x) rest
      = continuation lead.following lead.high lead.lo lead.hi rest := by
  have hge : ¬UInt8.ofNat x < 0x80 := by
    rw [UInt8.lt_iff_toNat_lt, toNat_ofNat_of_lt hmax]
    exact Nat.not_lt.2 hmin
  rw [decodeFirst, if_neg hge, h]

/-- **A character that was written is found at the front of the bytes**, with all its bytes. -/
theorem decodeFirst_encodeChar (c : Char) (rest : Bytes) :
    ∃ b tail, String.utf8EncodeChar c = b :: tail
      ∧ decodeFirst b (tail ++ rest) = (c, tail.length) := by
  have hvalid : c.val.toNat < 0xD800 ∨ 0xDFFF < c.val.toNat ∧ c.val.toNat < 0x110000 := c.valid
  have hc : Char.ofNat c.val.toNat = c := Char.ofNat_toNat c
  rw [String.utf8EncodeChar]
  generalize c.val.toNat = v at hvalid hc
  split
  · next hone =>
      -- one byte: the code point itself
      refine ⟨_, _, rfl, ?_⟩
      have hlt : UInt8.ofNat v < 0x80 := by
        rw [UInt8.lt_iff_toNat_lt, toNat_ofNat_of_lt (by omega)]
        exact Nat.lt_succ_of_le hone
      rw [decodeFirst, if_pos hlt, toNat_ofNat_of_lt (by omega), hc]
      rfl
  · split
    · refine ⟨_, _, rfl, ?_⟩
      have hlead := lead?_two (x := v / 64 % 32 + 192) (by omega) (by omega)
      have hcode : (v / 64 % 32 + 192 - 0xC0) * 64 + v % 64 = v := by omega
      rw [decodeFirst_of_lead? (by omega) (by omega) hlead, List.cons_append,
        continuation_six (by omega), hcode, continuation, hc]
      rfl
    · split
      · refine ⟨_, _, rfl, ?_⟩
        obtain ⟨lo, hi, hlead, hlo, hhi⟩ := lead?_three (x := v / 4096 % 16 + 224)
          (y := v / 64 % 64 + 128) (by omega) (by omega) (by omega) (by omega) (by omega)
        have hcode : ((v / 4096 % 16 + 224 - 0xE0) * 64 + (v / 64 % 64 + 128 - 0x80)) * 64 + v % 64
            = v := by omega
        rw [decodeFirst_of_lead? (by omega) (by omega) hlead, List.cons_append, List.cons_append,
          continuation_succ (by omega) hlo hhi, continuation_six (by omega), hcode, continuation,
          hc]
        rfl
      · refine ⟨_, _, rfl, ?_⟩
        obtain ⟨lo, hi, hlead, hlo, hhi⟩ := lead?_four (x := v / 262144 % 8 + 240)
          (y := v / 4096 % 64 + 128) (by omega) (by omega) (by omega) (by omega) (by omega)
        have hcode : (((v / 262144 % 8 + 240 - 0xF0) * 64 + (v / 4096 % 64 + 128 - 0x80)) * 64
            + v / 64 % 64) * 64 + v % 64 = v := by omega
        rw [decodeFirst_of_lead? (by omega) (by omega) hlead, List.cons_append, List.cons_append,
          List.cons_append, continuation_succ (by omega) hlo hhi, continuation_six (by omega),
          continuation_six (by omega), hcode, continuation, hc]
        rfl

/-! ## Texts -/

/-- **What was written as UTF-8 is read back**, and nothing of it is replaced. -/
theorem decodeLossy_encode (chars : List Char) : decodeLossy (encode chars) = chars := by
  induction chars with
  | nil => rw [encode, List.flatMap_nil, decodeLossy]
  | cons c chars ih =>
      obtain ⟨b, tail, hencode, hfirst⟩ := decodeFirst_encodeChar c (encode chars)
      have hbytes : encode (c :: chars) = b :: (tail ++ encode chars) := by
        rw [encode, List.flatMap_cons, hencode, List.cons_append, encode]
      rw [hbytes, decodeLossy, hfirst, List.drop_left, ih]

end CoapNode.Utf8
