import CoapNode.Address.Parser
import CoapNode.Address.Printer
import Mathlib.Data.List.Basic

set_option autoImplicit false

/-! # Digits

Octets and ports are written in decimal digits, groups in hexadecimal ones. A reader takes a run of
digits off the front of a text, so what was written is found again with anything behind it that does
not go on with a digit (`Bounds`): octets by `IPv4.readOctet_decimal`, groups by
`IPv6.readGroup_hexGroup`. A port is all of its text, and may be written in other ways than the one
it is printed in (`IsPort`, `parsePort?_eq_some_iff`).
-/

namespace CoapNode

/-! ## Runs of characters -/

/-- Does a run of characters of a class end in front of this text? -/
def Bounds (p : Char → Bool) (rest : List Char) : Prop := ∀ c ∈ rest.head?, p c = false

section

variable {p : Char → Bool} {run rest : List Char}

theorem Bounds.nil : Bounds p [] := nofun

theorem Bounds.cons {c : Char} (h : p c = false) : Bounds p (c :: rest) := by
  rintro _ ⟨⟩
  exact h

theorem Bounds.takeWhile_eq_nil (h : Bounds p rest) : rest.takeWhile p = [] := by
  cases rest with
  | nil => rfl
  | cons c rest => rw [List.takeWhile_cons, if_neg (ne_true_of_eq_false (h c rfl))]

theorem Bounds.dropWhile_eq_self (h : Bounds p rest) : rest.dropWhile p = rest := by
  cases rest with
  | nil => rfl
  | cons c rest => rw [List.dropWhile_cons, if_neg (ne_true_of_eq_false (h c rfl))]

/-- Every text begins with a run of the class, which may be empty. -/
theorem exists_run (p : Char → Bool) (text : List Char) :
    ∃ run rest, text = run ++ rest ∧ (∀ c ∈ run, p c = true) ∧ Bounds p rest := by
  refine ⟨text.takeWhile p, text.dropWhile p, List.takeWhile_append_dropWhile.symm, ?_, ?_⟩
  · exact List.all_eq_true.1 List.all_takeWhile
  · intro c hc
    have hhead := List.head?_dropWhile_not p text
    rwa [hc] at hhead

/-- The run is taken off the front, no more and no less. -/
theorem Bounds.takeWhile_append (hrest : Bounds p rest) (hrun : ∀ c ∈ run, p c = true) :
    (run ++ rest).takeWhile p = run := by
  rw [List.takeWhile_append_of_pos hrun, hrest.takeWhile_eq_nil, List.append_nil]

theorem Bounds.dropWhile_append (hrest : Bounds p rest) (hrun : ∀ c ∈ run, p c = true) :
    (run ++ rest).dropWhile p = rest := by
  rw [List.dropWhile_append_of_pos hrun, hrest.dropWhile_eq_self]

end

/-! ## Decimal digits -/

theorem decimalValue_eq_ofDigitChars (digits : List Char) :
    decimalValue digits = Nat.ofDigitChars 10 digits 0 := by
  simp only [decimalValue, Nat.ofDigitChars_eq_foldl, Nat.mul_comm]

/-- A number is the value of its digits. -/
@[simp] theorem decimalValue_decimal (n : Nat) : decimalValue (decimal n) = n := by
  rw [decimalValue_eq_ofDigitChars, decimal, Nat.ofDigitChars_ten_toDigits]

theorem decimal_ne_nil (n : Nat) : decimal n ≠ [] := Nat.toDigits_ne_nil

theorem isDigit_of_mem_decimal {n : Nat} {c : Char} (h : c ∈ decimal n) : c.isDigit = true :=
  Nat.isDigit_of_mem_toDigits (by decide) (by decide) h

/-- No number but zero is written with a leading zero. -/
theorem head?_decimal {n : Nat} (h : n ≠ 0) : (decimal n).head? ≠ some '0' := by
  induction n using Nat.strongRecOn with
  | ind n ih =>
      -- the first digit is that of n / 10, unless it is the only one
      unfold decimal
      by_cases hsmall : n < 10
      · rw [Nat.toDigits_of_lt_base hsmall]
        intro hzero
        exact h (Nat.digitChar_eq_zero.1 (Option.some.inj hzero))
      · have hsplit : Nat.toDigits 10 n = Nat.toDigits 10 (n / 10) ++ [(n % 10).digitChar] :=
          Nat.toDigits_of_base_le (by decide) (Nat.not_lt.1 hsmall)
        rw [hsplit, List.head?_append_of_ne_nil _ Nat.toDigits_ne_nil]
        exact ih (n / 10) (by omega) (by omega)

/-- **An octet is read again** from its digits. -/
theorem IPv4.readOctet_decimal (octet : UInt8) {rest : List Char}
    (hrest : Bounds Char.isDigit rest) :
    readOctet (decimal octet.toNat ++ rest) = some (octet, rest) := by
  have hdigits : ∀ c ∈ decimal octet.toNat, c.isDigit = true := fun _ => isDigit_of_mem_decimal
  have hmax := octet.toNat_lt
  have hok : ¬(decimal octet.toNat = [] ∨ 255 < octet.toNat
      ∨ (octet.toNat ≠ 0 ∧ (decimal octet.toNat).head? = some '0')) := by
    rintro (hnil | hlarge | ⟨hne, hzero⟩)
    · exact decimal_ne_nil _ hnil
    · omega
    · exact head?_decimal hne hzero
  rw [readOctet, hrest.takeWhile_append hdigits, hrest.dropWhile_append hdigits]
  rw [decimalValue_decimal, if_neg hok, UInt8.ofNat_toNat]

/-! ## Ports -/

/-- Is this text a way to write the port? It is a run of decimal digits with that value, of any
length, and a plus sign may stand before it. -/
def IsPort (text : List Char) (port : UInt16) : Prop :=
  ∃ digits, (text = digits ∨ text = '+' :: digits) ∧ digits ≠ []
    ∧ (∀ c ∈ digits, c.isDigit = true) ∧ decimalValue digits = port.toNat

theorem isPort_decimal (port : UInt16) : IsPort (decimal port.toNat) port :=
  ⟨_, .inl rfl, decimal_ne_nil _, fun _ => isDigit_of_mem_decimal, decimalValue_decimal _⟩

/-- Digits do not begin with a plus sign. -/
theorem expect_plus_eq_none {digits : List Char} (h : ∀ c ∈ digits, c.isDigit = true) :
    expect '+' digits = none := by
  cases digits with
  | nil => rfl
  | cons c digits =>
      refine if_neg ?_
      rintro rfl
      exact absurd (h '+' List.mem_cons_self) (by decide)

/-- A plus sign is what `parsePort?` skips. -/
theorem eq_or_eq_plus (text : List Char) :
    text = (expect '+' text).getD text ∨ text = '+' :: (expect '+' text).getD text := by
  cases text with
  | nil => exact .inl rfl
  | cons c text =>
      rw [expect]
      split
      · next hc => exact .inr (by rw [hc]; rfl)
      · exact .inl rfl

/-- **The ports that are read** are the ports that can be written. -/
theorem parsePort?_eq_some_iff {text : List Char} {port : UInt16} :
    parsePort? text = some port ↔ IsPort text port := by
  have hmax := port.toNat_lt
  constructor
  · intro h
    rw [parsePort?] at h
    split at h
    · next hok =>
        obtain ⟨hne, hdigits, hsmall⟩ := hok
        refine ⟨_, eq_or_eq_plus text, hne, List.all_eq_true.1 hdigits, ?_⟩
        rw [← Option.some.inj h, UInt16.toNat_ofNat_of_lt' (Nat.lt_succ_of_le hsmall)]
    · cases h
  · rintro ⟨digits, htext, hne, hdigits, hvalue⟩
    have hread : (expect '+' text).getD text = digits := by
      rcases htext with rfl | rfl
      · rw [expect_plus_eq_none hdigits]
        rfl
      · rfl
    have hall : digits.all Char.isDigit = true := List.all_eq_true.2 hdigits
    rw [parsePort?, hread, if_pos ⟨hne, hall, by omega⟩, hvalue, UInt16.ofNat_toNat]

/-! ## Hexadecimal digits -/

theorem isHexDigit_hexDigit (n : Nat) : isHexDigit (hexDigit n) = true := by
  have hall : ∀ d < 16, isHexDigit (Nat.digitChar d) = true := by decide
  exact hall (n % 16) (Nat.mod_lt n (by decide))

theorem hexDigitValue_hexDigit (n : Nat) : hexDigitValue (hexDigit n) = n % 16 := by
  have hall : ∀ d < 16, hexDigitValue (Nat.digitChar d) = d := by decide
  exact hall (n % 16) (Nat.mod_lt n (by decide))

/-- What `hexGroup` writes: one to four digits with the value of the group. -/
theorem hexGroup_spec (g : UInt16) :
    hexGroup g ≠ [] ∧ (hexGroup g).length ≤ 4 ∧ (∀ c ∈ hexGroup g, isHexDigit c = true)
      ∧ hexValue (hexGroup g) = g.toNat := by
  have hmax := g.toNat_lt
  -- one case for each number of digits
  simp only [hexGroup]
  split
  · simp [hexValue, isHexDigit_hexDigit, hexDigitValue_hexDigit]
    omega
  · split
    · simp [hexValue, isHexDigit_hexDigit, hexDigitValue_hexDigit]
      omega
    · split
      · simp [hexValue, isHexDigit_hexDigit, hexDigitValue_hexDigit]
        omega
      · simp [hexValue, isHexDigit_hexDigit, hexDigitValue_hexDigit]
        omega

/-- **A group is read again** from its digits. -/
theorem IPv6.readGroup_hexGroup (g : UInt16) {rest : List Char} (hrest : Bounds isHexDigit rest) :
    readGroup (hexGroup g ++ rest) = some (g, rest) := by
  obtain ⟨hne, hlength, hdigits, hvalue⟩ := hexGroup_spec g
  have hok : ¬(hexGroup g = [] ∨ 4 < (hexGroup g).length) :=
    not_or.2 ⟨hne, Nat.not_lt.2 hlength⟩
  rw [readGroup, hrest.takeWhile_append hdigits, hrest.dropWhile_append hdigits]
  rw [if_neg hok, hvalue, UInt16.ofNat_toNat]

end CoapNode
