import CoapNode.Proofs.Message.OptionBlock
import Mathlib.Algebra.Group.Nat.Defs

set_option autoImplicit false

/-! # Gathering options round by round

The second pass over an option block goes in rounds (`Rounds`): each one takes a field from the
front of what is left and counts its distance on from the number of the option before, in 32 bits
and without a check. It meets any bytes, also those that the first pass would refuse. Whatever a
round takes is a field of the grammar (`readField?_eq_some_iff`), and a large distance takes three
bytes, so the number is bounded by the bytes that are used up (`Rounds.number_le`). A datagram of
65535 bytes is too short for it to reach `2 ^ 32` (`rounds_in_range`).
-/

namespace CoapNode

/-! ## What a round takes -/

section

variable {nibble : UInt8} {n : UInt32} {bytes rest : Bytes} {field : OptionField}

theorem extended?_eq_some_iff :
    extended? nibble bytes = some (n, rest)
      ↔ ∃ announced, bytes = announced ++ rest ∧ Announces nibble announced n.toNat := by
  constructor
  · intro h
    have hannounced : ∃ announced m, bytes = announced ++ rest ∧ Announces nibble announced m := by
      unfold extended? at h
      split at h
      · next b after =>
          cases h
          exact ⟨[b], _, rfl, .oneByte b⟩
      · next high low after =>
          cases h
          exact ⟨[high, low], _, rfl, .twoBytes high low⟩
      · split at h
        · cases h
        · next hlt =>
            cases h
            exact ⟨[], _, rfl, .nibble (UInt8.not_le.1 hlt)⟩
    obtain ⟨announced, m, rfl, hm⟩ := hannounced
    -- the number is read from the same bytes again, so it is the one that they announce
    obtain ⟨n', hn', hread⟩ := hm.extended?_eq rest
    obtain rfl : n' = n := by
      rw [h] at hread
      cases hread
      rfl
    exact ⟨announced, rfl, hn'.symm ▸ hm⟩
  · rintro ⟨announced, rfl, h⟩
    obtain ⟨m, hm, hread⟩ := h.extended?_eq rest
    rw [hread, UInt32.toNat_inj.1 hm]

/-- **The second pass takes exactly the fields of the grammar**, from any bytes. -/
theorem readField?_eq_some_iff :
    readField? bytes = some (field, rest)
      ↔ ∃ taken, IsField taken field.distance.toNat field.value ∧ bytes = taken ++ rest := by
  constructor
  · intro h
    unfold readField? at h
    split at h
    · cases h
    · next head after =>
        split at h
        · cases h
        · next distance afterDistance hread =>
            obtain ⟨forDistance, rfl, hdistance⟩ := extended?_eq_some_iff.1 hread
            split at h
            · cases h
            · next length afterLength hread' =>
                obtain ⟨forLength, rfl, hlength⟩ := extended?_eq_some_iff.1 hread'
                dsimp only at h
                split at h
                · cases h
                · next hlong =>
                    cases h
                    have hvalue : (afterLength.take length.toNat).length = length.toNat :=
                      Nat.le_antisymm (List.length_take_le _ _) (Nat.not_lt.1 hlong)
                    refine ⟨_, .intro hdistance (hvalue.symm ▸ hlength), ?_⟩
                    rw [List.cons_append, List.append_assoc, List.append_assoc,
                      List.take_append_drop]
  · rintro ⟨taken, h, rfl⟩
    obtain ⟨distance, hdistance, hread⟩ := h.readField?_eq rest
    rw [hread, UInt32.toNat_inj.1 hdistance]

end

/-! ## Rounds -/

/-- **The rounds of gathering options** from a block: which options have been gathered so far, the
number that is counted on from, and the bytes that are left. -/
inductive Rounds (block : Bytes) : List OptionInstance → UInt32 → Bytes → Prop
  | start : Rounds block [] 0 block
  | next {items : List OptionInstance} {number : UInt32} {bytes rest : Bytes} {field : OptionField}
      (hrounds : Rounds block items number bytes) (hread : readField? bytes = some (field, rest)) :
      Rounds block (items ++ [⟨number + field.distance, field.value⟩]) (number + field.distance)
        rest

namespace Rounds

variable {block bytes : Bytes} {items : List OptionInstance} {number : UInt32}

/-- The options that are gathered from a block are those of the rounds so far, with those that are
gathered from what is left behind them. -/
theorem numberFields_eq (h : Rounds block items number bytes) :
    numberFields 0 (readFields block).1 = items ++ numberFields number (readFields bytes).1 := by
  induction h with
  | start => rfl
  | next hrounds hread ih =>
      rw [ih, readFields_of_some hread, numberFields, List.append_assoc, List.singleton_append]

/-- **The number is bounded by the bytes that are used up**, and so is the number of rounds. -/
theorem number_le (h : Rounds block items number bytes) (hlength : block.length ≤ 65535) :
    number.toNat + 21935 * bytes.length ≤ 21935 * block.length
      ∧ items.length + bytes.length ≤ block.length := by
  induction h with
  | start => exact ⟨Nat.le_of_eq (Nat.zero_add _), Nat.le_of_eq (Nat.zero_add _)⟩
  | @next items number bytes rest field hrounds hread ih =>
      obtain ⟨hnumber, hitems⟩ := ih
      have hshorter := length_of_readField? hread
      obtain ⟨taken, hfield, rfl⟩ := readField?_eq_some_iff.1 hread
      have hdistance := hfield.distance_le
      rw [List.length_append] at hnumber hitems hshorter
      rw [UInt32.toNat_add, List.length_append, List.length_singleton]
      omega

/-- The rounds come to an end, and the options gathered then are those of the block. -/
theorem exists_last (h : Rounds block items number bytes) :
    ∃ items number rest, Rounds block items number rest ∧ readField? rest = none := by
  fun_induction readFields bytes generalizing items number with
  | case1 bytes hread => exact ⟨items, number, bytes, h, hread⟩
  | case2 bytes field rest hread fields rest' hrest ih => exact ih (h.next hread)

theorem decode_eq (h : Rounds block items number bytes) (hlast : readField? bytes = none) :
    Options.decode block = .ofList items := by
  rw [Options.decode, h.numberFields_eq, readFields_of_none hlast, numberFields, List.append_nil]

end Rounds

/-! ## Main result -/

/-- **Gathering options stays in range.** From any bytes that fit into a datagram the options are
gathered in rounds, at most one for each byte. What a round takes stands at the front of the bytes
that are left: a byte of two nibbles, the bytes that they announce, and a value of the announced
length. It is not empty, so fewer bytes are left afterwards, and counting its distance on from the
number of the option before does not leave the 32 bits. -/
theorem rounds_in_range {block : Bytes} (hlength : block.length ≤ 65535) :
    (∀ items number bytes, Rounds block items number bytes →
        ∀ field rest, readField? bytes = some (field, rest) →
          number.toNat + field.distance.toNat ≤ 2 ^ 32 - 1
            ∧ (∃ taken, IsField taken field.distance.toNat field.value ∧ bytes = taken ++ rest)
            ∧ rest.length < bytes.length)
      ∧ ∃ items number rest, Rounds block items number rest ∧ readField? rest = none
        ∧ Options.decode block = .ofList items ∧ items.length ≤ block.length := by
  constructor
  · intro items number bytes hrounds field rest hread
    have hnumber := (hrounds.number_le hlength).1
    have htaken := readField?_eq_some_iff.1 hread
    refine ⟨?_, htaken, length_of_readField? hread⟩
    obtain ⟨taken, hfield, rfl⟩ := htaken
    have hdistance := hfield.distance_le
    rw [List.length_append] at hnumber
    omega
  · have hstart : Rounds block [] 0 block := .start
    obtain ⟨items, number, rest, hrounds, hlast⟩ := hstart.exists_last
    have hitems := (hrounds.number_le hlength).2
    exact ⟨items, number, rest, hrounds, hlast, hrounds.decode_eq hlast, by omega⟩

/-- Two options at the largest distance that there is; the second one lacks its value. -/
def sampleTorn : Bytes := [0xE0, 0xFF, 0xFF, 0xE1, 0xFF, 0xFF]

theorem rounds_in_range_sampleTorn :
    sampleTorn.length ≤ 65535
      ∧ (∀ items number bytes, Rounds sampleTorn items number bytes →
          ∀ field rest, readField? bytes = some (field, rest) →
            number.toNat + field.distance.toNat ≤ 2 ^ 32 - 1
              ∧ (∃ taken, IsField taken field.distance.toNat field.value ∧ bytes = taken ++ rest)
              ∧ rest.length < bytes.length)
      ∧ (∃ items number rest, Rounds sampleTorn items number rest ∧ readField? rest = none
        ∧ Options.decode sampleTorn = .ofList items ∧ items.length ≤ sampleTorn.length)
      ∧ Rounds sampleTorn [⟨65804, []⟩] 65804 [0xE1, 0xFF, 0xFF]
      ∧ readField? [0xE1, 0xFF, 0xFF] = none := by
  have hlength : sampleTorn.length ≤ 65535 := by decide
  obtain ⟨hrange, hlast⟩ := rounds_in_range hlength
  have hread : readField? sampleTorn = some (⟨65804, []⟩, [0xE1, 0xFF, 0xFF]) := rfl
  exact ⟨hlength, hrange, hlast, .next .start hread, rfl⟩

end CoapNode
