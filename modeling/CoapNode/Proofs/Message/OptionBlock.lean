import CoapNode.Proofs.Message.Header

set_option autoImplicit false

/-! # Option blocks

The options of a packet are described by a grammar: `OptionBlock` says which options some bytes hold
and where they stop. Both passes over the options are compared with it. The first one accepts the
blocks of the grammar and nothing else (`afterOptions_eq_ok_iff`). The second one stops without a
word at whatever it cannot read, but in a block of the grammar it stops at its end and not before
(`OptionBlock.readFields_eq`). So what is read from a packet has all its options, each with its
number, and the payload behind them (`Message.parse_options`).
-/

namespace CoapNode

/-! ## The grammar -/

/-- **A distance or a length on the wire.** A nibble below 13 is the number itself, 13 announces
another byte, which counts from 13, and 14 announces two, which count from 269. The nibble 15
announces nothing. -/
inductive Announces : UInt8 → Bytes → Nat → Prop
  | nibble {n : UInt8} (h : n < 13) : Announces n [] n.toNat
  | oneByte (b : UInt8) : Announces 13 [b] (b.toNat + 13)
  | twoBytes (high low : UInt8) : Announces 14 [high, low] (high.toNat * 256 + low.toNat + 269)

/-- **An option on the wire**, with its distance and its value: a byte of two nibbles, the bytes
that they announce, and a value of the announced length. -/
inductive IsField : Bytes → Nat → Bytes → Prop
  | intro {head : UInt8} {forDistance forLength value : Bytes} {distance : Nat}
      (hdistance : Announces (head / 16) forDistance distance)
      (hlength : Announces (head % 16) forLength value.length) :
      IsField (head :: (forDistance ++ (forLength ++ value))) distance value

/-- **The options that some bytes hold**, with their numbers, the first one counted from a given
number, and what is left where they stop: nothing, or the marker and the payload behind it. -/
inductive OptionBlock : Nat → Bytes → List (Nat × Bytes) → Bytes → Prop
  | ended (number : Nat) : OptionBlock number [] [] []
  | marked (number : Nat) (payload : Bytes) :
      OptionBlock number (0xFF :: payload) [] (0xFF :: payload)
  | option {number distance : Nat} {field value bytes stop : Bytes} {options : List (Nat × Bytes)}
      (hfield : IsField field distance value)
      (hrest : OptionBlock (number + distance) bytes options stop) :
      OptionBlock number (field ++ bytes) ((number + distance, value) :: options) stop

/-- **Where an option block stops**: with the packet, which has no payload then, or at the marker in
front of the payload. -/
def StopsBefore (stop payload : Bytes) : Prop :=
  (stop = [] ∧ payload = []) ∨ stop = 0xFF :: payload

/-- The options of a message in order, each with its number as a natural number. -/
def Options.numbered (options : Options) : List (Nat × Bytes) :=
  options.items.map fun option => (option.number.toNat, option.value)

/-- What stands behind the header and the token of a packet. -/
def Message.optionBlock (bytes : Bytes) : Bytes := bytes.drop (4 + (bytes.headD 0 % 16).toNat)

/-! ## Distances and lengths -/

section

variable {reserved : OptionError} {nibble : UInt8} {announced bytes rest : Bytes} {n : Nat}

theorem Announces.readExtended_eq (h : Announces nibble announced n) (rest : Bytes) :
    readExtended reserved nibble (announced ++ rest) = .ok (n, rest) := by
  cases h with
  | nibble h => exact if_pos h
  | oneByte b => rfl
  | twoBytes high low => rfl

/-- The first pass reads exactly the numbers of the grammar. -/
theorem readExtended_eq_ok_iff :
    readExtended reserved nibble bytes = .ok (n, rest)
      ↔ ∃ announced, bytes = announced ++ rest ∧ Announces nibble announced n := by
  constructor
  · intro h
    unfold readExtended at h
    split at h
    · next hlt =>
        cases h
        exact ⟨[], rfl, .nibble hlt⟩
    · split at h
      · next heq =>
          subst heq
          split at h
          · cases h
            exact ⟨[_], rfl, .oneByte _⟩
          · cases h
      · split at h
        · next heq =>
            subst heq
            split at h
            · cases h
              exact ⟨[_, _], rfl, .twoBytes _ _⟩
            · cases h
        · cases h
  · rintro ⟨announced, rfl, h⟩
    exact h.readExtended_eq rest

theorem extended?_of_lt (h : nibble < 13) (bytes : Bytes) :
    extended? nibble bytes = some (nibble.toUInt32, bytes) := by
  unfold extended?
  split
  · exact absurd h (by decide)
  · exact absurd h (by decide)
  · rw [if_neg (UInt8.not_le.2 h)]

/-- The second pass reads the same numbers. No number is too large for 32 bits. -/
theorem Announces.extended?_eq (h : Announces nibble announced n) (rest : Bytes) :
    ∃ m : UInt32, m.toNat = n ∧ extended? nibble (announced ++ rest) = some (m, rest) := by
  cases h with
  | nibble h => exact ⟨nibble.toUInt32, rfl, extended?_of_lt h rest⟩
  | oneByte b =>
      refine ⟨b.toUInt32 + 13, ?_, rfl⟩
      have hlt := b.toNat_lt
      simp only [UInt32.toNat_add, UInt8.toNat_toUInt32, UInt32.reduceToNat]
      omega
  | twoBytes high low =>
      refine ⟨high.toUInt32 * 256 + low.toUInt32 + 269, ?_, rfl⟩
      have hhigh := high.toNat_lt
      have hlow := low.toNat_lt
      simp only [UInt32.toNat_add, UInt32.toNat_mul, UInt8.toNat_toUInt32, UInt32.reduceToNat]
      omega

/-- The reserved nibble announces nothing. -/
theorem Announces.toNat_le (h : Announces nibble announced n) : nibble.toNat ≤ 14 := by
  cases h with
  | nibble h => exact Nat.le_of_lt (Nat.lt_trans (UInt8.lt_iff_toNat_lt.1 h) (by decide))
  | oneByte b => decide
  | twoBytes high low => decide

/-- Large numbers take more bytes. -/
theorem Announces.le_length (h : Announces nibble announced n) :
    n ≤ 21935 * (announced.length + 1) := by
  cases h with
  | nibble h =>
      have hlt : nibble.toNat < 13 := UInt8.lt_iff_toNat_lt.1 h
      simp only [List.length_nil]
      omega
  | oneByte b =>
      have hlt := b.toNat_lt
      simp only [List.length_singleton]
      omega
  | twoBytes high low =>
      have hhigh := high.toNat_lt
      have hlow := low.toNat_lt
      simp only [List.length_cons, List.length_nil]
      omega

end

/-! ## Fields -/

section

variable {head : UInt8} {field value bytes rest : Bytes} {distance : Nat}

/-- No field begins with the marker, whose nibbles are reserved. -/
theorem IsField.head_ne_marker (h : IsField (head :: field) distance value) : head ≠ 0xFF := by
  rintro rfl
  cases h with
  | intro hdistance hlength => exact absurd hdistance.toNat_le (by decide)

theorem IsField.skipField_eq (h : IsField (head :: field) distance value) (rest : Bytes) :
    skipField head (field ++ rest) = .ok rest := by
  cases h with
  | intro hdistance hlength =>
      rw [skipField, List.append_assoc, hdistance.readExtended_eq]
      dsimp only
      rw [List.append_assoc, hlength.readExtended_eq]
      dsimp only
      rw [List.take_left, if_neg (Nat.lt_irrefl _), List.drop_left]

/-- The first pass skips exactly the fields of the grammar. -/
theorem skipField_eq_ok_iff :
    skipField head bytes = .ok rest
      ↔ ∃ field distance value, IsField (head :: field) distance value ∧ bytes = field ++ rest := by
  constructor
  · intro h
    unfold skipField at h
    split at h
    · cases h
    · next hread =>
        obtain ⟨forDistance, rfl, hdistance⟩ := readExtended_eq_ok_iff.1 hread
        split at h
        · cases h
        · next length after hread' =>
            obtain ⟨forLength, rfl, hlength⟩ := readExtended_eq_ok_iff.1 hread'
            split at h
            · cases h
            · next hlong =>
                cases h
                have hvalue : (after.take length).length = length :=
                  Nat.le_antisymm (List.length_take_le _ _) (Nat.not_lt.1 hlong)
                refine ⟨_, _, after.take length, .intro hdistance (hvalue.symm ▸ hlength), ?_⟩
                rw [List.append_assoc, List.append_assoc, List.take_append_drop]
  · rintro ⟨field, distance, value, h, rfl⟩
    exact h.skipField_eq rest

/-- The second pass reads the distance and the value of a field, and takes nothing else. -/
theorem IsField.readField?_eq (h : IsField field distance value) (rest : Bytes) :
    ∃ d : UInt32, d.toNat = distance ∧ readField? (field ++ rest) = some (⟨d, value⟩, rest) := by
  cases h with
  | @intro head forDistance forLength _ _ hdistance hlength =>
      obtain ⟨d, hd, hread⟩ := hdistance.extended?_eq (forLength ++ (value ++ rest))
      obtain ⟨length, hlength, hread'⟩ := hlength.extended?_eq (value ++ rest)
      refine ⟨d, hd, ?_⟩
      rw [List.cons_append, List.append_assoc, List.append_assoc, readField?, hread]
      dsimp only
      rw [hread']
      dsimp only
      rw [hlength, List.take_left, if_neg (Nat.lt_irrefl _), List.drop_left]

/-- A field is long if its distance is. -/
theorem IsField.distance_le (h : IsField field distance value) :
    distance ≤ 21935 * field.length := by
  cases h with
  | intro hdistance hlength =>
      have hle := hdistance.le_length
      simp only [List.length_cons, List.length_append]
      omega

end

/-! ## Blocks -/

theorem afterOptions_marker (rest : Bytes) : afterOptions (0xFF :: rest) = .ok rest := by
  rw [afterOptions.eq_def]
  exact if_pos rfl

theorem afterOptions_of_skipField {head : UInt8} {bytes rest : Bytes} (hne : head ≠ 0xFF)
    (h : skipField head bytes = .ok rest) : afterOptions (head :: bytes) = afterOptions rest := by
  rw [afterOptions.eq_def]
  dsimp only
  rw [if_neg hne]
  split
  · next hskip =>
      rw [h] at hskip
      cases hskip
  · next hskip =>
      rw [h] at hskip
      cases hskip
      rfl

theorem readFields_of_none {bytes : Bytes} (h : readField? bytes = none) :
    readFields bytes = ([], bytes) := by
  rw [readFields.eq_def]
  split
  · rfl
  · next hread =>
      rw [h] at hread
      cases hread

theorem readFields_of_some {bytes rest : Bytes} {field : OptionField}
    (h : readField? bytes = some (field, rest)) :
    readFields bytes = (field :: (readFields rest).1, (readFields rest).2) := by
  rw [readFields.eq_def]
  split
  · next hread =>
      rw [h] at hread
      cases hread
  · next hread =>
      rw [h] at hread
      cases hread
      rfl

section

variable {number : Nat} {bytes stop payload : Bytes} {options : List (Nat × Bytes)}

theorem OptionBlock.afterOptions_eq (h : OptionBlock number bytes options stop) :
    ∃ payload, afterOptions bytes = .ok payload ∧ StopsBefore stop payload := by
  induction h with
  | ended number => exact ⟨[], afterOptions.eq_def [], .inl ⟨rfl, rfl⟩⟩
  | marked number payload => exact ⟨payload, afterOptions_marker payload, .inr rfl⟩
  | option hfield hrest ih =>
      obtain ⟨payload, hafter, hstop⟩ := ih
      cases hfield with
      | intro hdistance hlength =>
          have hfield := IsField.intro hdistance hlength
          refine ⟨payload, ?_, hstop⟩
          rw [List.cons_append,
            afterOptions_of_skipField hfield.head_ne_marker (hfield.skipField_eq _), hafter]

theorem exists_optionBlock (number : Nat) (h : afterOptions bytes = .ok payload) :
    ∃ options stop, OptionBlock number bytes options stop ∧ StopsBefore stop payload := by
  fun_induction afterOptions bytes generalizing number with
  | case1 =>
      cases h
      exact ⟨[], [], .ended number, .inl ⟨rfl, rfl⟩⟩
  | case2 rest =>
      cases h
      exact ⟨[], _, .marked number _, .inr rfl⟩
  | case3 head bytes hmarker e hskip => cases h
  | case4 head bytes hmarker rest hskip ih =>
      obtain ⟨field, distance, value, hfield, rfl⟩ := skipField_eq_ok_iff.1 hskip
      obtain ⟨options, stop, hblock, hstop⟩ := ih (number + distance) h
      exact ⟨_, stop, .option hfield hblock, hstop⟩

/-- **The first pass accepts the blocks of the grammar and nothing else**, and finds the payload
where they stop. -/
theorem afterOptions_eq_ok_iff :
    afterOptions bytes = .ok payload
      ↔ ∃ options stop, OptionBlock 0 bytes options stop ∧ StopsBefore stop payload := by
  constructor
  · exact exists_optionBlock 0
  · rintro ⟨options, stop, hblock, hstop⟩
    obtain ⟨payload', hafter, hstop'⟩ := hblock.afterOptions_eq
    have hpayload : payload' = payload := by
      rcases hstop with ⟨rfl, rfl⟩ | rfl <;> rcases hstop' with ⟨hnil, rfl⟩ | hcons
      · rfl
      · cases hcons
      · cases hnil
      · exact (List.cons.inj hcons).2.symm
    rw [hafter, hpayload]

/-- **The second pass stops where the block does**, and has gathered its options. The numbers are
added up in 32 bits, so the block must be short enough for them. -/
theorem OptionBlock.readFields_eq (h : OptionBlock number bytes options stop) :
    (readFields bytes).2 = stop
      ∧ ∀ start : UInt32, start.toNat = number → number + 21935 * bytes.length < 4294967296 →
        (numberFields start (readFields bytes).1).map (fun x => (x.number.toNat, x.value))
          = options := by
  induction h with
  | ended number =>
      have hread : readFields [] = ([], []) := readFields_of_none rfl
      rw [hread]
      exact ⟨rfl, fun _ _ _ => rfl⟩
  | marked number payload =>
      have hread : readFields (0xFF :: payload) = ([], 0xFF :: payload) := readFields_of_none rfl
      rw [hread]
      exact ⟨rfl, fun _ _ _ => rfl⟩
  | @option number distance field value bytes stop options hfield hrest ih =>
      obtain ⟨d, hd, hread⟩ := hfield.readField?_eq bytes
      rw [readFields_of_some hread]
      refine ⟨ih.1, fun start hstart hbound => ?_⟩
      have hdistance := hfield.distance_le
      rw [List.length_append] at hbound
      -- the sum does not wrap: the bytes of the field are among those that the bound allows for
      have hnumber : (start + d).toNat = number + distance := by
        rw [UInt32.toNat_add, hstart, hd]
        omega
      rw [numberFields, List.map_cons, hnumber, ih.2 (start + d) hnumber (by omega)]

/-- The numbers of a block ascend. -/
theorem OptionBlock.ascending (h : OptionBlock number bytes options stop) :
    (∀ option ∈ options, number ≤ option.1) ∧ options.Pairwise fun a b => a.1 ≤ b.1 := by
  induction h with
  | ended number => exact ⟨nofun, .nil⟩
  | marked number payload => exact ⟨nofun, .nil⟩
  | option hfield hrest ih =>
      obtain ⟨hle, hascending⟩ := ih
      refine ⟨?_, List.pairwise_cons.2 ⟨hle, hascending⟩⟩
      intro option hoption
      rcases List.mem_cons.1 hoption with rfl | hoption
      · exact Nat.le_add_right _ _
      · exact Nat.le_trans (Nat.le_add_right _ _) (hle option hoption)

/-- The options that the second pass gathers are already in order. -/
theorem OptionBlock.numbered_decode (h : OptionBlock 0 bytes options stop)
    (hlength : bytes.length ≤ 65535) : (Options.decode bytes).numbered = options := by
  have hread := h.readFields_eq.2 0 rfl (by omega)
  have hascending : (numberFields 0 (readFields bytes).1).Pairwise
      fun a b => a.number ≤ b.number := by
    have hpairwise := h.ascending.2
    rw [← hread, List.pairwise_map] at hpairwise
    exact hpairwise.imp UInt32.le_iff_toNat_le.2
  rw [Options.numbered, Options.decode, Options.items_ofList hascending, hread]

end

/-! ## Packets -/

namespace Message

/-- What reading makes of the bytes behind the header and the token. -/
theorem parse_optionBlock {bytes : Bytes} {msg : Message} (h : parse bytes = .ok msg) :
    afterOptions (optionBlock bytes) = .ok msg.payload
      ∧ msg.options = .decode (optionBlock bytes) := by
  obtain ⟨first, code, high, low, rest, rfl⟩ := exists_header_of_parse h
  have hblock : optionBlock (first :: code :: high :: low :: rest)
      = rest.drop (first % 16).toNat := by
    rw [optionBlock, List.headD_cons, Nat.add_comm]
    rfl
  simp only [parse] at h
  split at h
  · split at h
    · cases h
    · split at h
      · cases h
      · next hafter =>
          cases h
          rw [hblock]
          exact ⟨hafter, rfl⟩
  · cases h

/-- **Both passes over the options agree.** If a packet can be read, the bytes behind its token are
an option block, which the second pass goes through to its end: up to the end of the packet or up to
the marker, with the payload of the message behind it. The block can be taken apart in one way only,
and that gives the options of the message: all of them, in the order of the packet, each with its
number. -/
theorem parse_options {bytes : Bytes} {msg : Message} (hlength : bytes.length ≤ 65535)
    (h : parse bytes = .ok msg) :
    StopsBefore (readFields (optionBlock bytes)).2 msg.payload
      ∧ ∀ options stop, OptionBlock 0 (optionBlock bytes) options stop
        ↔ options = msg.options.numbered ∧ stop = (readFields (optionBlock bytes)).2 := by
  obtain ⟨hafter, hoptions⟩ := parse_optionBlock h
  have hshort : (optionBlock bytes).length ≤ 65535 := by
    rw [optionBlock, List.length_drop]
    omega
  have hunique : ∀ {options stop}, OptionBlock 0 (optionBlock bytes) options stop →
      options = msg.options.numbered ∧ stop = (readFields (optionBlock bytes)).2 := by
    intro options stop hblock
    rw [hoptions]
    exact ⟨(hblock.numbered_decode hshort).symm, hblock.readFields_eq.1.symm⟩
  obtain ⟨options, stop, hblock, hstop⟩ := afterOptions_eq_ok_iff.1 hafter
  obtain ⟨rfl, rfl⟩ := hunique hblock
  refine ⟨hstop, fun options stop => ⟨hunique, ?_⟩⟩
  rintro ⟨rfl, rfl⟩
  exact hblock

/-- Two segments of a path and an option far behind them, in front of a payload with a byte that
looks like the marker. -/
def samplePacket : Bytes :=
  [0x41, 0x01, 0x00, 0x07, 0xAA, 0xB1, 0x61, 0x01, 0x62, 0xE1, 0x00, 0x1F, 0xFF, 0xFF, 0x00, 0xFF]

/-- The message in the sample packet. -/
def sampleOptioned : Message where
  kind := .con
  version := 1
  code := ⟨0, 1⟩
  id := 7
  token := ⟨[0xAA], by decide⟩
  options := ((Options.empty.push 11 [0x61]).push 11 [0x62]).push 311 [0xFF]
  payload := [0x00, 0xFF]

theorem parse_samplePacket : parse samplePacket = .ok sampleOptioned := by
  have hfields : readFields [0xB1, 0x61, 0x01, 0x62, 0xE1, 0x00, 0x1F, 0xFF, 0xFF, 0x00, 0xFF]
      = ([⟨11, [0x61]⟩, ⟨0, [0x62]⟩, ⟨300, [0xFF]⟩], [0xFF, 0x00, 0xFF]) := by
    rw [readFields_of_some rfl, readFields_of_some rfl, readFields_of_some rfl,
      readFields_of_none rfl]
    rfl
  have hoptions : Options.ofList (numberFields 0 [⟨11, [0x61]⟩, ⟨0, [0x62]⟩, ⟨300, [0xFF]⟩])
      = sampleOptioned.options := Options.ext (Options.items_ofList (by decide))
  simp [samplePacket, parse, afterOptions, skipField, readExtended, Options.decode, hfields,
    hoptions]
  rfl

theorem parse_options_samplePacket :
    samplePacket.length ≤ 65535 ∧ parse samplePacket = .ok sampleOptioned
      ∧ sampleOptioned.options.numbered = [(11, [0x61]), (11, [0x62]), (311, [0xFF])]
      ∧ StopsBefore (readFields (optionBlock samplePacket)).2 sampleOptioned.payload
      ∧ ∀ options stop, OptionBlock 0 (optionBlock samplePacket) options stop
        ↔ options = sampleOptioned.options.numbered
          ∧ stop = (readFields (optionBlock samplePacket)).2 := by
  have hlength : samplePacket.length ≤ 65535 := by decide
  exact ⟨hlength, parse_samplePacket, rfl, parse_options hlength parse_samplePacket⟩

end Message

end CoapNode
