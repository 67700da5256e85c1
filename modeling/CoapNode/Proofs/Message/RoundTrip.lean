import CoapNode.Proofs.Message.OptionBlock
import CoapNode.Message.Code

set_option autoImplicit false

/-! # Messages survive the wire

Writing a message and reading it again gives the message back, with all its options and its payload
(`Message.parse_encode`), if its parts fit into the fields they are written to
(`Message.Writable`). Each option is written as a field of the grammar (`OptionField.Fits.isField`),
so what is written for the options and the payload is an option block, and both passes over it find
what was written. They stop at the marker, whose nibbles are reserved, so no byte of the payload is
taken for an option.
-/

namespace CoapNode

/-! ## What can be written -/

/-- A distance or a length that has a form on the wire. The numbers from 256 to 268 are left out:
they belong to the form with one more byte, but do not fit into one themselves. -/
def HasWireForm (n : Nat) : Prop := n ≤ 65535 ∧ ¬(256 ≤ n ∧ n ≤ 268)

instance : DecidablePred HasWireForm := fun n =>
  inferInstanceAs (Decidable (n ≤ 65535 ∧ ¬(256 ≤ n ∧ n ≤ 268)))

theorem hasWireForm_of_le {n : Nat} (h : n ≤ 255) : HasWireForm n := ⟨by omega, by omega⟩

/-- How far each number of an ascending list lies behind the one before it, the first one counted
from a given number. -/
def gapsFrom : Nat → List Nat → List Nat
  | _, [] => []
  | start, n :: rest => (n - start) :: gapsFrom n rest

/-- Numbers that are all the same have one gap in front of them and none between them. -/
theorem eq_of_mem_gapsFrom {number start gap : Nat} {numbers : List Nat}
    (h : ∀ n ∈ numbers, n = number) (hgap : gap ∈ gapsFrom start numbers) :
    gap = number - start ∨ gap = 0 := by
  induction numbers generalizing start with
  | nil => cases hgap
  | cons n numbers ih =>
      obtain ⟨rfl, hnumbers⟩ := List.forall_mem_cons.1 h
      rcases List.mem_cons.1 hgap with rfl | hgap
      · exact .inl rfl
      · have hlater := ih hnumbers hgap
        omega

/-- The gaps between the numbers of options, the first one counted from zero. -/
def Options.gaps (options : Options) : List Nat := gapsFrom 0 (options.items.map (·.number.toNat))

/-- **A message fits into the fields of its packet**: two bits for the version, three and five for
the code, and a wire form for each gap between option numbers and each length of a value. The
token and the order of the options fit by their types. -/
structure Message.Writable (msg : Message) : Prop where
  version : msg.version < 4
  cls : msg.code.cls < 8
  detail : msg.code.detail < 32
  gaps : ∀ gap ∈ msg.options.gaps, HasWireForm gap
  lengths : ∀ option ∈ msg.options.items, HasWireForm option.value.length

/-- The distance and the length of a field have wire forms. -/
def OptionField.Fits (field : OptionField) : Prop :=
  HasWireForm field.distance.toNat ∧ HasWireForm field.value.length

theorem fits_of_mem_fieldsOf {number : UInt32} {items : List OptionInstance}
    (hascending : items.Pairwise fun a b => a.number ≤ b.number)
    (hnumber : ∀ option ∈ items, number ≤ option.number)
    (hgaps : ∀ gap ∈ gapsFrom number.toNat (items.map (·.number.toNat)), HasWireForm gap)
    (hlengths : ∀ option ∈ items, HasWireForm option.value.length) :
    ∀ field ∈ fieldsOf number items, field.Fits := by
  induction items generalizing number with
  | nil => exact List.forall_mem_nil _
  | cons option items ih =>
      obtain ⟨hbehind, hascending⟩ := List.pairwise_cons.1 hascending
      obtain ⟨hgap, hgaps⟩ := List.forall_mem_cons.1 hgaps
      obtain ⟨hlength, hlengths⟩ := List.forall_mem_cons.1 hlengths
      refine List.forall_mem_cons.2 ⟨⟨?_, hlength⟩, ih hascending hbehind hgaps hlengths⟩
      rw [UInt32.toNat_sub_of_le _ _ (hnumber option List.mem_cons_self)]
      exact hgap

/-! ## Fields -/

/-- **What is written for a number announces it.** -/
theorem announces_nibbleFor {n : Nat} (h : HasWireForm n) :
    Announces (nibbleFor n) (extensionFor n) n := by
  obtain ⟨hmax, -⟩ := h
  rw [nibbleFor, extensionFor]
  by_cases hsmall : n < 13
  · have hnat : (UInt8.ofNat n).toNat = n := by
      rw [UInt8.toNat_ofNat']
      omega
    have hlt : UInt8.ofNat n < 13 := by
      rw [UInt8.lt_iff_toNat_lt, hnat]
      exact hsmall
    have hannounced := Announces.nibble hlt
    rw [hnat] at hannounced
    rw [if_pos hsmall, if_pos hsmall]
    exact hannounced
  · rw [if_neg hsmall, if_neg hsmall]
    by_cases hmedium : n < 269
    · have hnat : (UInt8.ofNat (n - 13)).toNat + 13 = n := by
        rw [UInt8.toNat_ofNat']
        omega
      have hannounced := Announces.oneByte (UInt8.ofNat (n - 13))
      rw [hnat] at hannounced
      rw [if_pos hmedium, if_pos hmedium]
      exact hannounced
    · have hnat : (UInt8.ofNat ((n - 269) / 256)).toNat * 256 + (UInt8.ofNat (n - 269)).toNat + 269
          = n := by
        rw [UInt8.toNat_ofNat', UInt8.toNat_ofNat']
        omega
      have hannounced :=
        Announces.twoBytes (UInt8.ofNat ((n - 269) / 256)) (UInt8.ofNat (n - 269))
      rw [hnat] at hannounced
      rw [if_neg hmedium, if_neg hmedium]
      exact hannounced

namespace OptionField

variable {field : OptionField}

/-- The byte that a field begins with. -/
def head (field : OptionField) : UInt8 :=
  nibbleFor field.distance.toNat * 16 + nibbleFor field.value.length

theorem Fits.encode_eq (h : field.Fits) :
    field.encode = field.head :: (extensionFor field.distance.toNat
      ++ (extensionFor field.value.length ++ field.value)) := by
  have hdistance : field.distance.toNat % 65536 = field.distance.toNat :=
    Nat.mod_eq_of_lt (Nat.lt_succ_of_le h.1.1)
  have hlength : field.value.length % 65536 = field.value.length :=
    Nat.mod_eq_of_lt (Nat.lt_succ_of_le h.2.1)
  rw [encode, hdistance, hlength, List.append_assoc, head]

/-- The two nibbles of the first byte are found again. -/
theorem Fits.nibbles_head (h : field.Fits) :
    field.head / 16 = nibbleFor field.distance.toNat
      ∧ field.head % 16 = nibbleFor field.value.length := by
  have hdistance := (announces_nibbleFor h.1).toNat_le
  have hlength := (announces_nibbleFor h.2).toNat_le
  constructor <;> apply UInt8.toNat_inj.1 <;>
    simp only [head, UInt8.toNat_div, UInt8.toNat_mod, UInt8.toNat_add, UInt8.toNat_mul,
      UInt8.reduceToNat] <;> omega

/-- **What is written for a field is one** in the sense of the grammar. -/
theorem Fits.isField (h : field.Fits) :
    IsField field.encode field.distance.toNat field.value := by
  have hdistance := announces_nibbleFor h.1
  have hlength := announces_nibbleFor h.2
  rw [← h.nibbles_head.1] at hdistance
  rw [← h.nibbles_head.2] at hlength
  rw [h.encode_eq]
  exact .intro hdistance hlength

end OptionField

/-! ## The option block -/

section

variable {fields : List OptionField}

/-- What is written for some fields and a payload is an option block. -/
theorem exists_optionBlock_encode (h : ∀ field ∈ fields, field.Fits) (number : Nat)
    (payload : Bytes) :
    ∃ options stop,
      OptionBlock number (fields.flatMap OptionField.encode ++ encodePayload payload) options stop
        ∧ StopsBefore stop payload := by
  induction fields generalizing number with
  | nil =>
      cases payload with
      | nil => exact ⟨[], [], .ended number, .inl ⟨rfl, rfl⟩⟩
      | cons b payload => exact ⟨[], _, .marked number (b :: payload), .inr rfl⟩
  | cons field fields ih =>
      obtain ⟨hfield, hfields⟩ := List.forall_mem_cons.1 h
      obtain ⟨options, stop, hblock, hstop⟩ := ih hfields (number + field.distance.toNat)
      rw [List.flatMap_cons, List.append_assoc]
      exact ⟨_, stop, .option hfield.isField hblock, hstop⟩

/-- **The check of a block finds the payload** behind the fields. -/
theorem afterOptions_encode (h : ∀ field ∈ fields, field.Fits) (payload : Bytes) :
    afterOptions (fields.flatMap OptionField.encode ++ encodePayload payload) = .ok payload :=
  afterOptions_eq_ok_iff.2 (exists_optionBlock_encode h 0 payload)

/-- A payload behind its marker is no field. -/
theorem readField?_encodePayload (payload : Bytes) : readField? (encodePayload payload) = none := by
  cases payload <;> rfl

/-- **The fields that are gathered are those that were written.** -/
theorem readFields_encode (h : ∀ field ∈ fields, field.Fits) (payload : Bytes) :
    readFields (fields.flatMap OptionField.encode ++ encodePayload payload)
      = (fields, encodePayload payload) := by
  induction fields with
  | nil => exact readFields_of_none (readField?_encodePayload payload)
  | cons field fields ih =>
      obtain ⟨hfield, hfields⟩ := List.forall_mem_cons.1 h
      obtain ⟨distance, hdistance, hread⟩ := hfield.isField.readField?_eq
        (fields.flatMap OptionField.encode ++ encodePayload payload)
      obtain rfl := UInt32.toNat_inj.1 hdistance
      rw [List.flatMap_cons, List.append_assoc, readFields_of_some hread, ih hfields]

end

/-! ## Messages -/

namespace Message

variable {msg : Message}

theorem Writable.fits (h : msg.Writable) :
    ∀ field ∈ fieldsOf 0 msg.options.items, field.Fits :=
  fits_of_mem_fieldsOf msg.options.ascending (fun _ _ => UInt32.zero_le) h.gaps
    h.lengths

theorem Writable.decode_encode (h : msg.Writable) :
    Options.decode (msg.options.encode ++ encodePayload msg.payload) = msg.options := by
  rw [Options.decode, Options.encode, readFields_encode h.fits, numberFields_fieldsOf]
  exact Options.ext (Options.items_ofList msg.options.ascending)

/-- The first byte holds a version of two bits. -/
theorem version_firstByte (h : msg.version < 4) : msg.firstByte / 64 = msg.version := by
  have hversion : msg.version.toNat < 4 := UInt8.lt_iff_toNat_lt.1 h
  have hlength := msg.token.length_le
  have hkind : msg.kind.bits.toNat ≤ 3 := by cases msg.kind <;> decide
  apply UInt8.toNat_inj.1
  simp only [firstByte, UInt8.toNat_div, UInt8.toNat_add, UInt8.toNat_mul, UInt8.toNat_ofNat',
    UInt8.reduceToNat]
  omega

end Message

/-- A code whose parts have three and five bits is found again in its byte. -/
theorem Code.ofByte_toByte {code : Code} (hcls : code.cls < 8) (hdetail : code.detail < 32) :
    Code.ofByte code.toByte = code := by
  have hcls' : code.cls.toNat < 8 := UInt8.lt_iff_toNat_lt.1 hcls
  have hdetail' : code.detail.toNat < 32 := UInt8.lt_iff_toNat_lt.1 hdetail
  obtain ⟨cls, detail⟩ := code
  rw [ofByte, toByte, mk.injEq]
  constructor <;> apply UInt8.toNat_inj.1 <;>
    simp only [UInt8.toNat_div, UInt8.toNat_mod, UInt8.toNat_add, UInt8.toNat_mul,
      UInt8.reduceToNat] at * <;> omega

/-- **Writing a message and reading it again gives the message back**, if it fits into the fields
of its packet: every part of the header, every option with its number and all its values in order,
and the payload, whatever its bytes are. -/
theorem Message.parse_encode {msg : Message} (h : msg.Writable) : parse msg.encode = .ok msg := by
  have htoken : msg.token.bytes.length ≤ 8 := msg.token.length_le
  have hlength : ¬msg.body.length < msg.token.bytes.length := by
    rw [body, List.length_append]
    omega
  have htake : msg.body.take msg.token.bytes.length = msg.token.bytes := List.take_left
  have hblock : msg.body.drop msg.token.bytes.length
      = msg.options.encode ++ encodePayload msg.payload := List.drop_left
  have hcheck : afterOptions (msg.options.encode ++ encodePayload msg.payload) = .ok msg.payload :=
    afterOptions_encode h.fits msg.payload
  rw [encode_eq_header, parse]
  simp only [tokenLength_firstByte, htoken, hlength, htake, hblock, hcheck, dif_pos, if_false,
    kind_firstByte, version_firstByte h.version, Code.ofByte_toByte h.cls h.detail, id_of_bytes,
    h.decode_encode]

/-- A message with a number that occurs twice, a gap and a length that take more bytes, and the
marker inside a value and a payload. -/
def Message.sampleRepeated : Message where
  kind := .non
  version := 3
  code := ⟨7, 31⟩
  id := 0xABCD
  token := ⟨[1, 2, 3], by decide⟩
  options := ((Options.empty.push 11 [0x61]).push 311 (List.replicate 14 0xFF)).push 11 []
  payload := [0xFF, 0x00, 0xFF]

theorem Message.parse_encode_sampleRepeated :
    sampleRepeated.Writable
      ∧ sampleRepeated.encode
        = [0xD3, 0xFF, 0xAB, 0xCD, 1, 2, 3, 0xB1, 0x61, 0x00, 0xED, 0x00, 0x1F, 0x01]
          ++ List.replicate 14 0xFF ++ [0xFF, 0xFF, 0x00, 0xFF]
      ∧ parse sampleRepeated.encode = .ok sampleRepeated := by
  have hwritable : sampleRepeated.Writable :=
    { version := by decide, cls := by decide, detail := by decide, gaps := by decide,
      lengths := by decide }
  exact ⟨hwritable, by decide, parse_encode hwritable⟩

end CoapNode
