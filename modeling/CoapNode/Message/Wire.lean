import CoapNode.Message.Basic
import CoapNode.Text.Record

set_option autoImplicit false

/-! # Messages on the wire

A message is four header bytes, the token, the options, and the payload behind a marker byte
`0xFF`. An option is a byte with two nibbles, for the distance of its number from the one
before and for the length of its value; the nibbles 13 and 14 announce one or two more bytes,
and 15 is reserved.

Reading goes over the option block twice. `afterOptions` checks it and finds the payload;
`Options.decode` then gathers the options, and stops where the block stops making sense.

* `numberFields_fieldsOf`: the distances between the numbers of options determine the numbers.
-/

namespace CoapNode

/-! ## Writing -/

/-- The nibble that announces a distance or length. -/
def nibbleFor (n : Nat) : UInt8 := if n < 13 then UInt8.ofNat n else if n < 269 then 13 else 14

/-- The bytes that follow the nibble. -/
def extensionFor (n : Nat) : Bytes :=
  if n < 13 then []
  else if n < 269 then [UInt8.ofNat (n - 13)]
  else [UInt8.ofNat ((n - 269) / 256), UInt8.ofNat (n - 269)]

/-- An option as it stands on the wire: how far its number is from the number of the option
before, and its value. -/
structure OptionField where
  distance : UInt32
  value : Bytes
deriving DecidableEq, Repr

/-- The bytes of a field. Sixteen bits are sent of the distance, and of the length of the value. -/
def OptionField.encode (field : OptionField) : Bytes :=
  let distance := field.distance.toNat % 65536
  let length := field.value.length % 65536
  (nibbleFor distance * 16 + nibbleFor length) ::
    (extensionFor distance ++ extensionFor length ++ field.value)

/-- The fields of options, the first one counted from `number`. -/
def fieldsOf (number : UInt32) : List OptionInstance → List OptionField
  | [] => []
  | x :: xs => ⟨x.number - number, x.value⟩ :: fieldsOf x.number xs

/-- The options of fields, the first one counted from `number`. -/
def numberFields (number : UInt32) : List OptionField → List OptionInstance
  | [] => []
  | field :: fields =>
    ⟨number + field.distance, field.value⟩ :: numberFields (number + field.distance) fields

theorem numberFields_fieldsOf (number : UInt32) (items : List OptionInstance) :
    numberFields number (fieldsOf number items) = items := by
  induction items generalizing number with
  | nil => rfl
  | cons x xs ih =>
    have hnumber : number + (x.number - number) = x.number := by
      rw [UInt32.add_comm, UInt32.sub_add_cancel]
    simp only [fieldsOf, numberFields, hnumber, ih]

/-- The option block of a message. -/
def Options.encode (options : Options) : Bytes :=
  (fieldsOf 0 options.items).flatMap OptionField.encode

/-- The two bits of a kind. -/
def Kind.bits : Kind → UInt8
  | .con => 0
  | .non => 1
  | .ack => 2
  | .reset => 3

/-- The kind with the given two bits. -/
def Kind.ofBits (bits : UInt8) : Kind :=
  if bits = 0 then .con else if bits = 1 then .non else if bits = 2 then .ack else .reset

/-- The byte of a code: three bits of class, five of detail. -/
def Code.toByte (code : Code) : UInt8 := code.cls * 32 + code.detail % 32

/-- The code of a byte. -/
def Code.ofByte (b : UInt8) : Code := ⟨b / 32, b % 32⟩

/-- The payload behind its marker; an empty payload has none. -/
def encodePayload (payload : Bytes) : Bytes := if payload.isEmpty then [] else 0xFF :: payload

/-- The bytes of a message. -/
def Message.encode (msg : Message) : Bytes :=
  [msg.version * 64 + msg.kind.bits * 16 + UInt8.ofNat msg.token.bytes.length, msg.code.toByte,
    (msg.id / 256).toUInt8, msg.id.toUInt8] ++
    msg.token.bytes ++ msg.options.encode ++ encodePayload msg.payload

/-! ## Reading -/

/-- What is wrong with an option block. -/
inductive OptionError where
  /-- An option is cut short. -/
  | endOfStream
  /-- The distance nibble is 15. -/
  | reservedDistance
  /-- The length nibble is 15. -/
  | reservedLength
deriving DecidableEq, Repr

/-- The name of an error. -/
def OptionError.text : OptionError → String
  | .endOfStream => "UnexpectedEndOfStream"
  | .reservedDistance => Text.tagged "OptionDeltaReservedValue" "15"
  | .reservedLength => Text.tagged "ValueLengthReservedValue" "15"

/-- Why bytes are no message. -/
inductive WireError where
  /-- The header or the token is cut short. -/
  | endOfStream
  /-- The header announces a token of more than eight bytes. -/
  | tokenLength (n : Nat)
  /-- The option block is malformed. -/
  | option (e : OptionError)
deriving DecidableEq, Repr

/-- The name of an error. -/
def WireError.text : WireError → String
  | .endOfStream => "UnexpectedEndOfStream"
  | .tokenLength n => Text.tagged "InvalidTokenLength" (toString n)
  | .option e => Text.tagged "OptParseError" e.text

/-- Read the distance or length that a nibble announces; `reserved` is the complaint about
the nibble 15. -/
def readExtended (reserved : OptionError) (nibble : UInt8) (bytes : Bytes) :
    Except OptionError (Nat × Bytes) :=
  if nibble < 13 then .ok (nibble.toNat, bytes)
  else if nibble = 13 then
    match bytes with
    | b :: rest => .ok (b.toNat + 13, rest)
    | [] => .error .endOfStream
  else if nibble = 14 then
    match bytes with
    | hi :: lo :: rest => .ok (hi.toNat * 256 + lo.toNat + 269, rest)
    | _ => .error .endOfStream
  else .error reserved

theorem length_of_readExtended {reserved : OptionError} {nibble : UInt8} {bytes rest : Bytes}
    {n : Nat} (h : readExtended reserved nibble bytes = .ok (n, rest)) :
    rest.length ≤ bytes.length := by
  unfold readExtended at h
  split at h
  · cases h
    exact Nat.le_refl _
  · split at h
    · split at h
      · cases h
        exact Nat.le_succ _
      · cases h
    · split at h
      · split at h
        · cases h
          exact Nat.le_succ_of_le (Nat.le_succ _)
        · cases h
      · cases h

/-- Check the field that begins with the byte `head`, and yield what follows it. The field must be
complete and use no reserved nibble. -/
def skipField (head : UInt8) (bytes : Bytes) : Except OptionError Bytes :=
  match readExtended .reservedDistance (head / 16) bytes with
  | .error e => .error e
  | .ok (_, bytes) =>
    match readExtended .reservedLength (head % 16) bytes with
    | .error e => .error e
    | .ok (length, bytes) =>
      if (bytes.take length).length < length then .error .endOfStream else .ok (bytes.drop length)

theorem length_of_skipField {head : UInt8} {bytes rest : Bytes}
    (h : skipField head bytes = .ok rest) : rest.length ≤ bytes.length := by
  unfold skipField at h
  split at h
  · cases h
  · rename_i hd
    have h1 := length_of_readExtended hd
    split at h
    · cases h
    · rename_i hl
      have h2 := length_of_readExtended hl
      split at h
      · cases h
      · cases h
        rw [List.length_drop]
        omega

set_option linter.unusedVariables false in
/-- Check an option block and yield the payload that follows it. The block ends with the bytes
or with the marker. -/
def afterOptions (bytes : Bytes) : Except OptionError Bytes :=
  match bytes with
  | [] => .ok []
  | head :: rest =>
    if head = 0xFF then .ok rest
    else
      match h : skipField head rest with
      | .error e => .error e
      | .ok rest => afterOptions rest
termination_by bytes.length
decreasing_by exact Nat.lt_succ_of_le (length_of_skipField h)

/-- The distance or length that a nibble announces, with what follows; `none` if it is cut short
or reserved. -/
def extended? (nibble : UInt8) (bytes : Bytes) : Option (UInt32 × Bytes) :=
  match nibble, bytes with
  | 13, b :: rest => some (b.toUInt32 + 13, rest)
  | 14, hi :: lo :: rest => some (hi.toUInt32 * 256 + lo.toUInt32 + 269, rest)
  | nibble, bytes => if 13 ≤ nibble then none else some (nibble.toUInt32, bytes)

theorem length_of_extended? {nibble : UInt8} {bytes rest : Bytes} {n : UInt32}
    (h : extended? nibble bytes = some (n, rest)) : rest.length ≤ bytes.length := by
  unfold extended? at h
  split at h
  · cases h
    exact Nat.le_succ _
  · cases h
    exact Nat.le_succ_of_le (Nat.le_succ _)
  · split at h
    · cases h
    · cases h
      exact Nat.le_refl _

/-- Read the field at the front of a block; `none` if there is none or it is malformed. The marker
is no field, its nibbles are reserved. -/
def readField? : Bytes → Option (OptionField × Bytes)
  | [] => none
  | head :: rest =>
    match extended? (head / 16) rest with
    | none => none
    | some (distance, rest) =>
      match extended? (head % 16) rest with
      | none => none
      | some (length, rest) =>
        let value := rest.take length.toNat
        if value.length < length.toNat then none
        else some (⟨distance, value⟩, rest.drop length.toNat)

theorem length_of_readField? {bytes rest : Bytes} {field : OptionField}
    (h : readField? bytes = some (field, rest)) : rest.length < bytes.length := by
  unfold readField? at h
  split at h
  · cases h
  · split at h
    · cases h
    · rename_i hd
      have h1 := length_of_extended? hd
      split at h
      · cases h
      · rename_i hl
        have h2 := length_of_extended? hl
        dsimp only at h
        split at h
        · cases h
        · cases h
          simp only [List.length_drop, List.length_cons]
          omega

set_option linter.unusedVariables false in
/-- The fields at the front of a block, and the bytes from where it ends or stops making sense. -/
def readFields (bytes : Bytes) : List OptionField × Bytes :=
  match h : readField? bytes with
  | none => ([], bytes)
  | some (field, rest) =>
    let (fields, rest) := readFields rest
    (field :: fields, rest)
termination_by bytes.length
decreasing_by exact length_of_readField? h

/-- The options at the front of a block. -/
def Options.decode (block : Bytes) : Options := .ofList (numberFields 0 (readFields block).1)

/-- Read a message. Every instance of a repeated option is kept. -/
def Message.parse (bytes : Bytes) : Except WireError Message :=
  match bytes with
  | [] => .error .endOfStream
  | first :: rest =>
    let tokenLength := (first % 16).toNat
    if h : tokenLength ≤ 8 then
      match rest with
      | code :: idHigh :: idLow :: rest =>
        if rest.length < tokenLength then .error .endOfStream
        else
          let block := rest.drop tokenLength
          match afterOptions block with
          | .error e => .error (.option e)
          | .ok payload => .ok {
              kind := .ofBits (first / 16 % 4)
              version := first / 64
              code := .ofByte code
              id := idHigh.toUInt16 * 256 + idLow.toUInt16
              token := ⟨rest.take tokenLength, Nat.le_trans (List.length_take_le _ _) h⟩
              options := .decode block
              payload := payload }
      | _ => .error .endOfStream
    else .error (.tokenLength tokenLength)

/-- The message id in the header of a packet, whatever follows the header. -/
def Message.headerId? : Bytes → Option MessageId
  | _ :: _ :: high :: low :: _ => some (high.toUInt16 * 256 + low.toUInt16)
  | _ => none

end CoapNode
