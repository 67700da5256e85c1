import CoapNode.Message.Wire

set_option autoImplicit false

/-! # Message headers

The four bytes that a packet begins with hold the kind of the message, the length of its token, its
code and its id, and the token follows them. Writing a message and reading it again keeps the kind,
the id and the token of every message (`Message.header_parse_encode`), whatever becomes of its
options. The id can also be read from a packet on its own (`Message.headerId?`), which tells apart
the packets of different requests.
-/

namespace CoapNode.Message

variable {msg parsed : Message} {first code high low : UInt8} {rest : Bytes}

/-- What stands behind the header of a message. -/
def body (msg : Message) : Bytes :=
  msg.token.bytes ++ (msg.options.encode ++ encodePayload msg.payload)

/-- The byte that a packet begins with. -/
def firstByte (msg : Message) : UInt8 :=
  msg.version * 64 + msg.kind.bits * 16 + UInt8.ofNat msg.token.bytes.length

theorem encode_eq_header (msg : Message) :
    msg.encode = msg.firstByte :: msg.code.toByte :: (msg.id / 256).toUInt8 :: msg.id.toUInt8
      :: msg.body := by
  rw [encode, body, firstByte, List.append_assoc, List.append_assoc]
  rfl

/-- An id is put together again from its two bytes. -/
theorem id_of_bytes (id : MessageId) :
    (id / 256).toUInt8.toUInt16 * 256 + id.toUInt8.toUInt16 = id := by
  apply UInt16.toNat_inj.1
  have hlt := id.toNat_lt
  simp only [UInt16.toNat_add, UInt16.toNat_mul, UInt8.toNat_toUInt16, UInt16.toNat_toUInt8,
    UInt16.toNat_div, UInt16.reduceToNat]
  omega

@[simp] theorem headerId?_encode (msg : Message) : headerId? msg.encode = some msg.id := by
  rw [encode_eq_header, headerId?, id_of_bytes]

/-- The first byte holds the length of the token, whatever the version is. -/
theorem tokenLength_firstByte (msg : Message) :
    (msg.firstByte % 16).toNat = msg.token.bytes.length := by
  have hlength := msg.token.length_le
  simp only [firstByte, UInt8.toNat_mod, UInt8.toNat_add, UInt8.toNat_mul, UInt8.toNat_ofNat',
    UInt8.reduceToNat]
  omega

/-- The first byte holds the kind, whatever the version is. -/
theorem kind_firstByte (msg : Message) : Kind.ofBits (msg.firstByte / 16 % 4) = msg.kind := by
  have hbits : msg.firstByte / 16 % 4 = msg.kind.bits := by
    have hlength := msg.token.length_le
    apply UInt8.toNat_inj.1
    simp only [firstByte, UInt8.toNat_mod, UInt8.toNat_div, UInt8.toNat_add, UInt8.toNat_mul,
      UInt8.toNat_ofNat', UInt8.reduceToNat]
    cases msg.kind <;> simp only [Kind.bits, UInt8.reduceToNat] <;> omega
  rw [hbits]
  cases msg.kind <;> rfl

/-- What reading takes from the header, and from the bytes behind it for the token. -/
theorem parse_header (h : parse (first :: code :: high :: low :: rest) = .ok parsed) :
    parsed.kind = .ofBits (first / 16 % 4) ∧ parsed.code = .ofByte code
      ∧ parsed.id = high.toUInt16 * 256 + low.toUInt16
      ∧ parsed.token.bytes = rest.take (first % 16).toNat := by
  simp only [parse] at h
  split at h
  · split at h
    · cases h
    · split at h
      · cases h
      · obtain rfl := Except.ok.inj h
        exact ⟨rfl, rfl, rfl, rfl⟩
  · cases h

/-- What can be read has a header. -/
theorem exists_header_of_parse {bytes : Bytes} (h : parse bytes = .ok parsed) :
    ∃ first code high low rest, bytes = first :: code :: high :: low :: rest := by
  match bytes with
  | first :: code :: high :: low :: rest => exact ⟨first, code, high, low, rest, rfl⟩
  | [] => cases h
  | [_] | [_, _] | [_, _, _] =>
    simp only [parse] at h
    split at h <;> cases h

/-- **The header survives.** If the packet of a message can be read, what is read has the kind, the
id and the token of the message. -/
theorem header_parse_encode (h : parse msg.encode = .ok parsed) :
    parsed.kind = msg.kind ∧ parsed.id = msg.id ∧ parsed.token = msg.token := by
  rw [encode_eq_header] at h
  obtain ⟨hkind, -, hid, htoken⟩ := parse_header h
  refine ⟨hkind.trans (kind_firstByte msg), hid.trans (id_of_bytes msg.id), ?_⟩
  have hbytes : parsed.token.bytes = msg.token.bytes := by
    rw [htoken, tokenLength_firstByte, body, List.take_left]
  cases htoken' : parsed.token
  cases hmsg : msg.token
  simpa [htoken', hmsg] using hbytes

end CoapNode.Message
