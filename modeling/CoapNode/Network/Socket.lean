import CoapNode.Address.Printer
import CoapNode.Bytes

set_option autoImplicit false

/-! # Sockets

A node sends and receives datagrams through sockets that never make it wait: an operation that
cannot be done right now says so. A socket receives into a buffer, and the datagram is read from the
front of that. What the buffer held before makes no difference (`Socket.receive_eq`), so one buffer
may serve for all that is received.
-/

namespace CoapNode

/-- Why an operation that does not wait gave nothing: there is nothing to be had right now, or it
failed. -/
inductive Stall (ε : Type) where
  | wouldBlock
  | failed (e : ε)
deriving DecidableEq, Repr

namespace Stall

variable {ε δ : Type}

/-- Apply a function to the error. -/
def map (f : ε → δ) : Stall ε → Stall δ
  | .wouldBlock => .wouldBlock
  | .failed e => .failed (f e)

/-- A stall as text, given the text of errors. -/
def text (errorText : ε → String) : Stall ε → String
  | .wouldBlock => "WouldBlock"
  | .failed e => errorText e

end Stall

/-- What there is to read at the front of a buffer, after an attempt to receive into it. -/
def readFront {σ ε : Type} :
    Except (Stall ε) (Nat × SocketAddress) × Bytes × σ →
      Except (Stall ε) (Bytes × SocketAddress) × σ
  | (result, buffer, socket) =>
    (result.map fun (length, sender) => (buffer.take length, sender), socket)

/-- A socket for datagrams. Its backlog bounds how many datagrams can be received from it before
something happens outside the node; that sending adds nothing to it is what makes reading a socket
empty come to an end. -/
class Socket (σ : Type) (ε : outParam Type) where
  localAddress : σ → SocketAddress
  /-- Take a datagram, and write it to the front of a buffer; yields how many bytes these are, and
  the sender. What the buffer has no room for is dropped. -/
  receiveInto : σ → Bytes → Except (Stall ε) (Nat × SocketAddress) × Bytes × σ
  send : σ → SocketAddress → Bytes → Except (Stall ε) Unit × σ
  errorText : ε → String
  backlog : σ → Nat
  /-- The buffer stays as long as it is. -/
  length_receiveInto : ∀ socket buffer, (receiveInto socket buffer).2.1.length = buffer.length
  /-- No more bytes are announced than there are in the buffer. -/
  receiveInto_le : ∀ socket buffer length sender,
    (receiveInto socket buffer).1 = .ok (length, sender) → length ≤ buffer.length
  /-- Nothing of what was in the buffer before is to be read. -/
  readFront_receiveInto : ∀ socket buffer buffer', buffer.length = buffer'.length →
    readFront (receiveInto socket buffer) = readFront (receiveInto socket buffer')
  backlog_receiveInto_lt : ∀ socket buffer datagram, (receiveInto socket buffer).1 = .ok datagram →
    backlog (receiveInto socket buffer).2.2 < backlog socket
  backlog_receiveInto_le : ∀ socket buffer,
    backlog (receiveInto socket buffer).2.2 ≤ backlog socket
  backlog_send_le : ∀ socket address bytes, backlog (send socket address bytes).2 ≤ backlog socket

namespace Socket

variable {σ ε : Type} [Socket σ ε]

/-- Take a datagram with its sender, by way of a buffer with room for a number of bytes. -/
def receive (socket : σ) (size : Nat) : Except (Stall ε) (Bytes × SocketAddress) × σ :=
  readFront (receiveInto socket (List.replicate size 0))

/-- **What is received does not depend on the buffer**, but for its length. -/
theorem receive_eq (socket : σ) (buffer : Bytes) :
    receive socket buffer.length = readFront (receiveInto socket buffer) :=
  readFront_receiveInto socket _ buffer List.length_replicate

/-- **A buffer that has been received into** still serves: what is announced the next time is what
there is to read at its front, whatever else is left in it. -/
theorem receive_of_receiveInto {σ' ε' : Type} [Socket σ' ε'] {socket socket' : σ} {before : σ'}
    {buffer buffer' : Bytes} {length : Nat} {sender : SocketAddress}
    (h : receiveInto socket (receiveInto before buffer).2.1
      = (.ok (length, sender), buffer', socket')) :
    receive socket buffer.length = (.ok (buffer'.take length, sender), socket')
      ∧ (buffer'.take length).length = length := by
  have hsame := length_receiveInto before buffer
  have hlength := length_receiveInto socket (receiveInto before buffer).2.1
  have hle := receiveInto_le socket _ length sender (congrArg Prod.fst h)
  rw [h] at hlength
  refine ⟨?_, List.length_take_of_le (hlength ▸ hle)⟩
  rw [← hsame, receive_eq, h]
  rfl

theorem backlog_receive_lt (socket : σ) (size : Nat) (datagram : Bytes × SocketAddress)
    (h : (receive socket size).1 = .ok datagram) :
    backlog (receive socket size).2 < backlog socket := by
  have hread : (receiveInto socket (List.replicate size 0)).1.map _ = .ok datagram := h
  cases hresult : (receiveInto socket (List.replicate size 0)).1 with
  | error stall =>
      rw [hresult] at hread
      cases hread
  | ok announced => exact backlog_receiveInto_lt socket _ announced hresult

theorem backlog_receive_le (socket : σ) (size : Nat) :
    backlog (receive socket size).2 ≤ backlog socket :=
  backlog_receiveInto_le socket _

end Socket

/-! ## Sockets that hold datagrams -/

/-- What a socket makes of a buffer if it has a datagram: the datagram is written to the front, as
far as there is room. -/
def fillFront {ε : Type} (next : Except (Stall ε) (Bytes × SocketAddress)) (buffer : Bytes) :
    Except (Stall ε) (Nat × SocketAddress) × Bytes :=
  match next with
  | .error stall => (.error stall, buffer)
  | .ok (bytes, sender) =>
    let part := bytes.take buffer.length
    (.ok (part.length, sender), part ++ buffer.drop part.length)

section

variable {σ ε : Type} (next : Except (Stall ε) (Bytes × SocketAddress)) (buffer : Bytes)

theorem length_fillFront : (fillFront next buffer).2.length = buffer.length := by
  cases next with
  | error stall => rfl
  | ok datagram =>
      simp only [fillFront, List.length_append, List.length_take, List.length_drop]
      omega

theorem fillFront_le {length : Nat} {sender : SocketAddress}
    (h : (fillFront next buffer).1 = .ok (length, sender)) : length ≤ buffer.length := by
  cases next with
  | error stall => cases h
  | ok datagram =>
      obtain ⟨rfl, -⟩ := Prod.mk.inj (Except.ok.inj h)
      exact Nat.le_trans (Nat.le_of_eq List.length_take) (Nat.min_le_left _ _)

theorem exists_of_fillFront_ok {next : Except (Stall ε) (Bytes × SocketAddress)} {buffer : Bytes}
    {announced : Nat × SocketAddress} (h : (fillFront next buffer).1 = .ok announced) :
    ∃ datagram, next = .ok datagram := by
  cases next with
  | error stall => cases h
  | ok datagram => exact ⟨datagram, rfl⟩

/-- The datagram is to be read, as far as there was room, and nothing else. -/
theorem readFront_fillFront (socket : σ) :
    readFront ((fillFront next buffer).1, (fillFront next buffer).2, socket)
      = (next.map fun (bytes, sender) => (bytes.take buffer.length, sender), socket) := by
  cases next with
  | error stall => rfl
  | ok datagram =>
      show (Except.ok (List.take _ (_ ++ _), _), socket) = _
      rw [List.take_left]
      rfl

theorem readFront_fillFront_replicate (size : Nat) (socket : σ) :
    readFront ((fillFront next (List.replicate size 0)).1,
        (fillFront next (List.replicate size 0)).2, socket)
      = (next.map fun (bytes, sender) => (bytes.take size, sender), socket) := by
  rw [readFront_fillFront, List.length_replicate]

end

end CoapNode
