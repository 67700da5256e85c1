import CoapNode.Message.Wire
import CoapNode.Network.Socket

set_option autoImplicit false

/-! # Sockets in memory

A socket whose traffic stays in memory: what it receives is queued beforehand, or provoked by what
is sent through it, and what is sent is kept.
-/

namespace CoapNode.Simulation

/-- What goes wrong with a socket. -/
inductive SocketFault where
  | receive
  | send
  | bind
deriving DecidableEq, Repr

/-- The name of a fault. -/
def SocketFault.text : SocketFault → String
  | .receive => "Recv"
  | .send => "Send"
  | .bind => "Bind"

/-- What the next attempt to receive comes upon. -/
inductive Arrival where
  | datagram (bytes : Bytes) (sender : SocketAddress)
  /-- A failure. -/
  | fault
  /-- Nothing, whatever is queued behind it. -/
  | pause
deriving DecidableEq, Repr

/-- What becomes of attempts to send. -/
inductive SendMode where
  | works
  | blocks
  | fails
deriving DecidableEq, Repr

/-- A message that a peer sends in answer to a packet. It takes over the id and the token of the
packet unless it has its own. -/
structure Answer where
  message : Message
  ownId : Bool
  ownToken : Bool
deriving DecidableEq, Repr

/-- The token behind the header of a packet, if all of it is there. What follows it need not make
sense. -/
def headerToken? : Bytes → Option Token
  | first :: _ :: _ :: _ :: rest =>
    let length := (first % 16).toNat
    if rest.length < length then none else Token.ofBytes? (rest.take length)
  | _ => none

/-- The bytes of an answer to a packet, if the packet has what the answer takes over. -/
def Answer.bytes? (answer : Answer) (packet : Bytes) : Option Bytes := do
  let id ← if answer.ownId then some answer.message.id else Message.headerId? packet
  let token ← if answer.ownToken then some answer.message.token else headerToken? packet
  some { answer.message with id := id, token := token }.encode

/-- A socket in memory. -/
structure MemorySocket where
  address : SocketAddress
  inbox : List Arrival := []
  mode : SendMode := .works
  /-- The answers that each successful attempt to send provokes. -/
  script : List (List Answer) := []
  sent : List (SocketAddress × Bytes) := []
  /-- Whether there was a packet that an answer could not be made for. From then on everything
  fails. -/
  jammed : Bool := false
deriving DecidableEq, Repr

namespace MemorySocket

/-- Queue something to come upon. -/
def enqueue (socket : MemorySocket) (arrival : Arrival) : MemorySocket :=
  { socket with inbox := socket.inbox ++ [arrival] }

/-- Take what is first in the queue. -/
def next (socket : MemorySocket) :
    Except (Stall SocketFault) (Bytes × SocketAddress) × MemorySocket :=
  if socket.jammed then (.error (.failed .receive), socket)
  else
    match socket.inbox with
    | [] => (.error .wouldBlock, socket)
    | .datagram bytes sender :: rest => (.ok (bytes, sender), { socket with inbox := rest })
    | .fault :: rest => (.error (.failed .receive), { socket with inbox := rest })
    | .pause :: rest => (.error .wouldBlock, { socket with inbox := rest })

/-- Keep a packet, and queue the answers that it provokes. -/
def accept (socket : MemorySocket) (peer : SocketAddress) (packet : Bytes) : MemorySocket :=
  let answers := (socket.script.head?.getD []).map (·.bytes? packet)
  { socket with
    inbox := socket.inbox ++ answers.filterMap fun bytes => bytes.map (.datagram · peer)
    script := socket.script.tail
    sent := socket.sent ++ [(peer, packet)]
    jammed := answers.contains none }

/-- Send a packet. -/
def send (socket : MemorySocket) (peer : SocketAddress) (packet : Bytes) :
    Except (Stall SocketFault) Unit × MemorySocket :=
  if socket.jammed then (.error (.failed .send), socket)
  else
    match socket.mode with
    | .works => (.ok (), socket.accept peer packet)
    | .blocks => (.error .wouldBlock, socket)
    | .fails => (.error (.failed .send), socket)

/-- What is queued, and what may still be provoked. -/
def backlog (socket : MemorySocket) : Nat :=
  socket.inbox.length + socket.script.flatten.length

theorem backlog_accept_le (socket : MemorySocket) (peer : SocketAddress) (packet : Bytes) :
    (socket.accept peer packet).backlog ≤ socket.backlog := by
  have hqueued (answers : List (Option Bytes)) :
      (answers.filterMap fun bytes => bytes.map (Arrival.datagram · peer)).length ≤
        answers.length := List.length_filterMap_le _ _
  cases hs : socket.script with
  | nil => simp [accept, backlog, hs]
  | cons answers rest =>
    have h := hqueued (answers.map (·.bytes? packet))
    simp only [accept, backlog, hs, List.head?_cons, Option.getD_some, List.tail_cons,
      List.length_append, List.length_map, List.flatten_cons] at h ⊢
    omega

theorem backlog_next_le (socket : MemorySocket) : socket.next.2.backlog ≤ socket.backlog := by
  unfold next
  split
  · exact Nat.le_refl _
  · split
    · exact Nat.le_refl _
    all_goals
      rename_i heq
      simp [backlog, heq]

theorem backlog_next_lt (socket : MemorySocket) {datagram : Bytes × SocketAddress}
    (h : socket.next.1 = .ok datagram) : socket.next.2.backlog < socket.backlog := by
  unfold next at h ⊢
  split
  · simp_all
  · split <;> simp_all [backlog]

theorem backlog_send_le (socket : MemorySocket) (peer : SocketAddress) (packet : Bytes) :
    (socket.send peer packet).2.backlog ≤ socket.backlog := by
  unfold send
  split
  · exact Nat.le_refl _
  · split
    · exact backlog_accept_le socket peer packet
    · exact Nat.le_refl _
    · exact Nat.le_refl _

end MemorySocket

instance : Socket MemorySocket SocketFault where
  localAddress socket := socket.address
  receiveInto socket buffer :=
    let (result, buffer) := fillFront socket.next.1 buffer
    (result, buffer, socket.next.2)
  send := MemorySocket.send
  errorText := SocketFault.text
  backlog := MemorySocket.backlog
  length_receiveInto socket := length_fillFront socket.next.1
  receiveInto_le socket buffer _ _ := fillFront_le socket.next.1 buffer
  readFront_receiveInto socket buffer buffer' h := by
    rw [readFront_fillFront, readFront_fillFront, h]
  backlog_receiveInto_lt socket buffer datagram h :=
    let ⟨_, hnext⟩ := exists_of_fillFront_ok h
    socket.backlog_next_lt hnext
  backlog_receiveInto_le socket _ := socket.backlog_next_le
  backlog_send_le := MemorySocket.backlog_send_le

/-- The socket yields what is first in its queue, cut to a number of bytes. -/
theorem MemorySocket.receive_eq (socket : MemorySocket) (size : Nat) :
    Socket.receive socket size
      = (socket.next.1.map fun (bytes, sender) => (bytes.take size, sender), socket.next.2) :=
  readFront_fillFront_replicate _ _ _

end CoapNode.Simulation
