import CoapNode.Proofs.Network.Origin
import CoapNode.Proofs.Network.Recorded
import CoapNode.Simulation.Node

set_option autoImplicit false

/-! # What arrives is yielded

A transport whose sockets hold queues of packets, with nothing else arriving (`Socket.Holds`), is
polled again and again. What it yields is the packets of the plaintext socket, then the messages
that its channel finds in the records of the other socket (`SecureLink.messages`), each in order,
and from then on nothing. A poll may have to use up records on the way, but only so many as there
are (`Transport.Ends`), and each record is given to the channel once.

One poll takes the first of what is to be yielded and goes on with the rest
(`Transport.Has.ends`); the main result, `Transport.polls_in_order`, follows from it by induction on
the number of polls.
-/

namespace CoapNode

/-- A packet on its way to a socket: its bytes and the address of its sender. -/
abbrev Packet := Bytes × SocketAddress

variable {σ χ ε δ : Type} [Socket σ ε] [SecureChannel χ δ]

/-! ## Sockets that hold a queue -/

/-- **A relation between sockets and queues** that every operation of the socket keeps. Reading
takes the packet that is first in the queue, cut where it is longer than the given number of bytes,
or nothing if there is none; sending changes nothing about the queue. -/
structure Socket.IsQueue (holds : σ → List Packet → Prop) : Prop where
  receive_nil : ∀ {socket : σ} (size : Nat), holds socket [] →
    (Socket.receive socket size).1 = .error .wouldBlock ∧ holds (Socket.receive socket size).2 []
  receive_cons : ∀ {socket : σ} {bytes : Bytes} {address : SocketAddress} {rest : List Packet}
    (size : Nat), holds socket ((bytes, address) :: rest) →
    (Socket.receive socket size).1 = .ok (bytes.take size, address)
      ∧ holds (Socket.receive socket size).2 rest
  send : ∀ {socket : σ} {queue : List Packet} (address : SocketAddress) (bytes : Bytes),
    holds socket queue → holds (Socket.send socket address bytes).2 queue

/-- **A socket holds a queue of packets**, it does not fail to give them, and nothing else arrives,
whatever is read and sent. -/
def Socket.Holds (socket : σ) (queue : List Packet) : Prop :=
  ∃ holds : σ → List Packet → Prop, Socket.IsQueue holds ∧ holds socket queue

namespace Socket.Holds

variable {socket : σ} {queue rest : List Packet} {packet : Packet}

theorem receive_nil (h : Socket.Holds socket []) (size : Nat) :
    ∃ after, Socket.receive socket size = (.error .wouldBlock, after) ∧ Socket.Holds after [] := by
  obtain ⟨holds, hqueue, hholds⟩ := h
  obtain ⟨hresult, hafter⟩ := hqueue.receive_nil size hholds
  exact ⟨_, Prod.ext hresult rfl, holds, hqueue, hafter⟩

/-- A packet for which there is room is given as it is. -/
theorem receive_cons (h : Socket.Holds socket (packet :: rest)) {size : Nat}
    (hfits : packet.1.length ≤ size) :
    Socket.receive socket size = (.ok packet, (Socket.receive socket size).2)
      ∧ Socket.Holds (Socket.receive socket size).2 rest := by
  obtain ⟨holds, hqueue, hholds⟩ := h
  obtain ⟨hresult, hafter⟩ := hqueue.receive_cons size hholds
  rw [List.take_of_length_le hfits] at hresult
  exact ⟨Prod.ext hresult rfl, holds, hqueue, hafter⟩

/-- Nothing arrives while a conversation is held. -/
theorem run {α : Type} (h : Socket.Holds socket queue) (keys : Keystore) (talk : Conversation α) :
    Socket.Holds (talk.run keys socket).value.2 queue := by
  induction talk generalizing socket with
  | done value => exact h
  | send peer record next ih =>
      have hsent : Socket.Holds (Socket.send socket peer.socketAddress record).2 queue := by
        obtain ⟨holds, hqueue, hholds⟩ := h
        exact ⟨holds, hqueue, hqueue.send _ _ hholds⟩
      rw [Conversation.run]
      rcases hanswer : Socket.send socket peer.socketAddress record with ⟨stall | ⟨⟩, after⟩ <;>
        rw [hanswer] at hsent <;> exact ih _ hsent
  | lookup peer request buffer next ih => exact ih _ h

end Socket.Holds

/-! ## What a channel makes of records -/

namespace SecureLink

/-- What the channel makes of the record that its socket gives next, and what is left of channel and
socket. -/
def hear (keys : Keystore) (size : Nat) (link : SecureLink σ χ) (packet : Packet) :
    Except δ (Option Bytes) × SecureLink σ χ :=
  let socket := (Socket.receive link.socket size).2
  let talk := SecureChannel.handleInbound link.channel (.ofAddress packet.2 true) packet.1
  let answer := (talk.run keys socket).value
  (answer.1.1, ⟨answer.2, answer.1.2⟩)

/-- What the channel makes of records, each time in the state that the records before have left it
in. -/
def answers (keys : Keystore) (size : Nat) :
    SecureLink σ χ → List Packet → List (Except δ (Option Bytes))
  | _, [] => []
  | link, packet :: rest =>
    let heard := link.hear keys size packet
    heard.1 :: answers keys size heard.2 rest

/-- The datagram that comes of what a channel makes of a record: none if the record was for the
channel, or was rejected. -/
def message? (peer : Endpoint) : Except δ (Option Bytes) → Option Datagram
  | .ok (some message) => some ⟨peer, message⟩
  | _ => none

/-- **The messages in a queue of records**, with their senders: those that the channel finds, one
after the other. -/
def messages (keys : Keystore) (size : Nat) (link : SecureLink σ χ) (records : List Packet) :
    List Datagram :=
  (records.zip (link.answers keys size records)).filterMap fun (packet, answer) =>
    message? (.ofAddress packet.2 true) answer

theorem messages_cons (keys : Keystore) (size : Nat) (link : SecureLink σ χ) (packet : Packet)
    (rest : List Packet) :
    link.messages keys size (packet :: rest)
      = (message? (.ofAddress packet.2 true) (link.hear keys size packet).1).toList
        ++ (link.hear keys size packet).2.messages keys size rest := by
  rw [messages, answers, List.zip_cons_cons, List.filterMap_cons]
  dsimp only
  cases message? (.ofAddress packet.2 true) (link.hear keys size packet).1 <;> rfl

/-- **A channel is given records**, one after the other, and is left in another state. -/
inductive Hears (keys : Keystore) (size : Nat) : χ → List Packet → χ → Prop where
  | none (channel : χ) : Hears keys size channel [] channel
  | next (link : SecureLink σ χ) (packet : Packet) {rest : List Packet} {last : χ}
      (hrest : Hears keys size (link.hear keys size packet).2.channel rest last) :
      Hears keys size link.channel (packet :: rest) last

theorem Hears.trans {keys : Keystore} {size : Nat} {channel mid last : χ}
    {records more : List Packet} (h : Hears (σ := σ) keys size channel records mid)
    (h' : Hears (σ := σ) keys size mid more last) :
    Hears (σ := σ) keys size channel (records ++ more) last := by
  induction h with
  | none => exact h'
  | next link packet _ ih => exact .next link packet (ih h')

end SecureLink

/-! ## A channel that is watched -/

namespace SecureLink

/-- The link with its channel watched, and what has been written down so far. -/
def watched (link : SecureLink σ χ) (given : List (Endpoint × Bytes)) :
    SecureLink σ (RecordedChannel χ) :=
  ⟨link.socket, { channel := link.channel, given := given }⟩

/-- What is written down of a record. -/
def note (packet : Packet) : Endpoint × Bytes := (.ofAddress packet.2 true, packet.1)

variable {keys : Keystore} {size : Nat} {link : SecureLink σ χ} {given : List (Endpoint × Bytes)}

theorem hear_watched (packet : Packet) :
    (link.watched given).hear keys size packet
      = ((link.hear keys size packet).1,
          (link.hear keys size packet).2.watched (given ++ [note packet])) := by
  simp only [hear, watched, SecureChannel.handleInbound, Conversation.value_run_andThen]
  rfl

theorem answers_watched (records : List Packet) :
    (link.watched given).answers keys size records = link.answers keys size records := by
  induction records generalizing link given with
  | nil => rfl
  | cons packet rest ih => rw [answers, answers, hear_watched, ih]

theorem messages_watched (records : List Packet) :
    (link.watched given).messages keys size records = link.messages keys size records := by
  rw [messages, messages, answers_watched]

theorem given_hear (link : SecureLink σ (RecordedChannel χ)) (packet : Packet) :
    (link.hear keys size packet).2.channel.given = link.channel.given ++ [note packet] := by
  simp only [hear, SecureChannel.handleInbound, Conversation.value_run_andThen]
  rfl

/-- The records that a watched channel is given are written down, each once and in order. -/
theorem Hears.given_eq {watched last : RecordedChannel χ} {records : List Packet}
    (h : Hears (σ := σ) keys size watched records last) :
    last.given = watched.given ++ records.map note := by
  induction h with
  | none => simp
  | next link packet _ ih =>
      rw [ih, given_hear, List.map_cons, List.append_assoc]
      rfl

end SecureLink

namespace Transport

/-! ## One look at the sockets -/

/-- What is queued at the sockets of a transport. -/
structure Queues (σ χ : Type) where
  keystore : Keystore
  bufferSize : Nat
  link : SecureLink σ χ
  /-- The packets on the plaintext socket. -/
  datagrams : List Packet
  /-- The packets on the socket of the channel. -/
  records : List Packet

/-- The datagram that a packet of the plaintext socket is. -/
def plainDatagram (packet : Packet) : Datagram := ⟨.ofAddress packet.2 false, packet.1⟩

/-- **What is to be yielded**: the packets of the plaintext socket, then the messages in the
records. -/
def Queues.surfaced (queues : Queues σ χ) : List Datagram :=
  queues.datagrams.map plainDatagram
    ++ queues.link.messages queues.keystore queues.bufferSize queues.records

/-- **A transport has these queues** at its sockets, with room for each packet in its buffer. -/
structure Has (t : Transport σ χ) (queues : Queues σ χ) : Prop where
  keystore : t.keystore = queues.keystore
  bufferSize : t.bufferSize = queues.bufferSize
  plain : Socket.Holds t.plain queues.datagrams
  secure : t.secure = some queues.link
  records : Socket.Holds queues.link.socket queues.records
  fits : ∀ packet ∈ queues.datagrams ++ queues.records, packet.1.length ≤ queues.bufferSize

variable {t t' : Transport σ χ} {keys : Keystore} {size : Nat} {link : SecureLink σ χ}
  {packet : Packet} {datagrams records : List Packet}

theorem Has.look_datagram (h : t.Has ⟨keys, size, link, packet :: datagrams, records⟩) :
    ∃ t', (pollOnce t).value = (some (.ok (plainDatagram packet)), t')
      ∧ t'.Has ⟨keys, size, link, datagrams, records⟩ := by
  obtain ⟨hfirst, hfits⟩ := List.forall_mem_cons.1 h.fits
  obtain ⟨hreceive, hplain⟩ := h.plain.receive_cons (h.bufferSize ▸ hfirst)
  refine ⟨{ t with plain := (Socket.receive t.plain t.bufferSize).2 }, ?_,
    h.keystore, h.bufferSize, hplain, h.secure, h.records, hfits⟩
  rw [pollOnce, hreceive]
  rfl

/-- Nothing is on the plaintext socket, so the other one is looked at. -/
theorem Has.look_secure (h : t.Has ⟨keys, size, link, [], records⟩) :
    ∃ t', pollOnce t = pollSecure t' ∧ t'.Has ⟨keys, size, link, [], records⟩ := by
  obtain ⟨plain, hreceive, hplain⟩ := h.plain.receive_nil t.bufferSize
  refine ⟨{ t with plain := plain }, ?_,
    h.keystore, h.bufferSize, hplain, h.secure, h.records, h.fits⟩
  rw [pollOnce, hreceive]

theorem Has.look_record (h : t.Has ⟨keys, size, link, [], packet :: records⟩) :
    ∃ t', (pollOnce t).value
        = ((SecureLink.message? (.ofAddress packet.2 true) (link.hear keys size packet).1).map .ok,
          t')
      ∧ t'.Has ⟨keys, size, (link.hear keys size packet).2, [], records⟩ := by
  obtain ⟨t, hlook, h⟩ := h.look_secure
  obtain ⟨hfirst, hfits⟩ := List.forall_mem_cons.1 h.fits
  obtain ⟨hreceive, hsocket⟩ := h.records.receive_cons hfirst
  refine ⟨{ t with secure := some (link.hear keys size packet).2 }, ?_,
    h.keystore, h.bufferSize, h.plain, rfl, hsocket.run _ _, hfits⟩
  rw [hlook, pollSecure, h.secure, h.keystore, h.bufferSize]
  dsimp only
  rw [hreceive]
  simp only [Traced.value_bind]
  unfold SecureLink.hear
  dsimp only
  generalize ((SecureChannel.handleInbound link.channel (.ofAddress packet.2 true) packet.1).run
    keys (Socket.receive link.socket size).2).value = answer
  rcases answer with ⟨⟨e | _ | message, channel⟩, socket⟩ <;> rfl

theorem Has.look_nothing (h : t.Has ⟨keys, size, link, [], []⟩) :
    ∃ t' socket, (pollOnce t).value = (some (.error .wouldBlock), t')
      ∧ t'.Has ⟨keys, size, { link with socket := socket }, [], []⟩ := by
  obtain ⟨t, hlook, h⟩ := h.look_secure
  obtain ⟨socket, hreceive, hsocket⟩ := h.records.receive_nil t.bufferSize
  refine ⟨{ t with secure := some { link with socket := socket } }, socket, ?_,
    h.keystore, h.bufferSize, h.plain, rfl, hsocket, h.fits⟩
  rw [hlook, pollSecure, h.secure]
  dsimp only
  rw [hreceive]
  rfl

/-! ## One poll -/

/-- **A poll ends** after a number of looks at the sockets, of which all but the last one use up a
record. It yields something, and leaves another transport. -/
inductive Ends : Transport σ χ → Nat → Received ε δ → Transport σ χ → Prop where
  | now {t t' : Transport σ χ} {received : Received ε δ}
      (hlook : (pollOnce t).value = (some received, t')) : Ends t 1 received t'
  | later {t t' t'' : Transport σ χ} {looks : Nat} {received : Received ε δ}
      (hlook : (pollOnce t).value = (none, t')) (hrest : Ends t' looks received t'') :
      Ends t (looks + 1) received t''

theorem Ends.value_poll {looks : Nat} {received : Received ε δ} (h : t.Ends looks received t') :
    (poll t).value = (received, t') := by
  induction h with
  | now hlook => exact value_poll_of_some hlook
  | later hlook _ ih => exact (value_poll_of_none hlook).trans ih

/-- What a poll yields if this is what comes next. -/
def yieldOf : Option Datagram → Received ε δ
  | some datagram => .ok datagram
  | none => .error .wouldBlock

/-- **A poll goes on** from these queues to those, and gives the channel these records. -/
structure Queues.Advances (before after : Queues σ χ) (heard : List Packet) : Prop where
  keystore : after.keystore = before.keystore
  bufferSize : after.bufferSize = before.bufferSize
  surfaced : after.surfaced = before.surfaced.tail
  records : before.records = heard ++ after.records
  hears : SecureLink.Hears (σ := σ) before.keystore before.bufferSize before.link.channel heard
    after.link.channel
  drained : before.surfaced = [] → after.records = []

/-- What the next record holds is yielded before the messages of the others. -/
theorem Queues.surfaced_record (keys : Keystore) (size : Nat) (link : SecureLink σ χ)
    (packet : Packet) (records : List Packet) :
    Queues.surfaced ⟨keys, size, link, [], packet :: records⟩
      = (SecureLink.message? (.ofAddress packet.2 true) (link.hear keys size packet).1).toList
        ++ Queues.surfaced ⟨keys, size, (link.hear keys size packet).2, [], records⟩ :=
  link.messages_cons keys size packet records

/-- **One poll takes the first of what is to be yielded**, after at most as many looks as there are
records and one more. -/
theorem Has.ends {before : Queues σ χ} (h : t.Has before) :
    ∃ looks ≤ before.records.length + 1, ∃ t' after heard,
      t.Ends looks (yieldOf before.surfaced.head?) t' ∧ t'.Has after
        ∧ before.Advances after heard := by
  obtain ⟨keys, size, link, datagrams, records⟩ := before
  cases datagrams with
  | cons packet datagrams =>
      obtain ⟨t', hlook, hnext⟩ := h.look_datagram
      exact ⟨1, Nat.le_add_left _ _, t', _, [], .now hlook, hnext, rfl, rfl, rfl, rfl, .none _,
        fun hnone => by simp [Queues.surfaced] at hnone⟩
  | nil =>
      -- by induction on the records: the first one is yielded, or the poll goes on behind it
      induction records generalizing t link with
      | nil =>
          obtain ⟨t', socket, hlook, hnext⟩ := h.look_nothing
          exact ⟨1, Nat.le_refl _, t', _, [], .now hlook, hnext, rfl, rfl, rfl, rfl, .none _,
            fun _ => rfl⟩
      | cons packet records ih =>
          obtain ⟨t', hlook, hnext⟩ := h.look_record
          have hsurfaced := Queues.surfaced_record keys size link packet records
          cases hmessage : SecureLink.message? (.ofAddress packet.2 true)
              (link.hear keys size packet).1 with
          | some datagram =>
              rw [hmessage] at hlook hsurfaced
              rw [hsurfaced]
              exact ⟨1, Nat.le_add_left _ _, t', _, [packet], .now hlook, hnext, rfl, rfl,
                congrArg List.tail hsurfaced.symm, rfl, .next link packet (.none _),
                fun hnone => by cases hsurfaced.symm.trans hnone⟩
          | none =>
              rw [hmessage] at hlook hsurfaced
              obtain ⟨looks, hlooks, t'', after, heard, hends, hafter, hadvances⟩ := ih _ hnext
              rw [hsurfaced]
              exact ⟨looks + 1, Nat.succ_le_succ hlooks, t'', after, packet :: heard,
                .later hlook hends, hafter, hadvances.keystore, hadvances.bufferSize,
                hadvances.surfaced.trans (congrArg List.tail hsurfaced.symm),
                congrArg (packet :: ·) hadvances.records, .next link packet hadvances.hears,
                fun hnone => hadvances.drained (hsurfaced.symm.trans hnone)⟩

/-! ## Many polls -/

/-- The transport after a number of polls. -/
def afterPolls : Nat → Transport σ χ → Transport σ χ
  | 0, t => t
  | n + 1, t => (poll (afterPolls n t)).value.2

/-- **A number of polls** takes as many from the front of what is to be yielded. Once one poll more
than that has come, the channel has been given all records. -/
theorem Has.polls {before : Queues σ χ} (h : t.Has before) (n : Nat) :
    ∃ after heard, (t.afterPolls n).Has after
      ∧ after.keystore = before.keystore ∧ after.bufferSize = before.bufferSize
      ∧ after.surfaced = before.surfaced.drop n
      ∧ before.records = heard ++ after.records
      ∧ SecureLink.Hears (σ := σ) before.keystore before.bufferSize before.link.channel heard
          after.link.channel
      ∧ (before.surfaced.length < n → after.records = []) := by
  induction n with
  | zero =>
      exact ⟨before, [], h, rfl, rfl, rfl, rfl, .none _, fun hlt => absurd hlt (Nat.not_lt_zero _)⟩
  | succ n ih =>
      obtain ⟨mid, heard, hmid, hkeys, hsize, hsurfaced, hrecords, hhears, -⟩ := ih
      obtain ⟨looks, -, t', after, more, hends, hafter, hadvances⟩ := hmid.ends
      have hpoll : t.afterPolls (n + 1) = t' := congrArg Prod.snd hends.value_poll
      have hmore := hadvances.hears
      rw [hkeys, hsize] at hmore
      refine ⟨after, heard ++ more, hpoll ▸ hafter, hadvances.keystore.trans hkeys,
        hadvances.bufferSize.trans hsize, ?_, ?_, hhears.trans hmore, fun hlt => ?_⟩
      · rw [hadvances.surfaced, hsurfaced, List.tail_drop]
      · rw [hrecords, hadvances.records, List.append_assoc]
      · apply hadvances.drained
        rw [hsurfaced]
        exact List.drop_of_length_le (Nat.le_of_lt_succ hlt)

/-- Each poll yields what is in its turn. -/
theorem Has.ends_polls {before : Queues σ χ} (h : t.Has before) (n : Nat) :
    ∃ looks ≤ before.records.length + 1,
      (t.afterPolls n).Ends looks (yieldOf before.surfaced[n]?) (t.afterPolls (n + 1)) := by
  obtain ⟨mid, heard, hmid, -, -, hsurfaced, hrecords, -⟩ := h.polls n
  obtain ⟨looks, hlooks, t', -, -, hends, -⟩ := hmid.ends
  have hpoll : t.afterPolls (n + 1) = t' := congrArg Prod.snd hends.value_poll
  rw [hsurfaced, List.head?_drop] at hends
  rw [hrecords, List.length_append]
  exact ⟨looks, by omega, hpoll ▸ hends⟩

/-- The transport with its channel watched, and nothing written down yet. -/
def watched (t : Transport σ χ) : Transport σ (RecordedChannel χ) :=
  { t with secure := t.secure.map fun link => link.watched [] }

/-- What has been written down of a watched channel. -/
def given (t : Transport σ (RecordedChannel χ)) : List (Endpoint × Bytes) :=
  (t.secure.map fun link => link.channel.given).getD []

theorem Has.watched (h : t.Has ⟨keys, size, link, datagrams, records⟩) :
    t.watched.Has ⟨keys, size, link.watched [], datagrams, records⟩ where
  keystore := h.keystore
  bufferSize := h.bufferSize
  plain := h.plain
  secure := by rw [Transport.watched, h.secure]; rfl
  records := h.records
  fits := h.fits

/-! ## Main result -/

/-- **Nothing is lost, repeated or put in another order.** The sockets of a transport hold queues of
packets, for each of which there is room in the buffer, and nothing else arrives; the channel
behaves in whatever way. Then the transport yields, poll after poll,

* each packet of the plaintext socket, with its sender as a plaintext endpoint;
* after these, each message that the channel finds in a record of the other socket, in the state
  that the records before have left it in, with its sender as a secure endpoint;
* after these, nothing, as often as it is polled.

If the channel is watched, this is the same, and the channel is given the records in order, each
once, and none is left as soon as a poll has yielded nothing. Each poll ends, after no more looks
at the sockets than there are records and one more. -/
theorem polls_in_order (hplain : Socket.Holds t.plain datagrams) (hsecure : t.secure = some link)
    (hrecords : Socket.Holds link.socket records)
    (hfits : ∀ packet ∈ datagrams ++ records, packet.1.length ≤ t.bufferSize) :
    let surfaced := datagrams.map (fun packet => ⟨.ofAddress packet.2 false, packet.1⟩)
      ++ link.messages t.keystore t.bufferSize records
    let notes : List (Endpoint × Bytes) :=
      records.map fun packet => (.ofAddress packet.2 true, packet.1)
    (∀ n, (poll (t.afterPolls n)).value.1 = yieldOf surfaced[n]?)
      ∧ (∀ n, (poll (t.watched.afterPolls n)).value.1 = yieldOf surfaced[n]?)
      ∧ (∀ n, (t.watched.afterPolls n).given <+: notes)
      ∧ (∀ n, surfaced.length < n → (t.watched.afterPolls n).given = notes)
      ∧ ∀ n, ∃ looks ≤ records.length + 1,
          (t.afterPolls n).Ends looks (yieldOf surfaced[n]?) (t.afterPolls (n + 1)) := by
  intro surfaced notes
  have hhas : t.Has ⟨t.keystore, t.bufferSize, link, datagrams, records⟩ :=
    ⟨rfl, rfl, hplain, hsecure, hrecords, hfits⟩
  have hwatched := hhas.watched
  have hsurfaced : Queues.surfaced
      ⟨t.keystore, t.bufferSize, link.watched [], datagrams, records⟩ = surfaced :=
    congrArg (datagrams.map plainDatagram ++ ·) (SecureLink.messages_watched records)
  have hgiven (n : Nat) : ∃ heard rest, records = heard ++ rest
      ∧ (t.watched.afterPolls n).given = heard.map SecureLink.note
      ∧ (surfaced.length < n → rest = []) := by
    obtain ⟨after, heard, hafter, -, -, -, hsplit, hhears, hdrained⟩ := hwatched.polls n
    have hnotes := hhears.given_eq
    rw [hsurfaced] at hdrained
    refine ⟨heard, after.records, hsplit, ?_, hdrained⟩
    rw [given, hafter.secure]
    exact hnotes
  refine ⟨fun n => ?_, fun n => ?_, fun n => ?_, fun n hlt => ?_, hhas.ends_polls⟩
  · obtain ⟨looks, -, hends⟩ := hhas.ends_polls n
    exact congrArg Prod.fst hends.value_poll
  · obtain ⟨looks, -, hends⟩ := hwatched.ends_polls n
    rw [hsurfaced] at hends
    exact congrArg Prod.fst hends.value_poll
  · obtain ⟨heard, rest, hsplit, hnotes, -⟩ := hgiven n
    rw [hnotes]
    exact ⟨rest.map SecureLink.note, by rw [← List.map_append, ← hsplit]; rfl⟩
  · obtain ⟨heard, rest, hsplit, hnotes, hdrained⟩ := hgiven n
    rw [hdrained hlt, List.append_nil] at hsplit
    rw [hnotes, ← hsplit]
    rfl

/-! ## Sockets in memory -/

section

open Simulation

/-- A socket in memory works, provokes no answers, and has these packets in its inbox. -/
structure Filled (socket : MemorySocket) (queue : List Packet) : Prop where
  jammed : socket.jammed = false
  script : socket.script = []
  inbox : socket.inbox = queue.map fun packet => .datagram packet.1 packet.2

theorem isQueue_filled : Socket.IsQueue Filled where
  receive_nil {socket} size h := by
    have hreceive : Socket.receive socket size = (.error .wouldBlock, socket) := by
      rw [MemorySocket.receive_eq, MemorySocket.next, h.jammed, h.inbox]
      rfl
    rw [hreceive]
    exact ⟨rfl, h⟩
  receive_cons {socket bytes address rest} size h := by
    have hreceive : Socket.receive socket size = (.ok (bytes.take size, address),
        { socket with inbox := rest.map fun packet => .datagram packet.1 packet.2 }) := by
      rw [MemorySocket.receive_eq, MemorySocket.next, h.jammed, h.inbox]
      rfl
    rw [hreceive]
    exact ⟨rfl, h.jammed, h.script, rfl⟩
  send {socket queue} address bytes h := by
    have haccept : Filled (socket.accept address bytes) queue := by
      rw [MemorySocket.accept, h.script]
      exact ⟨rfl, rfl, (List.append_nil _).trans h.inbox⟩
    show Filled (socket.send address bytes).2 queue
    rw [MemorySocket.send, h.jammed]
    cases socket.mode with
    | works => exact haccept
    | blocks | fails => exact h

/-- **The inbox of a socket in memory** is a queue that it holds. -/
theorem Filled.holds {socket : MemorySocket} {queue : List Packet} (h : Filled socket queue) :
    Socket.Holds socket queue :=
  ⟨Filled, isQueue_filled, h⟩

/-- Two peers. -/
def samplePeers : SocketAddress × SocketAddress :=
  (.v6 ⟨0xFE80, 0, 0, 0, 0, 0, 0, 2⟩ 5683 0 0, .v4 ⟨10, 0, 0, 3⟩ 5684)

/-- Packets of the first peer, one of them sent twice, and an empty one of the second peer. -/
def sampleDatagrams : List Packet :=
  [(Utf8.ofString "a", samplePeers.1), ([], samplePeers.2), (Utf8.ofString "a", samplePeers.1)]

/-- Records: one that cannot be read, a greeting, a message, an identity without a key, and the
message again, from the other peer. -/
def sampleRecords : List Packet :=
  [(Utf8.ofString "?", samplePeers.1), (OpenChannel.greeting, samplePeers.2),
    (Utf8.ofString "enc:b", samplePeers.2), (Utf8.ofString "id:c", samplePeers.1),
    (Utf8.ofString "enc:b", samplePeers.1)]

/-- A socket in memory with packets in its inbox. -/
def sampleSocket (queue : List Packet) : MemorySocket :=
  { MemoryTransport.hostSocket 5683 with
    inbox := queue.map fun packet => .datagram packet.1 packet.2 }

/-- A transport with these packets and records, and room for ten bytes. -/
def sampleLoaded : MemoryTransport :=
  (Transport.new (sampleSocket sampleDatagrams) {} 10).withSecure (sampleSocket sampleRecords)
    ⟨.greeting, false, []⟩

theorem polls_in_order_sampleLoaded :
    Socket.Holds sampleLoaded.plain sampleDatagrams
      ∧ Socket.Holds (sampleSocket sampleRecords) sampleRecords
      ∧ (∀ packet ∈ sampleDatagrams ++ sampleRecords, packet.1.length ≤ sampleLoaded.bufferSize)
      ∧ (List.range 6).map (fun n => (poll (sampleLoaded.afterPolls n)).value.1)
        = [.ok ⟨.ofAddress samplePeers.1 false, Utf8.ofString "a"⟩,
          .ok ⟨.ofAddress samplePeers.2 false, []⟩,
          .ok ⟨.ofAddress samplePeers.1 false, Utf8.ofString "a"⟩,
          .ok ⟨.ofAddress samplePeers.2 true, Utf8.ofString "b"⟩,
          .ok ⟨.ofAddress samplePeers.1 true, Utf8.ofString "b"⟩,
          .error .wouldBlock]
      ∧ (sampleLoaded.watched.afterPolls 6).given
        = sampleRecords.map fun packet => (.ofAddress packet.2 true, packet.1) := by
  have hplain : Socket.Holds sampleLoaded.plain sampleDatagrams :=
    Filled.holds ⟨rfl, rfl, rfl⟩
  have hrecords : Socket.Holds (sampleSocket sampleRecords) sampleRecords :=
    Filled.holds ⟨rfl, rfl, rfl⟩
  have hfits : ∀ packet ∈ sampleDatagrams ++ sampleRecords,
      packet.1.length ≤ sampleLoaded.bufferSize := by decide +kernel
  obtain ⟨hyields, -, -, hgiven, -⟩ := polls_in_order hplain rfl hrecords hfits
  refine ⟨hplain, hrecords, hfits, ?_, hgiven 6 (by decide +kernel)⟩
  simp only [hyields]
  rfl

end

end Transport

end CoapNode
