import CoapNode.Network.Inbound
import CoapNode.Proofs.Network.Delivered

set_option autoImplicit false

/-! # What is handed to sockets and channels

Any socket can be watched by a recorder that keeps what it is asked to send (`Recorded`), and any
channel by one that keeps what it is asked to write and the records that it is given
(`RecordedChannel`). The recorders change nothing else: what is received, what fails and what the
channel says to its peers is up to the socket and the channel behind them.

The transport hands the messages for plaintext endpoints to the plaintext socket, at the addresses
of the endpoints, the messages for secure endpoints to the channel, and nothing else to either of
them (`Transport.Handed`). One lemma for each function of the transport says so, whether or not sockets
and channel do what they are asked.
-/

namespace CoapNode

/-! ## Recorders -/

/-- A socket and what it has been asked to send. -/
structure Recorded (σ : Type) where
  socket : σ
  sent : List (SocketAddress × Bytes)

/-- A secure channel, what it has been asked to write, and the records that it has been given, with
the endpoints they came from. -/
structure RecordedChannel (χ : Type) where
  channel : χ
  written : List Delivery := []
  given : List (Endpoint × Bytes) := []

section

variable {σ χ ε δ : Type} [Socket σ ε] [SecureChannel χ δ]

instance : Socket (Recorded σ) ε where
  localAddress recorded := Socket.localAddress recorded.socket
  receiveInto recorded buffer :=
    let (result, buffer, socket) := Socket.receiveInto recorded.socket buffer
    (result, buffer, { recorded with socket := socket })
  send recorded address bytes :=
    let (result, socket) := Socket.send recorded.socket address bytes
    (result, ⟨socket, recorded.sent ++ [(address, bytes)]⟩)
  errorText := Socket.errorText σ
  backlog recorded := Socket.backlog recorded.socket
  length_receiveInto recorded := Socket.length_receiveInto recorded.socket
  receiveInto_le recorded := Socket.receiveInto_le recorded.socket
  readFront_receiveInto recorded buffer buffer' h :=
    congrArg (Prod.map id fun socket => Recorded.mk socket recorded.sent)
      (Socket.readFront_receiveInto recorded.socket buffer buffer' h)
  backlog_receiveInto_lt recorded := Socket.backlog_receiveInto_lt recorded.socket
  backlog_receiveInto_le recorded := Socket.backlog_receiveInto_le recorded.socket
  backlog_send_le recorded := Socket.backlog_send_le recorded.socket

/-- Go on with what a channel yields, next to the same record. -/
def RecordedChannel.keep {α : Type} (recorded : RecordedChannel χ) (answer : α × χ) :
    Conversation (α × RecordedChannel χ) :=
  .done (answer.1, { recorded with channel := answer.2 })

instance : SecureChannel (RecordedChannel χ) δ where
  connect recorded peer := (SecureChannel.connect recorded.channel peer).andThen recorded.keep
  disconnect recorded peer :=
    (SecureChannel.disconnect recorded.channel peer).andThen fun channel =>
      .done { recorded with channel := channel }
  handleInbound recorded peer record :=
    (SecureChannel.handleInbound recorded.channel peer record).andThen
      { recorded with given := recorded.given ++ [(peer, record)] }.keep
  write recorded peer bytes :=
    (SecureChannel.write recorded.channel peer bytes).andThen
      { recorded with written := recorded.written ++ [(peer, bytes)] }.keep
  isConnected recorded := SecureChannel.isConnected recorded.channel
  errorText := SecureChannel.errorText χ

/-! ## Conversations -/

/-- A conversation that goes on with another one is held by holding one after the other. -/
theorem Conversation.value_run_andThen {α β : Type} (keys : Keystore) (f : α → Conversation β)
    (talk : Conversation α) (socket : σ) :
    ((talk.andThen f).run keys socket).value
      = ((f (talk.run keys socket).value.1).run keys (talk.run keys socket).value.2).value := by
  induction talk generalizing socket with
  | done value => rfl
  | send peer record next ih =>
      rw [andThen, run, run]
      rcases Socket.send socket peer.socketAddress record with ⟨_ | _, after⟩ <;> exact ih _ _
  | lookup peer request buffer next ih => exact ih _ _

/-- **However a conversation goes**, it leaves a channel with the given record. -/
def Conversation.Leaves {α : Type} (talk : Conversation (α × RecordedChannel χ))
    (written : List Delivery) : Prop :=
  ∀ (keys : Keystore) (socket : Recorded σ), (talk.run keys socket).value.1.2.written = written

theorem RecordedChannel.leaves_keep {α : Type} (recorded : RecordedChannel χ)
    (talk : Conversation (α × χ)) :
    (talk.andThen recorded.keep).Leaves (σ := σ) recorded.written := by
  intro keys socket
  rw [Conversation.value_run_andThen]
  rfl

theorem RecordedChannel.leaves_disconnect (recorded : RecordedChannel χ) (peer : Endpoint) :
    ((SecureChannel.disconnect recorded peer).andThen fun channel => .done ((), channel)).Leaves
      (σ := σ) recorded.written := by
  intro keys socket
  have hinner := Conversation.value_run_andThen keys
    (fun channel => .done { recorded with channel := channel })
    (SecureChannel.disconnect recorded.channel peer) socket
  rw [Conversation.value_run_andThen]
  exact congrArg (fun answer => answer.1.written) hinner

end

/-! ## The transport -/

namespace Transport

variable {σ χ ε δ : Type} [Socket σ ε] [SecureChannel χ δ]

/-- What the channel of a transport has been asked to write, if there is a channel. -/
def written (t : Transport (Recorded σ) (RecordedChannel χ)) : Option (List Delivery) :=
  t.secure.map (·.channel.written)

theorem written_of_secure {t : Transport (Recorded σ) (RecordedChannel χ)}
    {link : SecureLink (Recorded σ) (RecordedChannel χ)} (h : t.secure = some link) :
    t.written = some link.channel.written := by
  rw [written, h]
  rfl

/-- **Messages are handed over** on the way from one transport to the other: those for plaintext
endpoints to the plaintext socket, with the addresses of the endpoints, and those for secure
endpoints to the channel, if there is one. Nothing else is. -/
structure Handed (before after : Transport (Recorded σ) (RecordedChannel χ))
    (messages : List Delivery) : Prop where
  plain : after.plain.sent = before.plain.sent
    ++ (messages.filter fun message => !message.1.secure).map
      fun message => (message.1.socketAddress, message.2)
  secure : after.written = before.written.map (· ++ messages.filter fun message => message.1.secure)

variable {t mid after : Transport (Recorded σ) (RecordedChannel χ)} {messages more : List Delivery}

/-- Nothing has been handed over if nothing has been recorded. -/
theorem Handed.of_eq (hplain : after.plain.sent = t.plain.sent)
    (hsecure : after.written = t.written) : t.Handed after [] where
  plain := by simpa using hplain
  secure := by simpa using hsecure

theorem Handed.trans (h : t.Handed mid messages) (h' : mid.Handed after more) :
    t.Handed after (messages ++ more) where
  plain := by rw [h'.plain, h.plain, List.filter_append, List.map_append, List.append_assoc]
  secure := by
    rw [h'.secure, h.secure, Option.map_map, List.filter_append]
    congr 1
    funext written
    exact (List.append_assoc ..)

/-! ## Receiving -/

theorem handed_pollSecure (t : Transport (Recorded σ) (RecordedChannel χ)) :
    t.Handed (pollSecure t).value.2 [] := by
  unfold pollSecure
  split
  · exact .of_eq rfl rfl
  · next link hlink =>
      have hwritten := written_of_secure hlink
      split
      · exact .of_eq rfl hwritten.symm
      · next record address socket _ =>
          have hleaves := RecordedChannel.leaves_keep (σ := σ)
            { link.channel with
              given := link.channel.given ++ [(.ofAddress address true, record)] }
            (SecureChannel.handleInbound link.channel.channel (.ofAddress address true) record)
            t.keystore socket
          simp only [Traced.value_bind]
          split <;> exact .of_eq rfl ((congrArg some hleaves).trans hwritten.symm)

theorem handed_pollOnce (t : Transport (Recorded σ) (RecordedChannel χ)) :
    t.Handed (pollOnce t).value.2 [] := by
  have hsent : (Socket.receive t.plain t.bufferSize).2.sent = t.plain.sent := rfl
  unfold pollOnce
  split
  · next bytes address plain hreceive =>
      rw [hreceive] at hsent
      exact .of_eq hsent rfl
  · next e plain hreceive =>
      rw [hreceive] at hsent
      exact .of_eq hsent rfl
  · next plain hreceive =>
      rw [hreceive] at hsent
      have hfirst : t.Handed { t with plain := plain } [] := .of_eq hsent rfl
      exact hfirst.trans (handed_pollSecure _)

/-- **Receiving** hands over nothing. -/
theorem handed_poll (t : Transport (Recorded σ) (RecordedChannel χ)) :
    t.Handed (poll t).value.2 [] := by
  -- by induction on the records that are used up before there is something to yield
  fun_induction poll t with
  | case1 t look received next hlook =>
      have hlast := handed_pollOnce t
      rwa [hlook] at hlast
  | case2 t look next hlook rest ih =>
      have hfirst := handed_pollOnce t
      rw [hlook] at hfirst
      exact hfirst.trans ih

/-! ## Sending -/

/-- **Sending** hands over the message. -/
theorem handed_send (t : Transport (Recorded σ) (RecordedChannel χ)) (peer : Endpoint)
    (bytes : Bytes) : t.Handed (t.send (some peer) bytes).value.2 [(peer, bytes)] := by
  unfold send
  dsimp only
  split
  · next hsecure =>
      split
      · next hnone => exact ⟨by simp [hsecure], by simp [written, hnone]⟩
      · next link hlink =>
          -- the message is on record before the channel begins to talk, whatever comes of that
          have hleaves := RecordedChannel.leaves_keep (σ := σ)
            { link.channel with written := link.channel.written ++ [(peer, bytes)] }
            (SecureChannel.write link.channel.channel peer bytes) t.keystore link.socket
          have hwritten := written_of_secure hlink
          refine ⟨by simp [hsecure, converse], (congrArg some hleaves).trans ?_⟩
          rw [hwritten]
          simp [hsecure]
  · next hplain => exact ⟨by simp [hplain]; rfl, by simp [hplain]; rfl⟩

theorem handed_deliver (t : Transport (Recorded σ) (RecordedChannel χ)) (peer : Endpoint)
    (bytes : Bytes) : t.Handed (t.deliver peer bytes).value [(peer, bytes)] := by
  have hsend := t.handed_send peer bytes
  unfold deliver
  rw [Traced.value_bind]
  rcases hresult : (t.send (some peer) bytes).value with ⟨(_ | e) | _, next⟩ <;>
    rw [hresult] at hsend <;> exact hsend

/-- **Carrying out activities** hands over what they want delivered. -/
theorem handed_perform (t : Transport (Recorded σ) (RecordedChannel χ))
    (activities : List Activity) :
    t.Handed (t.perform activities).value (delivered activities) := by
  unfold perform
  induction activities generalizing t with
  | nil => exact .of_eq rfl rfl
  | cons activity rest ih =>
      have hone : t.Handed (t.performOne activity).value (delivered [activity]) := by
        cases activity with
        | deliver peer bytes => exact t.handed_deliver peer bytes
        | _ => exact .of_eq rfl rfl
      rw [List.foldlM_cons, Traced.value_bind, delivered_cons]
      exact hone.trans (ih _)

/-! ## Sessions -/

/-- **Beginning a session** hands over nothing. -/
theorem handed_connect (t : Transport (Recorded σ) (RecordedChannel χ)) (peer : Endpoint) :
    t.Handed (t.connect peer).value.2 [] := by
  unfold connect
  split
  · split
    · exact .of_eq rfl rfl
    · next link hlink =>
        have hleaves := link.channel.leaves_keep (σ := σ)
          (SecureChannel.connect link.channel.channel peer) t.keystore link.socket
        have hwritten := written_of_secure hlink
        exact .of_eq rfl ((congrArg some hleaves).trans hwritten.symm)
  · exact .of_eq rfl rfl

/-- **Ending a session** hands over nothing. -/
theorem handed_disconnect (t : Transport (Recorded σ) (RecordedChannel χ)) (peer : Endpoint) :
    t.Handed (t.disconnect peer).value [] := by
  unfold disconnect
  split
  · next link _ hlink =>
      have hleaves := link.channel.leaves_disconnect (σ := σ) peer t.keystore link.socket
      exact .of_eq rfl ((congrArg some hleaves).trans (written_of_secure hlink).symm)
  · exact .of_eq rfl rfl

end Transport

end CoapNode
