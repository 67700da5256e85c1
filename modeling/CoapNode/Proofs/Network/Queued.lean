import CoapNode.Network.Outbound
import CoapNode.Proofs.Network.Origin

set_option autoImplicit false

/-! # Queues of arrivals

A queue of arrivals can be put in front of any socket (`Queued`): what is received comes from the
queue until that is empty, and what is sent goes to the socket behind it. Some of the arrivals are
marked as strays. The marks are there for the reader of the queue only; nothing that is received
shows them.

Taking the strays out of the queues (`Transport.purged`) makes no difference to what a transport
sends (`Transport.perform_purged`). It makes none to what the transport yields either, as long as
nothing is waiting on the plaintext socket and the channel rejects the strays among its records
(`Transport.poll_purged`).
-/

namespace CoapNode

/-- What comes next when a socket is read. -/
inductive Arrival (ε : Type) where
  /-- A datagram from an address, which is a stray or not. -/
  | datagram (stray : Bool) (bytes : Bytes) (address : SocketAddress)
  /-- The socket fails. -/
  | failure (e : ε)

/-- Is the arrival marked as a stray? -/
def Arrival.isStray {ε : Type} : Arrival ε → Bool
  | .datagram stray _ _ => stray
  | .failure _ => false

/-- A socket with a queue of arrivals in front of it. -/
structure Queued (σ ε : Type) where
  socket : σ
  inbox : List (Arrival ε)

namespace Queued

variable {σ ε : Type}

/-- Take what is first in the queue. -/
def next (queued : Queued σ ε) : Except (Stall ε) (Bytes × SocketAddress) × Queued σ ε :=
  match queued.inbox with
  | [] => (.error .wouldBlock, queued)
  | .datagram _ bytes address :: rest => (.ok (bytes, address), { queued with inbox := rest })
  | .failure e :: rest => (.error (.failed e), { queued with inbox := rest })

/-- The same without the strays. -/
def purged (queued : Queued σ ε) : Queued σ ε :=
  { queued with inbox := queued.inbox.filter fun arrival => !arrival.isStray }

theorem inbox_purged_of_nil {queued : Queued σ ε} (h : queued.inbox = []) :
    queued.purged.inbox = [] := by
  rw [purged, h]
  rfl

/-- What is first in a queue is first without strays as well, unless it is one. -/
theorem inbox_purged_of_cons {queued : Queued σ ε} {arrival : Arrival ε} {rest : List (Arrival ε)}
    (h : queued.inbox = arrival :: rest) (hstray : arrival.isStray = false) :
    queued.purged.inbox = arrival :: { queued with inbox := rest }.purged.inbox := by
  rw [purged, purged, h, List.filter_cons_of_pos (by simp [hstray])]

/-- A stray that is first in a queue makes no difference without strays. -/
theorem purged_of_stray {queued : Queued σ ε} {arrival : Arrival ε} {rest : List (Arrival ε)}
    (h : queued.inbox = arrival :: rest) (hstray : arrival.isStray = true) :
    { queued with inbox := rest }.purged = queued.purged := by
  rw [purged, purged, h, List.filter_cons_of_neg (by simp [hstray])]

theorem length_inbox_next_lt (queued : Queued σ ε) {datagram : Bytes × SocketAddress}
    (h : queued.next.1 = .ok datagram) : queued.next.2.inbox.length < queued.inbox.length := by
  unfold next at h ⊢
  split at h
  · cases h
  · next hinbox => simp [hinbox]
  · cases h

theorem length_inbox_next_le (queued : Queued σ ε) :
    queued.next.2.inbox.length ≤ queued.inbox.length := by
  unfold next
  split
  · exact Nat.le_refl _
  all_goals
    next hinbox => simp [hinbox]

variable [Socket σ ε]

instance : Socket (Queued σ ε) ε where
  localAddress queued := Socket.localAddress queued.socket
  receiveInto queued buffer :=
    let (result, buffer) := fillFront queued.next.1 buffer
    (result, buffer, queued.next.2)
  send queued address bytes :=
    let (result, socket) := Socket.send queued.socket address bytes
    (result, { queued with socket := socket })
  errorText := Socket.errorText σ
  backlog queued := queued.inbox.length
  length_receiveInto queued := length_fillFront queued.next.1
  receiveInto_le queued buffer _ _ := fillFront_le queued.next.1 buffer
  readFront_receiveInto queued buffer buffer' h := by
    rw [readFront_fillFront, readFront_fillFront, h]
  backlog_receiveInto_lt queued buffer datagram h :=
    let ⟨_, hnext⟩ := exists_of_fillFront_ok h
    queued.length_inbox_next_lt hnext
  backlog_receiveInto_le queued _ := queued.length_inbox_next_le
  backlog_send_le _ _ _ := Nat.le_refl _

/-! ## Receiving from a queue -/

variable {queued : Queued σ ε} {rest : List (Arrival ε)} (size : Nat)

theorem receive_eq (queued : Queued σ ε) :
    Socket.receive queued size
      = (queued.next.1.map fun (bytes, address) => (bytes.take size, address), queued.next.2) :=
  readFront_fillFront_replicate _ _ _

theorem receive_of_nil (h : queued.inbox = []) :
    Socket.receive queued size = (.error .wouldBlock, queued) := by
  rw [receive_eq, next, h]
  rfl

theorem receive_of_datagram {stray : Bool} {bytes : Bytes} {address : SocketAddress}
    (h : queued.inbox = .datagram stray bytes address :: rest) :
    Socket.receive queued size
      = (.ok (bytes.take size, address), { queued with inbox := rest }) := by
  rw [receive_eq, next, h]
  rfl

theorem receive_of_failure {e : ε} (h : queued.inbox = .failure e :: rest) :
    Socket.receive queued size = (.error (.failed e), { queued with inbox := rest }) := by
  rw [receive_eq, next, h]
  rfl

end Queued

/-! ## Sending -/

/-- **A conversation** sends the same over a queue without strays. -/
theorem Conversation.run_purged {α σ ε : Type} [Socket σ ε] (keys : Keystore)
    (talk : Conversation α) (queued : Queued σ ε) :
    talk.run keys queued.purged = Prod.map id Queued.purged <$> talk.run keys queued := by
  induction talk generalizing queued with
  | done value => rfl
  | send peer record next ih =>
      have hsend : Socket.send queued.purged peer.socketAddress record
          = Prod.map id Queued.purged (Socket.send queued peer.socketAddress record) := rfl
      rw [run, run, hsend]
      rcases Socket.send queued peer.socketAddress record with ⟨stall | ⟨⟩, after⟩
      · dsimp only [Prod.map, id]
        rw [map_bind, ih]
      · exact ih _ after
  | lookup peer request buffer next ih =>
      rw [run, run, map_bind]
      simp only [ih]

/-- What a conversation sends does not come from the queue. -/
theorem Conversation.inbox_run {α σ ε : Type} [Socket σ ε] (keys : Keystore)
    (talk : Conversation α) (queued : Queued σ ε) :
    (talk.run keys queued).value.2.inbox = queued.inbox := by
  induction talk generalizing queued with
  | done value => rfl
  | send peer record next ih =>
      have hsend : (Socket.send queued peer.socketAddress record).2.inbox = queued.inbox := rfl
      rw [run]
      rcases hanswer : Socket.send queued peer.socketAddress record with ⟨stall | ⟨⟩, after⟩ <;>
        rw [hanswer] at hsend <;> exact (ih _ after).trans hsend
  | lookup peer request buffer next ih => exact ih _ queued

namespace Transport

variable {σ χ ε δ : Type}

/-- The transport without the strays in its queues. -/
def purged (t : Transport (Queued σ ε) χ) : Transport (Queued σ ε) χ :=
  { t with
    plain := t.plain.purged
    secure := t.secure.map fun link => { link with socket := link.socket.purged } }

variable {t t' t'' : Transport (Queued σ ε) χ}

theorem secure_purged {link : SecureLink (Queued σ ε) χ} (h : t.secure = some link) :
    t.purged.secure = some { link with socket := link.socket.purged } := by
  rw [purged, h]
  rfl

/-- **What is left in the queues** of a transport was in them before. -/
structure RestOf (t' t : Transport (Queued σ ε) χ) : Prop where
  bufferSize : t'.bufferSize = t.bufferSize
  plain : t'.plain.inbox ⊆ t.plain.inbox
  secure : ∀ link', t'.secure = some link' →
    ∃ link, t.secure = some link ∧ link'.socket.inbox ⊆ link.socket.inbox

theorem RestOf.refl (t : Transport (Queued σ ε) χ) : t.RestOf t :=
  ⟨rfl, List.Subset.refl _, fun link h => ⟨link, h, List.Subset.refl _⟩⟩

theorem RestOf.trans (h : t''.RestOf t') (h' : t'.RestOf t) : t''.RestOf t where
  bufferSize := h.bufferSize.trans h'.bufferSize
  plain := List.Subset.trans h.plain h'.plain
  secure link'' hlink'' := by
    obtain ⟨link', hlink', hsub⟩ := h.secure link'' hlink''
    obtain ⟨link, hlink, hsub'⟩ := h'.secure link' hlink'
    exact ⟨link, hlink, List.Subset.trans hsub hsub'⟩

variable [Socket σ ε] [SecureChannel χ δ]

theorem converse_purged {α : Type} (t : Transport (Queued σ ε) χ)
    (link : SecureLink (Queued σ ε) χ) (talk : Conversation (α × χ)) :
    t.purged.converse { link with socket := link.socket.purged } talk
      = Prod.map id purged <$> t.converse link talk := by
  rw [converse, converse, map_bind]
  dsimp only
  rw [Conversation.run_purged, bind_map_left]
  rfl

theorem send_purged (t : Transport (Queued σ ε) χ) (peer : Option Endpoint) (bytes : Bytes) :
    t.purged.send peer bytes = Prod.map id purged <$> t.send peer bytes := by
  cases peer with
  | none => rfl
  | some peer =>
      rw [send, send]
      dsimp only
      cases peer.secure with
      | false => rfl
      | true =>
          rw [if_pos rfl, if_pos rfl]
          rcases hsecure : t.secure with _ | link
          · have hnone : t.purged.secure = none := by rw [purged, hsecure]; rfl
            rw [hnone]
            rfl
          · rw [secure_purged hsecure]
            dsimp only
            rw [converse_purged, Traced.liftM_map, map_bind]
            simp only [map_bind, bind_map_left]
            rfl

theorem deliver_purged (t : Transport (Queued σ ε) χ) (peer : Endpoint) (bytes : Bytes) :
    t.purged.deliver peer bytes = purged <$> t.deliver peer bytes := by
  rw [deliver, deliver, send_purged, map_bind, bind_map_left]
  congr 1
  funext answer
  rcases answer with ⟨(_ | e) | ⟨⟩, next⟩
  · rfl
  · rfl
  · rfl

theorem performOne_purged (t : Transport (Queued σ ε) χ) (activity : Activity) :
    t.purged.performOne activity = purged <$> t.performOne activity := by
  cases activity with
  | deliver peer bytes => rw [performOne, performOne, map_bind, deliver_purged]
  | _ => rfl

/-- **Carrying out activities** sends the same with or without strays. -/
theorem perform_purged (t : Transport (Queued σ ε) χ) (activities : List Activity) :
    t.purged.perform activities = purged <$> t.perform activities := by
  unfold perform
  induction activities generalizing t with
  | nil => rfl
  | cons activity rest ih =>
      rw [List.foldlM_cons, List.foldlM_cons, performOne_purged, map_bind, bind_map_left]
      simp only [ih]

/-! ## Receiving -/

/-- What is first in the queue of the plaintext socket is yielded. -/
theorem poll_of_datagram {stray : Bool} {bytes : Bytes} {address : SocketAddress}
    {rest : List (Arrival ε)} (h : t.plain.inbox = .datagram stray bytes address :: rest) :
    (poll t).value = (.ok ⟨.ofAddress address false, bytes.take t.bufferSize⟩,
      { t with plain := { t.plain with inbox := rest } }) :=
  value_poll_of_receive (Queued.receive_of_datagram t.bufferSize h)

theorem poll_of_failure {e : ε} {rest : List (Arrival ε)}
    (h : t.plain.inbox = .failure e :: rest) :
    (poll t).value = (.error (.failed (.socket e)),
      { t with plain := { t.plain with inbox := rest } }) := by
  refine value_poll_of_some ?_
  rw [pollOnce, Queued.receive_of_failure t.bufferSize h]
  rfl

theorem pollOnce_of_nil (h : t.plain.inbox = []) : pollOnce t = pollSecure t := by
  rw [pollOnce, Queued.receive_of_nil t.bufferSize h]

/-- **The channel rejects the record that comes next**, if that is a stray and it is its turn, and
leaves itself and its socket as they are. -/
def RejectsStray (t : Transport (Queued σ ε) χ) : Prop :=
  ∀ link bytes address rest, t.plain.inbox = [] → t.secure = some link →
    link.socket.inbox = .datagram true bytes address :: rest →
    ∃ e, ((SecureChannel.handleInbound link.channel (.ofAddress address true)
        (bytes.take t.bufferSize)).run t.keystore { link.socket with inbox := rest }).value
      = ((.error e, link.channel), { link.socket with inbox := rest })

/-- What the channel makes of a record decides what a look at its socket yields. -/
def opened (t : Transport (Queued σ ε) χ) (peer : Endpoint)
    (answer : (Except δ (Option Bytes) × χ) × Queued σ ε) :
    Option (Received ε δ) × Transport (Queued σ ε) χ :=
  (match answer.1.1 with
    | .ok (some message) => some (.ok ⟨peer, message⟩)
    | _ => none,
    { t with secure := some ⟨answer.2, answer.1.2⟩ })

theorem value_pollSecure_of_datagram {link : SecureLink (Queued σ ε) χ} {stray : Bool}
    {bytes : Bytes} {address : SocketAddress} {rest : List (Arrival ε)}
    (hsecure : t.secure = some link)
    (hinbox : link.socket.inbox = .datagram stray bytes address :: rest) :
    (pollSecure t).value = t.opened (.ofAddress address true)
      ((SecureChannel.handleInbound link.channel (.ofAddress address true)
        (bytes.take t.bufferSize)).run t.keystore { link.socket with inbox := rest }).value := by
  rw [pollSecure, hsecure]
  dsimp only
  rw [Queued.receive_of_datagram _ hinbox]
  simp only [Traced.value_bind]
  generalize ((SecureChannel.handleInbound link.channel (.ofAddress address true)
    (bytes.take t.bufferSize)).run t.keystore { link.socket with inbox := rest }).value = answer
  rcases answer with ⟨⟨e | _ | message, channel⟩, socket⟩ <;> rfl

/-- **What a look at the socket of the channel comes to**: strays make no difference to it, or a
stray has been used up and nothing else has changed. -/
theorem pollSecure_purged (hempty : t.plain.inbox = []) (hrejects : t.RejectsStray) :
    (∃ next, (pollSecure t).value = (none, next) ∧ next.purged = t.purged)
      ∨ (pollSecure t.purged).value = Prod.map id purged (pollSecure t).value := by
  rcases hsecure : t.secure with _ | link
  · refine .inr ?_
    have hpurged : t.purged.secure = none := by rw [purged, hsecure]; rfl
    rw [pollSecure, pollSecure, hsecure, hpurged]
    rfl
  · have hpurged := secure_purged hsecure
    -- by what is first in the queue, which the queue without strays begins with unless it is one
    rcases hinbox : link.socket.inbox with _ | ⟨⟨_ | _, bytes, address⟩ | e, rest⟩
    · refine .inr ?_
      rw [pollSecure, pollSecure, hsecure, hpurged]
      dsimp only
      rw [Queued.receive_of_nil _ hinbox,
        Queued.receive_of_nil _ (Queued.inbox_purged_of_nil hinbox)]
      rfl
    · refine .inr ?_
      have hinbox' := Queued.inbox_purged_of_cons hinbox rfl
      have hrun := Conversation.run_purged t.keystore
        (SecureChannel.handleInbound link.channel (.ofAddress address true)
          (bytes.take t.bufferSize)) { link.socket with inbox := rest }
      rw [value_pollSecure_of_datagram hsecure hinbox, value_pollSecure_of_datagram hpurged hinbox']
      exact congrArg (fun talk => t.purged.opened (.ofAddress address true) talk.value) hrun
    · obtain ⟨e, hreject⟩ := hrejects link bytes address rest hempty hsecure hinbox
      have hvalue := value_pollSecure_of_datagram hsecure hinbox
      rw [hreject] at hvalue
      refine .inl ⟨_, hvalue, ?_⟩
      rw [purged, purged, hsecure]
      dsimp only [Option.map_some]
      rw [Queued.purged_of_stray hinbox rfl]
    · refine .inr ?_
      rw [pollSecure, pollSecure, hsecure, hpurged]
      dsimp only
      rw [Queued.receive_of_failure _ hinbox,
        Queued.receive_of_failure _ (Queued.inbox_purged_of_cons hinbox rfl)]
      rfl

theorem plain_pollSecure (t : Transport (Queued σ ε) χ) :
    (pollSecure t).value.2.plain = t.plain := by
  unfold pollSecure
  split
  · rfl
  · split
    · rfl
    · simp only [Traced.value_bind]
      split <;> rfl

/-- The same for a look at both sockets, if nothing is on the plaintext one. -/
theorem pollOnce_purged (hempty : t.plain.inbox = []) (hrejects : t.RejectsStray) :
    (∃ next, (pollOnce t).value = (none, next) ∧ next.purged = t.purged)
      ∨ (pollOnce t.purged).value = Prod.map id purged (pollOnce t).value := by
  have hempty' : t.purged.plain.inbox = [] := Queued.inbox_purged_of_nil hempty
  rw [pollOnce_of_nil hempty, pollOnce_of_nil hempty']
  exact pollSecure_purged hempty hrejects

/-- **A transport looks at its sockets** with the given transport before it yields something: at
once, or after records have been used up. -/
inductive Looks : Transport (Queued σ ε) χ → Transport (Queued σ ε) χ → Prop where
  | now (t : Transport (Queued σ ε) χ) : Looks t t
  | later {t t' t'' : Transport (Queued σ ε) χ} (hlook : (pollOnce t).value = (none, t'))
      (hrest : Looks t' t'') : Looks t t''

/-- **Where nothing is on the plaintext socket**, a transport yields the same with or without the
strays that its channel rejects. -/
theorem poll_purged (hempty : t.plain.inbox = []) (hrejects : ∀ t', t.Looks t' → t'.RejectsStray) :
    (poll t.purged).value = Prod.map id purged (poll t).value := by
  have hfirst := pollOnce_purged hempty (hrejects t (.now t))
  fun_induction poll t with
  | case1 t look received next hlook =>
      have hlook' : (pollOnce t).value = (some received, next) := hlook
      rcases hfirst with ⟨after, hstray, -⟩ | hsame
      · rw [hstray] at hlook'
        cases hlook'
      · rw [hlook'] at hsame
        exact value_poll_of_some hsame
  | case2 t look next hlook rest ih =>
      have hlook' : (pollOnce t).value = (none, next) := hlook
      have hempty' : next.plain.inbox = [] := by
        have hplain := plain_pollSecure t
        rw [← pollOnce_of_nil hempty, hlook'] at hplain
        rw [hplain, hempty]
      have hrejects' : ∀ t', next.Looks t' → t'.RejectsStray :=
        fun t' h => hrejects t' (.later hlook' h)
      have hrest := ih hempty' hrejects' (pollOnce_purged hempty' (hrejects' next (.now next)))
      rcases hfirst with ⟨after, hstray, hpurged⟩ | hsame
      · -- the stray that is used up makes no difference to the queues without strays
        rw [hlook'] at hstray
        obtain ⟨-, rfl⟩ := Prod.mk.inj hstray
        rw [← hpurged]
        exact hrest
      · rw [hlook'] at hsame
        exact (value_poll_of_none hsame).trans hrest

/-- **What a transport comes upon**: a stray on its plaintext socket, or the same as without
strays. -/
theorem poll_cases (hrejects : ∀ t', t.Looks t' → t'.RejectsStray) :
    (∃ bytes address next, .datagram true bytes address ∈ t.plain.inbox
        ∧ (poll t).value = (.ok ⟨.ofAddress address false, bytes.take t.bufferSize⟩, next)
        ∧ next.purged = t.purged)
      ∨ (poll t.purged).value = Prod.map id purged (poll t).value := by
  rcases hinbox : t.plain.inbox with _ | ⟨⟨_ | _, bytes, address⟩ | e, rest⟩
  · exact .inr (poll_purged hinbox hrejects)
  · have hinbox' : t.purged.plain.inbox = _ := Queued.inbox_purged_of_cons hinbox rfl
    rw [poll_of_datagram hinbox, poll_of_datagram hinbox']
    exact .inr rfl
  · refine .inl ⟨bytes, address, _, List.mem_cons_self .., poll_of_datagram hinbox, ?_⟩
    rw [purged, purged]
    dsimp only
    rw [Queued.purged_of_stray hinbox rfl]
  · have hinbox' : t.purged.plain.inbox = _ := Queued.inbox_purged_of_cons hinbox rfl
    rw [poll_of_failure hinbox, poll_of_failure hinbox']
    exact .inr rfl

/-! ## What is left in the queues -/

theorem restOf_converse {α : Type} {link : SecureLink (Queued σ ε) χ} (hlink : t.secure = some link)
    (talk : Conversation (α × χ)) : (t.converse link talk).value.2.RestOf t where
  bufferSize := rfl
  plain := List.Subset.refl _
  secure link' hlink' := by
    obtain rfl := Option.some.inj hlink'
    exact ⟨link, hlink, fun _ h => Conversation.inbox_run t.keystore talk link.socket ▸ h⟩

theorem restOf_send (t : Transport (Queued σ ε) χ) (peer : Option Endpoint) (bytes : Bytes) :
    (t.send peer bytes).value.2.RestOf t := by
  unfold send
  split
  · exact .refl t
  · split
    · split
      · exact .refl t
      · next link hlink => exact restOf_converse hlink _
    · exact ⟨rfl, List.Subset.refl _, fun link hlink => ⟨link, hlink, List.Subset.refl _⟩⟩

theorem restOf_deliver (t : Transport (Queued σ ε) χ) (peer : Endpoint) (bytes : Bytes) :
    (t.deliver peer bytes).value.RestOf t := by
  have hsend := t.restOf_send (some peer) bytes
  unfold deliver
  rw [Traced.value_bind]
  rcases hresult : (t.send (some peer) bytes).value with ⟨(_ | e) | _, next⟩ <;>
    rw [hresult] at hsend <;> exact hsend

/-- **Sending** takes nothing from the queues and puts nothing into them. -/
theorem restOf_perform (t : Transport (Queued σ ε) χ) (activities : List Activity) :
    (t.perform activities).value.RestOf t := by
  unfold perform
  induction activities generalizing t with
  | nil => exact .refl t
  | cons activity rest ih =>
      have hone : (t.performOne activity).value.RestOf t := by
        cases activity with
        | deliver peer bytes => exact t.restOf_deliver peer bytes
        | _ => exact .refl t
      rw [List.foldlM_cons, Traced.value_bind]
      exact (ih _).trans hone

theorem restOf_pollSecure (t : Transport (Queued σ ε) χ) : (pollSecure t).value.2.RestOf t := by
  rcases hsecure : t.secure with _ | link
  · rw [pollSecure, hsecure]
    exact .refl t
  · have hrest {queued : Queued σ ε} {channel : χ} (h : queued.inbox ⊆ link.socket.inbox) :
        RestOf { t with secure := some ⟨queued, channel⟩ } t :=
      ⟨rfl, List.Subset.refl _, fun link' hlink' =>
        ⟨link, hsecure, by obtain rfl := Option.some.inj hlink'; exact h⟩⟩
    rcases hinbox : link.socket.inbox with _ | ⟨⟨stray, bytes, address⟩ | e, rest⟩
    · rw [pollSecure, hsecure]
      dsimp only
      rw [Queued.receive_of_nil _ hinbox]
      exact hrest (List.Subset.refl _)
    · rw [value_pollSecure_of_datagram hsecure hinbox]
      refine hrest ?_
      rw [Conversation.inbox_run, hinbox]
      exact List.subset_cons_self _ _
    · rw [pollSecure, hsecure]
      dsimp only
      rw [Queued.receive_of_failure _ hinbox]
      refine hrest ?_
      rw [hinbox]
      exact List.subset_cons_self _ _

theorem restOf_pollOnce (t : Transport (Queued σ ε) χ) : (pollOnce t).value.2.RestOf t := by
  have hplain {rest : List (Arrival ε)} (h : rest ⊆ t.plain.inbox) :
      RestOf { t with plain := { t.plain with inbox := rest } } t :=
    ⟨rfl, h, fun link hlink => ⟨link, hlink, List.Subset.refl _⟩⟩
  rcases hinbox : t.plain.inbox with _ | ⟨⟨stray, bytes, address⟩ | e, rest⟩
  · rw [pollOnce_of_nil hinbox]
    exact t.restOf_pollSecure
  · rw [pollOnce, Queued.receive_of_datagram _ hinbox]
    refine hplain ?_
    rw [hinbox]
    exact List.subset_cons_self _ _
  · rw [pollOnce, Queued.receive_of_failure _ hinbox]
    refine hplain ?_
    rw [hinbox]
    exact List.subset_cons_self _ _

/-- **Receiving** puts nothing into the queues. -/
theorem restOf_poll (t : Transport (Queued σ ε) χ) : (poll t).value.2.RestOf t := by
  fun_induction poll t with
  | case1 t look received next hlook =>
      have hfirst := t.restOf_pollOnce
      rwa [hlook] at hfirst
  | case2 t look next hlook rest ih =>
      have hfirst := t.restOf_pollOnce
      rw [hlook] at hfirst
      exact ih.trans hfirst

theorem Looks.restOf (h : t.Looks t') : t'.RestOf t := by
  induction h with
  | now => exact .refl _
  | @later t next t' hlook hrest ih =>
      have hfirst := t.restOf_pollOnce
      rw [hlook] at hfirst
      exact ih.trans hfirst

end Transport

end CoapNode
