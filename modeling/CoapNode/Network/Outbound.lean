import CoapNode.Network.Transport

set_option autoImplicit false

/-! # Sending

`Transport.send` hands bytes to the plaintext socket or to the secure channel, according to the
endpoint they are for. Delivering is sending without asking how it went: failures go into the log.
`Transport.perform` carries out what the message layer wants done.

* `Transport.backlog_perform_le`: sending adds nothing to what can be received.
-/

namespace CoapNode.Transport

variable {σ χ ε δ : Type} [Socket σ ε] [SecureChannel χ δ]

/-- Hold a conversation of the secure channel over its socket; yields what the conversation yields
beside the channel. -/
def converse {α : Type} (t : Transport σ χ) (link : SecureLink σ χ)
    (talk : Conversation (α × χ)) : Logged (α × Transport σ χ) := do
  let ((value, channel), socket) ← talk.run t.keystore link.socket
  pure (value, { t with secure := some ⟨socket, channel⟩ })

/-- Send bytes to a peer. Nothing is sent if there is no peer. -/
def send (t : Transport σ χ) (peer : Option Endpoint) (bytes : Bytes) :
    Traced Activity (Except (Stall (TransportError ε δ)) Unit × Transport σ χ) :=
  match peer with
  | none => do
    Log.trace ("send without endpoint, dropping " ++ toString bytes.length ++ " bytes")
    pure (.ok (), t)
  | some peer =>
    if peer.secure then
      match t.secure with
      | none => pure (.error (.failed .secureUnavailable), t)
      | some link => do
        Traced.emit (.sendSecure peer bytes)
        let (result, t) ← t.converse link (SecureChannel.write link.channel peer bytes)
        pure (result.mapError fun e => .failed (.channel e), t)
    else do
      Traced.emit (.sendPlain peer.socketAddress bytes)
      let (result, plain) := Socket.send t.plain peer.socketAddress bytes
      pure (result.mapError (·.map .socket), { t with plain := plain })

/-- Send bytes to a peer, and report it if that did not work. -/
def deliver (t : Transport σ χ) (peer : Endpoint) (bytes : Bytes) :
    Traced Activity (Transport σ χ) := do
  let (result, t) ← t.send (some peer) bytes
  let what := toString bytes.length ++ " bytes to " ++ peer.text
  match result with
  | .ok () => pure t
  | .error .wouldBlock =>
    Log.debug ("socket busy, dropped " ++ what)
    pure t
  | .error (.failed e) =>
    Log.warn ("failed to send " ++ what ++ ": " ++
      e.text (Socket.errorText σ) (SecureChannel.errorText χ))
    pure t

/-- Carry out an activity of the message layer. -/
def performOne (t : Transport σ χ) (activity : Activity) : Traced Activity (Transport σ χ) := do
  Traced.emit activity
  match activity with
  | .deliver peer bytes => t.deliver peer bytes
  | _ => pure t

/-- Carry out activities of the message layer, in order. -/
def perform (t : Transport σ χ) (activities : List Activity) : Traced Activity (Transport σ χ) :=
  activities.foldlM performOne t

/-! ## Sessions -/

/-- Begin a session with a peer. Plaintext peers need none. -/
def connect (t : Transport σ χ) (peer : Endpoint) :
    Logged (Except (TransportError ε δ) Unit × Transport σ χ) :=
  if peer.secure then
    match t.secure with
    | none => pure (.error .secureUnavailable, t)
    | some link => do
      Log.debug ("connecting to " ++ peer.text)
      let (result, t) ← t.converse link (SecureChannel.connect link.channel peer)
      pure (result.mapError .channel, t)
  else pure (.ok (), t)

/-- End the session with a peer, if there is one. -/
def disconnect (t : Transport σ χ) (peer : Endpoint) : Logged (Transport σ χ) :=
  match peer.secure, t.secure with
  | true, some link => do
    let talk := SecureChannel.disconnect link.channel peer
    let ((), t) ← t.converse link (talk.andThen fun channel => .done ((), channel))
    pure t
  | _, _ => pure t

/-! ## The backlog -/

theorem backlog_converse_le {α : Type} (t : Transport σ χ) (link : SecureLink σ χ)
    (talk : Conversation (α × χ)) (hlink : t.secure = some link) :
    (t.converse link talk).value.2.backlog ≤ t.backlog := by
  have hrun := Conversation.backlog_run_le t.keystore talk link.socket
  simpa [converse, backlog, hlink] using hrun

theorem backlog_send_le (t : Transport σ χ) (peer : Option Endpoint) (bytes : Bytes) :
    (t.send peer bytes).value.2.backlog ≤ t.backlog := by
  unfold send
  split
  · exact Nat.le_refl _
  · split
    · split
      · exact Nat.le_refl _
      · rename_i link hlink
        exact backlog_converse_le t link _ hlink
    · exact Nat.add_le_add_right (Socket.backlog_send_le _ _ _) _

theorem backlog_deliver_le (t : Transport σ χ) (peer : Endpoint) (bytes : Bytes) :
    (t.deliver peer bytes).value.backlog ≤ t.backlog := by
  have hsend := backlog_send_le t (some peer) bytes
  unfold deliver
  simp only [Traced.value_bind]
  split <;> exact hsend

theorem backlog_performOne_le (t : Transport σ χ) (activity : Activity) :
    (t.performOne activity).value.backlog ≤ t.backlog := by
  unfold performOne
  simp only [Traced.value_bind]
  split
  · exact backlog_deliver_le t _ _
  · exact Nat.le_refl _

/-- Sending adds nothing to what can be received. -/
theorem backlog_perform_le (t : Transport σ χ) (activities : List Activity) :
    (t.perform activities).value.backlog ≤ t.backlog := by
  unfold perform
  induction activities generalizing t with
  | nil => exact Nat.le_refl _
  | cons activity rest ih =>
    rw [List.foldlM_cons, Traced.value_bind]
    exact Nat.le_trans (ih _) (backlog_performOne_le t activity)

end CoapNode.Transport
