import CoapNode.Network.Transport

set_option autoImplicit false

/-! # Receiving

`Transport.poll` yields the next datagram: from the plaintext socket if there is one, otherwise
from the secure channel. Records that hold no message for the node, or that the channel rejects,
are used up on the way.

* `Transport.backlog_poll_lt`: a datagram that has been received is no longer to be had.
-/

namespace CoapNode.Transport

variable {σ χ ε δ : Type} [Socket σ ε] [SecureChannel χ δ]

/-- What a look at the sockets yields: a datagram, or the reason why there is none. -/
abbrev Received (ε δ : Type) := Except (Stall (TransportError ε δ)) Datagram

/-- Hand a datagram to the node. -/
def surface (peer : Endpoint) (bytes : Bytes) : Logged (Received ε δ) := do
  Log.trace (toString bytes.length ++ " bytes from " ++ peer.text)
  pure (.ok ⟨peer, bytes⟩)

/-- Take a record from the secure socket and give it to the channel. Yields nothing if the record
was for the channel, or was rejected. -/
def pollSecure (t : Transport σ χ) : Logged (Option (Received ε δ) × Transport σ χ) :=
  match t.secure with
  | none => pure (some (.error .wouldBlock), t)
  | some link =>
    match Socket.receive link.socket t.bufferSize with
    | (.error stall, socket) =>
      let t := { t with secure := some { link with socket := socket } }
      pure (some (.error (stall.map .socket)), t)
    | (.ok (record, address), socket) => do
      let peer := Endpoint.ofAddress address true
      let ((result, channel), socket) ←
        (SecureChannel.handleInbound link.channel peer record).run t.keystore socket
      let t := { t with secure := some ⟨socket, channel⟩ }
      match result with
      | .ok (some message) =>
        let received ← surface peer message
        pure (some received, t)
      | .ok none => pure (none, t)
      | .error e =>
        Log.warn ("dropping record from " ++ peer.text ++ ": " ++ SecureChannel.errorText χ e)
        pure (none, t)

/-- Look at the plaintext socket, and at the secure one if nothing is there. Yields nothing if a
record was used up. -/
def pollOnce (t : Transport σ χ) : Logged (Option (Received ε δ) × Transport σ χ) :=
  match Socket.receive t.plain t.bufferSize with
  | (.ok (bytes, address), plain) => do
    let received ← surface (Endpoint.ofAddress address false) bytes
    pure (some received, { t with plain := plain })
  | (.error (.failed e), plain) =>
    pure (some (.error (.failed (.socket e))), { t with plain := plain })
  | (.error .wouldBlock, plain) => pollSecure { t with plain := plain }

/-! ## The backlog -/

/-- Does a look at the sockets use up something of the backlog? It does unless it yields a reason
why there is no datagram. -/
def usesUp : Option (Received ε δ) → Bool
  | some (.error _) => false
  | some (.ok _) | none => true

theorem backlog_pollSecure_le (t : Transport σ χ) :
    (pollSecure t).value.2.backlog ≤ t.backlog := by
  unfold pollSecure
  split
  · exact Nat.le_refl _
  · rename_i link hlink
    have hrecv := Socket.backlog_receive_le link.socket t.bufferSize
    split
    · rename_i stall socket heq
      rw [heq] at hrecv
      simpa [backlog, hlink] using hrecv
    · rename_i record address socket heq
      rw [heq] at hrecv
      have hrun := Conversation.backlog_run_le t.keystore
        (SecureChannel.handleInbound link.channel (Endpoint.ofAddress address true) record) socket
      have hle := Nat.le_trans hrun hrecv
      simp only [Traced.value_bind]
      split <;> simpa [backlog, hlink] using hle

theorem backlog_pollSecure_lt (t : Transport σ χ) (h : usesUp (pollSecure t).value.1 = true) :
    (pollSecure t).value.2.backlog < t.backlog := by
  unfold pollSecure at h ⊢
  split
  · rename_i hlink
    simp [hlink, usesUp] at h
  · rename_i link hlink
    simp only [hlink] at h
    split
    · rename_i stall socket heq
      simp [heq, usesUp] at h
    · rename_i record address socket heq
      have hrecv :=
        Socket.backlog_receive_lt link.socket t.bufferSize (record, address) (by rw [heq])
      rw [heq] at hrecv
      have hrun := Conversation.backlog_run_le t.keystore
        (SecureChannel.handleInbound link.channel (Endpoint.ofAddress address true) record) socket
      have hlt := Nat.lt_of_le_of_lt hrun hrecv
      simp only [Traced.value_bind]
      split <;> simpa [backlog, hlink] using hlt

theorem backlog_pollOnce_le (t : Transport σ χ) : (pollOnce t).value.2.backlog ≤ t.backlog := by
  have hrecv := Socket.backlog_receive_le t.plain t.bufferSize
  unfold pollOnce
  split
  · rename_i bytes address plain heq
    rw [heq] at hrecv
    exact Nat.add_le_add_right hrecv _
  · rename_i e plain heq
    rw [heq] at hrecv
    exact Nat.add_le_add_right hrecv _
  · rename_i plain heq
    rw [heq] at hrecv
    exact Nat.le_trans (backlog_pollSecure_le _) (Nat.add_le_add_right hrecv _)

theorem backlog_pollOnce_lt (t : Transport σ χ) (h : usesUp (pollOnce t).value.1 = true) :
    (pollOnce t).value.2.backlog < t.backlog := by
  have hrecv := Socket.backlog_receive_le t.plain t.bufferSize
  unfold pollOnce at h ⊢
  split
  · rename_i bytes address plain heq
    have hlt := Socket.backlog_receive_lt t.plain t.bufferSize (bytes, address) (by rw [heq])
    rw [heq] at hlt
    exact Nat.add_lt_add_right hlt _
  · rename_i e plain heq
    simp [heq, usesUp] at h
  · rename_i plain heq
    rw [heq] at hrecv
    simp only [heq] at h
    exact Nat.lt_of_lt_of_le (backlog_pollSecure_lt _ h) (Nat.add_le_add_right hrecv _)

/-! ## The next datagram -/

set_option linter.unusedVariables false in
/-- The next datagram, or the reason why there is none. -/
def poll (t : Transport σ χ) : Logged (Received ε δ × Transport σ χ) :=
  let look := pollOnce t
  match h : look.value with
  | (some received, t) => ⟨(received, t), look.trace⟩
  | (none, t) =>
    let rest := poll t
    ⟨rest.value, look.trace ++ rest.trace⟩
termination_by t.backlog
decreasing_by
  have hlt := backlog_pollOnce_lt _ (congrArg (usesUp ∘ Prod.fst) h)
  rw [h] at hlt
  exact hlt

/-- A datagram that has been received is no longer to be had. -/
theorem backlog_poll_lt (t : Transport σ χ) {datagram : Datagram}
    (hd : (poll t).value.1 = .ok datagram) : (poll t).value.2.backlog < t.backlog := by
  fun_induction poll t with
  | case1 t look received t' h =>
    have hlt := backlog_pollOnce_lt t (by rw [h]; simp only at hd; rw [hd]; rfl)
    rw [h] at hlt
    exact hlt
  | case2 t look t' h rest ih =>
    have hle := backlog_pollOnce_le t
    rw [h] at hle
    exact Nat.lt_of_lt_of_le (ih hd) hle

end CoapNode.Transport
