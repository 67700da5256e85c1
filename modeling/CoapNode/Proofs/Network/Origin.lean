import CoapNode.Network.Inbound

set_option autoImplicit false

/-! # Where a datagram comes from

The datagram that a transport yields came in on the plaintext socket, or it was in a record that the
channel could open and that came in on the socket of the channel (`Transport.Yields`). The endpoint
of its sender says which of the two it was (`Transport.Yields.secure_eq`).
-/

namespace CoapNode.Transport

variable {σ χ ε δ : Type} [Socket σ ε] [SecureChannel χ δ]

/-- **A transport yields a datagram** from its plaintext socket or, if the flag is set, from the
socket of the secure channel, and is left as another transport. -/
inductive Yields : Transport σ χ → Bool → Datagram → Transport σ χ → Prop where
  /-- The datagram came in on the plaintext socket. -/
  | plain {t : Transport σ χ} {plain : σ} {address : SocketAddress} {bytes : Bytes}
      (hreceive : Socket.receive t.plain t.bufferSize = (.ok (bytes, address), plain)) :
      Yields t false ⟨.ofAddress address false, bytes⟩ { t with plain := plain }
  /-- Nothing was on the plaintext socket, and the channel found the datagram in a record that came
  in on the other one. -/
  | secure {t : Transport σ χ} {plain socket socket' : σ} {link : SecureLink σ χ} {channel : χ}
      {address : SocketAddress} {record message : Bytes}
      (hplain : Socket.receive t.plain t.bufferSize = (.error .wouldBlock, plain))
      (hlink : t.secure = some link)
      (hreceive : Socket.receive link.socket t.bufferSize = (.ok (record, address), socket))
      (hopen : ((SecureChannel.handleInbound link.channel (.ofAddress address true) record).run
        t.keystore socket).value = ((.ok (some message), channel), socket')) :
      Yields t true ⟨.ofAddress address true, message⟩
        { t with plain := plain, secure := some ⟨socket', channel⟩ }
  /-- A record was used up before. -/
  | later {t t' t'' : Transport σ χ} {secure : Bool} {datagram : Datagram}
      (hlook : (pollOnce t).value = (none, t')) (hrest : Yields t' secure datagram t'') :
      Yields t secure datagram t''

namespace Yields

variable {t t' : Transport σ χ} {secure : Bool} {datagram : Datagram}

/-- **The endpoint of the sender is secure** exactly if the datagram came in on the socket of the
secure channel. -/
theorem secure_eq (h : t.Yields secure datagram t') : datagram.peer.secure = secure := by
  induction h with
  | plain | secure => rfl
  | later hlook hrest ih => exact ih

theorem value_surface (peer : Endpoint) (bytes : Bytes) :
    (surface (ε := ε) (δ := δ) peer bytes).value = .ok ⟨peer, bytes⟩ :=
  rfl

theorem exists_of_pollOnce (h : (pollOnce t).value = (some (.ok datagram), t')) :
    ∃ secure, t.Yields secure datagram t' := by
  unfold pollOnce at h
  split at h
  · next bytes address plain hplain =>
      simp only [Traced.value_bind, Traced.value_pure, value_surface, Prod.mk.injEq,
        Option.some.injEq, Except.ok.injEq] at h
      obtain ⟨rfl, rfl⟩ := h
      exact ⟨false, .plain hplain⟩
  · cases h
  · next plain hplain =>
      unfold pollSecure at h
      split at h
      · cases h
      · next link hlink =>
          split at h
          · cases h
          · next record address socket hreceive =>
              simp only [Traced.value_bind] at h
              split at h
              · next _ message hopen =>
                  simp only [Traced.value_bind, Traced.value_pure, value_surface, Prod.mk.injEq,
                    Option.some.injEq, Except.ok.injEq] at h
                  obtain ⟨rfl, rfl⟩ := h
                  exact ⟨true, .secure hplain hlink hreceive (Prod.ext (Prod.ext hopen rfl) rfl)⟩
              · cases h
              · cases h

end Yields

variable {t t' : Transport σ χ}

/-- A transport that yields something at the first look yields that. -/
theorem value_poll_of_some {received : Received ε δ}
    (h : (pollOnce t).value = (some received, t')) : (poll t).value = (received, t') := by
  rw [poll]
  split
  · next hlook =>
      rw [h] at hlook
      obtain ⟨hreceived, rfl⟩ := Prod.mk.inj hlook
      rw [Option.some.inj hreceived]
  · next hlook =>
      rw [h] at hlook
      cases hlook

/-- A transport that has used up a record goes on from there. -/
theorem value_poll_of_none (h : (pollOnce t).value = (none, t')) :
    (poll t).value = (poll t').value := by
  rw [poll]
  split
  · next hlook =>
      rw [h] at hlook
      cases hlook
  · next hlook =>
      rw [h] at hlook
      obtain ⟨-, rfl⟩ := Prod.mk.inj hlook
      rfl

/-- **What the plaintext socket gives** is yielded. -/
theorem value_poll_of_receive {plain : σ} {address : SocketAddress} {bytes : Bytes}
    (h : Socket.receive t.plain t.bufferSize = (.ok (bytes, address), plain)) :
    (poll t).value = (.ok ⟨.ofAddress address false, bytes⟩, { t with plain := plain }) := by
  refine value_poll_of_some ?_
  rw [pollOnce, h]
  rfl

/-- **Whatever is yielded came from somewhere.** -/
theorem exists_yields {datagram : Datagram}
    (h : (poll t).value = (.ok datagram, t')) : ∃ secure, t.Yields secure datagram t' := by
  fun_induction poll t with
  | case1 t look received next hlook =>
      obtain ⟨rfl, rfl⟩ := Prod.mk.inj h
      exact Yields.exists_of_pollOnce hlook
  | case2 t look next hlook rest ih =>
      obtain ⟨secure, hrest⟩ := ih h
      exact ⟨secure, .later hlook hrest⟩

end CoapNode.Transport
