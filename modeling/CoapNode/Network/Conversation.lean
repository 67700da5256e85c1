import CoapNode.Credential.Keystore
import CoapNode.Network.Socket

set_option autoImplicit false

/-! # Conversations

While a secure channel works it may send records to peers and look up credentials. What it does
is written down as a conversation: the next thing it asks for, and how it goes on with each answer.
`Conversation.run` holds a conversation over a socket and a key store.
-/

namespace CoapNode

/-- Why a record could not be sent. The details are in the log. -/
inductive LinkError where
  | sendFailed
deriving DecidableEq, Repr

/-- What a secure channel asks for, one thing after the other, and what it yields in the end. -/
inductive Conversation (α : Type) where
  /-- Nothing more is asked for. -/
  | done (value : α)
  /-- Send a record to a peer. -/
  | send (peer : Endpoint) (record : Bytes) (next : Except LinkError Unit → Conversation α)
  /-- Look up a credential for a peer, in a buffer of the channel. -/
  | lookup (peer : Endpoint) (request : CredentialRequest) (buffer : Bytes)
      (next : Except CredentialError Nat × Bytes → Conversation α)

namespace Conversation

variable {α β σ ε : Type}

/-- Go on with another conversation. -/
def andThen (f : α → Conversation β) : Conversation α → Conversation β
  | .done value => f value
  | .send peer record next => .send peer record fun answer => (next answer).andThen f
  | .lookup peer request buffer next =>
    .lookup peer request buffer fun answer => (next answer).andThen f

instance : Monad Conversation where
  pure := done
  bind talk f := talk.andThen f

/-- Send a record to a peer. -/
def say (peer : Endpoint) (record : Bytes) : Conversation (Except LinkError Unit) :=
  .send peer record .done

/-- Look up a credential for a peer in a buffer of zeros; yields the credential. -/
def credential (peer : Endpoint) (request : CredentialRequest) (size : Nat) :
    Conversation (Except CredentialError Bytes) :=
  .lookup peer request (List.replicate size 0) fun (result, buffer) =>
    .done (result.map buffer.take)

/-- Hold a conversation; yields its value and the socket. -/
def run [Socket σ ε] (keys : Keystore) : Conversation α → σ → Logged (α × σ)
  | .done value, socket => pure (value, socket)
  | .send peer record next, socket =>
    match Socket.send socket peer.socketAddress record with
    | (.ok (), socket) => run keys (next (.ok ())) socket
    | (.error stall, socket) => do
      Log.warn ("failed to send record to " ++ peer.text ++ ": " ++
        stall.text (Socket.errorText σ))
      run keys (next (.error .sendFailed)) socket
  | .lookup peer request buffer next, socket => do
    let answer ← keys.lookup peer request buffer
    run keys (next answer) socket

/-- A conversation adds nothing to the backlog of the socket it is held over. -/
theorem backlog_run_le [Socket σ ε] (keys : Keystore) (talk : Conversation α) (socket : σ) :
    Socket.backlog (talk.run keys socket).value.2 ≤ Socket.backlog socket := by
  induction talk generalizing socket with
  | done value => exact Nat.le_refl _
  | send peer record next ih =>
    have hsend := Socket.backlog_send_le socket peer.socketAddress record
    unfold run
    split
    · rename_i after heq
      rw [heq] at hsend
      exact Nat.le_trans (ih _ after) hsend
    · rename_i stall after heq
      rw [heq] at hsend
      exact Nat.le_trans (ih _ after) hsend
  | lookup peer request buffer next ih =>
    unfold run
    exact ih _ socket

end Conversation

end CoapNode
