import CoapNode.Activity
import CoapNode.Message.Response
import CoapNode.Time.Retry

set_option autoImplicit false

/-! # Transactions

A transaction is a request that is outstanding: first its message id is reserved, then it is
sent and retransmitted until the peer answers or all attempts are used up, and then its outcome
waits to be taken.
-/

namespace CoapNode

/-- Where a transaction is in its life. -/
inductive Status where
  /-- Nothing has been sent. -/
  | fresh
  /-- The request has been sent, and an answer is awaited. -/
  | pending
  /-- The transaction is over, with a response or without. -/
  | complete (outcome : Option Response)
deriving DecidableEq, Repr

/-- An outstanding request. What belongs together in each status is kept by the operations on it. -/
structure Transaction where
  id : MessageId
  /-- The token that the request was sent with last. -/
  token? : Option Token
  /-- Where the request goes. -/
  peer : Endpoint
  /-- The packet that is sent again while no answer has come. -/
  packet : Bytes
  /-- The timer that decides about retransmissions. -/
  retry? : Option RetryTimer
  /-- Has the peer acknowledged the request without answering it? -/
  acked : Bool
  status : Status
deriving DecidableEq, Repr

namespace Transaction

/-- A transaction for a request that is yet to be sent. -/
def new (id : MessageId) (peer : Endpoint) : Transaction := ⟨id, none, peer, [], none, false, .fresh⟩

/-- Is an answer awaited? -/
def isPending (t : Transaction) : Bool := t.status == .pending

/-- Does a message answer to the id of the transaction, as acknowledgements and resets do, or to
its token? -/
def answeredBy (t : Transaction) (msg : Message) : Bool :=
  ((msg.kind == .ack || msg.kind == .reset) && msg.id == t.id) ||
    (!msg.token.isEmpty && some msg.token == t.token?)

/-- Is a message the answer that is awaited? -/
def awaits (t : Transaction) (msg : Message) : Bool := t.isPending && t.answeredBy msg

/-- The transaction when it is over. -/
def complete (t : Transaction) (outcome : Option Response) : Transaction :=
  { t with status := .complete outcome, retry? := none, packet := [] }

/-- The transaction after its request has been sent. -/
def sent (t : Transaction) (token : Token) (packet : Bytes) (retry : RetryTimer) : Transaction :=
  { t with
    token? := some token
    packet := packet
    acked := false
    status := .pending
    retry? := some retry }

/-- The transaction after an acknowledgement without a response, with a new timer. -/
def acknowledge (t : Transaction) (retry : RetryTimer) : Transaction :=
  { t with acked := true, retry? := some retry }

/-- The line of the log that begins with the id of a transaction. -/
def line (t : Transaction) (rest : String) : String :=
  "transaction " ++ toString t.id.toNat ++ " " ++ rest

end Transaction

/-- What taking the outcome of a transaction yields. -/
inductive Completion where
  /-- The transaction is not over. -/
  | inFlight
  /-- The transaction is over, with a response or without, or there is none. -/
  | done (outcome : Option Response)
deriving DecidableEq, Repr

end CoapNode
