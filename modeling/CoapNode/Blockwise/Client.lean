import CoapNode.Blockwise.Fetch

set_option autoImplicit false

/-! # Making a request and waiting for the response

`Client.send` drives a fetch to its end. How often it lets the exchange run is bounded by a
number that its caller gives; a fetch that is not over by then is abandoned.
-/

namespace CoapNode.Client

/-- Why a request has no response. -/
inductive Error (ε : Type) where
  /-- The fetch failed. -/
  | request (f : Fetch.Failure)
  /-- The exchange failed while the response was waited for. -/
  | runtime (e : ε)
  /-- The exchange ran as often as it was allowed to, and the fetch is not over. -/
  | outOfPatience
  /-- The fetch was never started. -/
  | notStarted
deriving DecidableEq, Repr

/-- An error as text, given the text of errors of the exchange. -/
def Error.text {ε : Type} (runtimeText : ε → String) : Error ε → String
  | .request f => Text.tagged "Request" f.text
  | .runtime e => Text.tagged "Runtime" (runtimeText e)
  | .outOfPatience => "OutOfPatience"
  | .notStarted => "NotStarted"

/-- The complaint about the retry strategy, if that is the cause of an error. -/
def Error.delay? {ε : Type} (runtimeDelay? : ε → Option DelayError) :
    Error ε → Option DelayError
  | .request f => f.delay?
  | .runtime e => runtimeDelay? e
  | _ => none

/-- How a request ended. -/
structure Outcome (s ε : Type) where
  result : Except (Error ε) Unit
  /-- The blocks of the response, first block first. -/
  blocks : List Response
  exchange : s

variable {s ε : Type} [Exchange s ε]

/-- Drive a fetch until it is over. The blocks received so far are given. -/
def drive (fetch : Fetch) (exchange : s) (blocks : List Response) (patience : Nat) :
    Traced Activity (Outcome s ε) :=
  match fetch.state with
  | .done => pure ⟨.ok (), blocks, exchange⟩
  | .failed f => pure ⟨.error (.request f), blocks, exchange⟩
  | .idle => pure ⟨.error .notStarted, blocks, exchange⟩
  | .awaiting id =>
    match patience with
    | 0 => pure ⟨.error .outOfPatience, blocks, (fetch.abandon exchange).2⟩
    | patience + 1 => do
      match ← Exchange.poll exchange id with
      | (.error e, exchange) =>
        pure ⟨.error (.runtime e), blocks, (fetch.abandon exchange).2⟩
      | (.ok .inFlight, exchange) => drive fetch exchange blocks patience
      | (.ok (.done outcome), exchange) =>
        let step ← fetch.resume exchange (.completed outcome)
        drive step.fetch step.exchange (blocks ++ step.block.toList) patience

/-- Send a request to a peer and wait until the response is complete. -/
def send (exchange : s) (peer : Endpoint) (request : Request) (config : BlockTransfer)
    (patience : Nat) : Traced Activity (Outcome s ε) := do
  let step ← (Fetch.new request peer config).resume exchange .start
  drive step.fetch step.exchange step.block.toList patience

/-- Ask a peer for the representation under a path. -/
def get (exchange : s) (peer : Endpoint) (path : String) (config : BlockTransfer)
    (patience : Nat) : Traced Activity (Outcome s ε) :=
  send exchange peer (.get path) config patience

end CoapNode.Client
