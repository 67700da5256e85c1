import CoapNode.Blockwise.Exchange

set_option autoImplicit false

/-! # Fetching a representation block by block

A fetch asks for one block after the other, each with a transaction of its own, and hands out the
responses whose block number is the expected one. It moves only when it is told of an event, and
rests after each request that it sends. A number of blocks out of sequence is tolerated.
-/

namespace CoapNode

/-- Why a fetch failed. -/
inductive Fetch.Failure where
  /-- A transaction could not be entered. -/
  | transactionUnavailable (e : AllocError)
  /-- A request could not be sent. -/
  | send (e : SendError)
  /-- The peer did not answer. -/
  | noResponse
  /-- Too many blocks came out of sequence. -/
  | tooManyBlockErrors
deriving DecidableEq, Repr

/-- A failure as text. -/
def Fetch.Failure.text : Fetch.Failure → String
  | .transactionUnavailable e => Text.tagged "TransactionUnavailable" e.text
  | .send e => Text.tagged "Send" e.text
  | .noResponse => "NoResponse"
  | .tooManyBlockErrors => "TooManyBlockErrors"

/-- The complaint about the retry strategy, if that is the cause of a failure. -/
def Fetch.Failure.delay? : Fetch.Failure → Option DelayError
  | .send e => e.delay?
  | _ => none

/-- Where a fetch stands. -/
inductive Fetch.State where
  /-- Not started. -/
  | idle
  /-- Waiting for the outcome of a transaction. -/
  | awaiting (id : MessageId)
  /-- All blocks have been received. -/
  | done
  /-- Given up. -/
  | failed (f : Fetch.Failure)
deriving DecidableEq, Repr

namespace Fetch.State

/-- A state as text. -/
def text : Fetch.State → String
  | .idle => "Idle"
  | .awaiting id =>
    Text.record "AwaitingResponse" [("mid", Text.tagged "Id" (toString id.toNat))]
  | .done => "Done"
  | .failed f => Text.tagged "Failed" f.text

/-- Does the fetch end in this state? -/
def isTerminal : Fetch.State → Bool
  | .done | .failed _ => true
  | .idle | .awaiting _ => false

end Fetch.State

/-- What a fetch is told of. -/
inductive Fetch.Event where
  /-- The first request is to be sent. -/
  | start
  /-- The transaction that was waited for is over, with a response or without. -/
  | completed (outcome : Option Response)
deriving DecidableEq, Repr

/-- A representation that is fetched block by block. -/
structure Fetch where
  /-- The request for the next block. -/
  request : Request
  peer : Endpoint
  /-- The number of the block that is expected next. -/
  blockNum : UInt32
  /-- How many blocks came out of sequence. -/
  blockErrors : UInt16
  config : BlockTransfer
  state : Fetch.State
deriving DecidableEq, Repr

/-- A fetch after an event. -/
structure Fetch.Step (s : Type) where
  fetch : Fetch
  exchange : s
  /-- The response that is handed out, if one is. -/
  block : Option Response

namespace Fetch

variable {s ε : Type} [Exchange s ε]

/-- A fetch that has not been started. -/
def new (request : Request) (peer : Endpoint) (config : BlockTransfer) : Fetch :=
  ⟨request, peer, 0, 0, config, .idle⟩

/-- The fetch in another state. -/
def enter (fetch : Fetch) (state : State) : Fetch := { fetch with state := state }

/-- The fetch with a request that asks for the block expected next. The first block is asked for
by the request as it was given. -/
def aim (fetch : Fetch) : Fetch :=
  if 0 < fetch.blockNum then
    { fetch with
      request :=
        ⟨fetch.request.message.setBlock2 (.new fetch.config.chunkSize fetch.blockNum false)⟩ }
  else fetch

/-- Ask for the block that is expected next. -/
def requestBlock (fetch : Fetch) (exchange : s) : Traced Activity (Fetch × s) := do
  let (id, exchange) := Exchange.nextId exchange
  match ← Exchange.allocate exchange id fetch.peer with
  | (.error e, exchange) =>
    Log.warn ("could not allocate transaction: " ++ e.text)
    pure (fetch.enter (.failed (.transactionUnavailable e)), exchange)
  | (.ok (), exchange) =>
    let fetch := fetch.aim
    match ← Exchange.send exchange id fetch.request with
    | (.error e, exchange) =>
      pure (fetch.enter (.failed (.send e)), Exchange.cancel exchange id)
    | (.ok (), exchange) =>
      Log.trace ("requested block " ++ toString fetch.blockNum.toNat ++ " (mid " ++
        toString id.toNat ++ ")")
      pure (fetch.enter (.awaiting id), exchange)

/-- The number of the block that a response carries, and whether more blocks follow. A response
without a block number that can be read is the first block and the last. -/
def position (resp : Response) : UInt32 × Bool :=
  match resp.message.block2? with
  | some block => (block.num, block.more)
  | none => (0, false)

/-- Count a response as the expected block or as one out of sequence; yields the response if it is
handed out. -/
def count (fetch : Fetch) (resp : Response) : Logged (Fetch × Option Response) :=
  let num := (position resp).1
  if num = fetch.blockNum then
    pure ({ fetch with blockNum := fetch.blockNum + 1 }, some resp)
  else do
    Log.debug ("got block " ++ toString num.toNat ++ " while expecting " ++
      toString fetch.blockNum.toNat)
    pure ({ fetch with blockErrors := fetch.blockErrors + 1 }, none)

/-- Go on after a response has been counted: the fetch fails if too many blocks were out of
sequence, asks for another block if the response says that more follow, and is done otherwise. -/
def proceed (fetch : Fetch) (resp : Response) (exchange : s) : Traced Activity (Fetch × s) :=
  if fetch.config.maxErrors ≤ fetch.blockErrors then
    pure (fetch.enter (.failed .tooManyBlockErrors), exchange)
  else if (position resp).2 then fetch.requestBlock exchange
  else pure (fetch.enter .done, exchange)

/-- Tell a fetch of an event. Events that make no sense where the fetch stands are ignored. -/
def resume (fetch : Fetch) (exchange : s) (event : Event) : Traced Activity (Step s) :=
  match fetch.state, event with
  | .idle, .start => do
    let (fetch, exchange) ← fetch.requestBlock exchange
    pure ⟨fetch, exchange, none⟩
  | .awaiting _, .completed none => do
    Log.debug ("no response for block " ++ toString fetch.blockNum.toNat)
    pure ⟨fetch.enter (.failed .noResponse), exchange, none⟩
  | .awaiting _, .completed (some resp) => do
    let (fetch, block) ← fetch.count resp
    let (fetch, exchange) ← fetch.proceed resp exchange
    pure ⟨fetch, exchange, block⟩
  | _, _ => pure ⟨fetch, exchange, none⟩

/-- Stop waiting, and drop the transaction that was waited for. -/
def abandon (fetch : Fetch) (exchange : s) : Fetch × s :=
  match fetch.state with
  | .awaiting id => (fetch.enter (.failed .noResponse), Exchange.cancel exchange id)
  | _ => (fetch, exchange)

end Fetch

end CoapNode
