import CoapNode.Config
import CoapNode.Transaction.Basic
import CoapNode.Transaction.Slots

set_option autoImplicit false

/-! # The table of transactions

The table holds the transactions that are outstanding, with room for a fixed number of them, and
chooses message ids and tokens. No two transactions in it have the same message id: an id that
is in use is neither chosen nor accepted.
-/

namespace CoapNode

/-- Why a transaction could not be entered. -/
inductive AllocError where
  /-- All places are taken. -/
  | full
  /-- The message id is in use. -/
  | inUse
deriving DecidableEq, Repr

/-- The name of an error. -/
def AllocError.text : AllocError → String
  | .full => "Full"
  | .inUse => "InUse"

/-- Why a transaction could not be sent. A request can always be written as bytes. -/
inductive SendError where
  /-- There is no such transaction. -/
  | unknown
  /-- The clock could not be read to start the retry timer. -/
  | clock
  /-- The retry timer has no delay to choose from. -/
  | delay (e : DelayError)
deriving DecidableEq, Repr

/-- The name of an error. -/
def SendError.text : SendError → String
  | .unknown => "Unknown"
  | .clock => "Clock"
  | .delay .emptyRange => Text.tagged "Delay" "EmptyRange"

/-- The complaint about the retry strategy, if that is the cause of an error. -/
def SendError.delay? : SendError → Option DelayError
  | .delay e => some e
  | _ => none

/-- The outstanding transactions. -/
structure TransactionTable where
  /-- How many transactions there is room for. -/
  capacity : Nat
  slots : Slots Transaction
  /-- The message id to try next. -/
  counter : MessageId
  random : Random
deriving DecidableEq, Repr

namespace TransactionTable

/-- An empty table; the seed decides about its message ids and tokens. -/
def new (capacity : Nat) (seed : UInt64) : TransactionTable :=
  let (counter, random) := (Random.ofSeed seed).half
  ⟨capacity, [], counter, random⟩

/-- The transactions in the table. -/
def live (table : TransactionTable) : List Transaction := table.slots.occupants

/-- The number of transactions in the table. -/
def size (table : TransactionTable) : Nat := table.live.length

/-- The transaction with a message id. -/
def get? (table : TransactionTable) (id : MessageId) : Option Transaction :=
  table.slots.find? (·.id == id)

/-! ## Message ids and tokens -/

/-- The first message id from `id` on that is not in use, if there is one among `tries` ids. -/
def freeId (used : List MessageId) (id : MessageId) : Nat → MessageId
  | 0 => id
  | tries + 1 => if id ∈ used then freeId used (id + 1) tries else id

/-- Choose a message id that no transaction in the table uses. As many ids are passed over as
there are transactions, at most. -/
def nextId (table : TransactionTable) : MessageId × TransactionTable :=
  let id := freeId (table.live.map (·.id)) table.counter table.size
  (id, { table with counter := id + 1 })

/-- The number of bytes of a chosen token. -/
def tokenLength : Nat := 4

/-- Choose a token. -/
def nextToken (table : TransactionTable) : Token × TransactionTable :=
  (⟨(table.random.bytes tokenLength).1, by rw [Random.length_bytes]; decide⟩,
    { table with random := (table.random.bytes tokenLength).2 })

/-! ## The life of a transaction -/

/-- Enter a transaction for a request to a peer. -/
def allocate (table : TransactionTable) (id : MessageId) (peer : Endpoint) :
    Logged (Except AllocError Unit × TransactionTable) :=
  if (table.get? id).isSome then do
    Log.warn ("transaction " ++ toString id.toNat ++ " already live")
    pure (.error .inUse, table)
  else
    match table.slots.insert? table.capacity (.new id peer) with
    | some slots => pure (.ok (), { table with slots := slots })
    | none => do
      Log.warn ("transaction table full (" ++ toString table.capacity ++ " live)")
      pure (.error .full, table)

/-- Send a request as the transaction with a message id, and start its retry timer. A
transaction that has been sent before starts anew. -/
def send (table : TransactionTable) (id : MessageId) (msg : Message) (con : Con) (now : Millis) :
    Traced Activity (Except SendError Unit × TransactionTable) :=
  match table.get? id with
  | none => pure (.error .unknown, table)
  | some t =>
    match RetryTimer.new now con.unacked con.maxAttempts with
    | .error e => pure (.error (.delay e), table)
    | .ok retry => do
      let packet := { msg with id := id }.encode
      Log.debug ("sending transaction " ++ toString id.toNat ++ " to " ++ t.peer.text)
      Traced.emit (.deliver t.peer packet)
      pure (.ok (), { table with
        slots := table.slots.update (·.id == id) (some (t.sent msg.token packet retry)) })

end TransactionTable

/-- What a message that is awaited makes of a transaction. A reset ends it without a response,
an acknowledgement without a code is waited on, and any other message is the response. -/
def Transaction.receive (t : Transaction) (msg : Message) (con : Con) (now : Millis) :
    Logged (Except DelayError Transaction) :=
  if msg.kind = .reset then do
    Log.debug (t.line "reset by peer")
    pure (.ok (t.complete none))
  else if msg.kind = .ack ∧ msg.code.isEmpty then do
    Log.trace (t.line "acked")
    pure ((RetryTimer.new now con.acked con.maxAttempts).map t.acknowledge)
  else do
    Log.debug (t.line ("got " ++ msg.summary))
    pure (.ok (t.complete (some ⟨msg⟩)))

/-- What a moment makes of a transaction: its packet may be due again, or it may have to be given
up. Packets that were acknowledged are not sent again. -/
def Transaction.poll (now : Millis) (t : Transaction) : Traced Activity Transaction :=
  match t.status, t.retry? with
  | .pending, some retry =>
    match retry.poll now with
    | (.wait, _) => pure t
    | (.retry, retry) => do
      if !t.acked then
        Log.debug ("retransmitting " ++ toString t.id.toNat ++ " (attempt " ++
          toString retry.attempts.toNat ++ ")")
        Traced.emit (.deliver t.peer t.packet)
      pure { t with retry? := some retry }
    | (.giveUp, _) => do
      Log.warn (t.line ("to " ++ t.peer.text ++ " never answered"))
      pure (t.complete none)
  | _, _ => pure t

namespace TransactionTable

/-- Match a message against the transactions whose answers are awaited, and credit it to the
first one that it answers; yields the id of that transaction. -/
def onResponse (table : TransactionTable) (msg : Message) (con : Con) (now : Millis) :
    Logged (Except DelayError (Option MessageId × TransactionTable)) :=
  match table.slots.find? (·.awaits msg) with
  | none => pure (.ok (none, table))
  | some t => do
    match ← t.receive msg con now with
    | .error e => pure (.error e)
    | .ok t' =>
      pure (.ok (some t.id, { table with slots := table.slots.update (·.awaits msg) (some t') }))

/-- Retransmit what is due, and give up what has no attempts left. -/
def pollRetransmit (table : TransactionTable) (now : Millis) :
    Traced Activity TransactionTable := do
  let slots ← Traced.each
    (fun slot => match slot with
      | none => pure none
      | some t => do
        let t ← t.poll now
        pure (some t))
    table.slots
  pure { table with slots := slots }

/-- Take the outcome of a transaction out of the table, if it is over. -/
def take (table : TransactionTable) (id : MessageId) : Completion × TransactionTable :=
  match table.get? id with
  | none => (.done none, table)
  | some t =>
    match t.status with
    | .complete outcome =>
      (.done outcome, { table with slots := table.slots.update (·.id == id) none })
    | _ => (.inFlight, table)

/-- Drop a transaction, whether it is over or not. -/
def cancel (table : TransactionTable) (id : MessageId) : TransactionTable :=
  { table with slots := table.slots.erase (·.id == id) }

end TransactionTable

end CoapNode
