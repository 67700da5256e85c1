import CoapNode.Blockwise.Fetch
import CoapNode.Proofs.Message.Block
import CoapNode.Simulation.Exchange
import Mathlib.Tactic.ByContra

set_option autoImplicit false

/-! # What a fetch hands out over a whole session

A session is a fetch together with the exchange it makes its requests through and the responses
it has handed out. It is moved by calls: the fetch is told of an event, or the waiting is
stopped. Nothing is assumed about the order of the calls, the responses, or the exchange.

The history of a session is the list of its *arrivals*: the responses that came in while the
fetch waited for one, each with the number of the block that was expected then. The invariant
`Session.Sound` reads everything a session holds off its history: the blocks that were handed out
are the arrivals in sequence, the error count is the number of the other ones, and as long as the
session is open every arrival has said that more blocks follow. One call preserves it
(`Session.Sound.call`), and hence a run does (`Session.Sound.run`).
-/

namespace CoapNode

/-- The number of the block that a response carries. A response without a block that can be read
counts as block 0. -/
def Response.blockNumber (resp : Response) : Nat :=
  match resp.message.block2? with
  | some block => block.num.toNat
  | none => 0

/-- Does a response end the transfer? It does unless it carries a block and says that more
blocks follow. -/
def Response.endsTransfer (resp : Response) : Bool :=
  match resp.message.block2? with
  | some block => !block.more
  | none => true

namespace Fetch

/-! ## Sessions -/

/-- One call on a fetch. -/
inductive Call where
  /-- The fetch is told of an event. -/
  | resume (event : Event)
  /-- The waiting is stopped. -/
  | abandon
deriving DecidableEq, Repr

/-- A fetch, the exchange it makes its requests through, and what it has handed out so far. -/
structure Session (s : Type) where
  fetch : Fetch
  exchange : s
  /-- The responses that were handed out, first one first. -/
  blocks : List Response

/-- A response that came in while the fetch waited for one. -/
structure Arrival where
  /-- The number of the block that was expected. -/
  expected : Nat
  response : Response
deriving DecidableEq, Repr

/-- Does the response carry the block that was expected? -/
def Arrival.inSequence (a : Arrival) : Bool := a.response.blockNumber == a.expected

namespace Session

variable {s ε : Type} [Exchange s ε]

/-- A session in which nothing has happened yet. -/
def start (request : Request) (peer : Endpoint) (config : BlockTransfer) (x : s) : Session s :=
  ⟨.new request peer config, x, []⟩

/-- The session after a call, and what the exchange did during it. -/
def call (session : Session s) : Call → Traced Activity (Session s)
  | .resume event => do
    let step ← session.fetch.resume session.exchange event
    pure ⟨step.fetch, step.exchange, session.blocks ++ step.block.toList⟩
  | .abandon =>
    let (fetch, exchange) := session.fetch.abandon session.exchange
    pure ⟨fetch, exchange, session.blocks⟩

/-- The session after a list of calls, first call first. -/
def run (session : Session s) : List Call → Traced Activity (Session s)
  | [] => pure session
  | call :: calls => do
    let session ← session.call call
    session.run calls

/-- The arrival that a call is for a session, if the fetch waits and the call brings a response. -/
def arrival? (session : Session s) (call : Call) : Option Arrival :=
  match session.fetch.state, call with
  | .awaiting _, .resume (.completed (some resp)) => some ⟨session.fetch.blockNum.toNat, resp⟩
  | _, _ => none

/-- The arrivals during a list of calls. -/
def arrivals (session : Session s) : List Call → List Arrival
  | [] => []
  | call :: calls => (session.arrival? call).toList ++ arrivals (session.call call).value calls

/-- **Every block was handed out**: the blocks from 0 on, at least one, of which the last one ends
the transfer. -/
def Complete (session : Session s) : Prop :=
  session.blocks.map Response.blockNumber = List.range session.blocks.length
    ∧ session.blocks.getLast?.any Response.endsTransfer = true

instance (session : Session s) : Decidable session.Complete :=
  inferInstanceAs (Decidable (_ ∧ _))

end Session

/-! ## What one step of a fetch can do -/

theorem toNat_position (resp : Response) : (position resp).1.toNat = resp.blockNumber := by
  rw [position, Response.blockNumber]
  cases resp.message.block2? <;> rfl

theorem more_position (resp : Response) : (position resp).2 = !resp.endsTransfer := by
  rw [position, Response.endsTransfer]
  cases resp.message.block2? <;> simp

/-- A block number that can be read has at most twenty bits. -/
theorem blockNumber_lt (resp : Response) : resp.blockNumber < 2 ^ 20 := by
  rw [Response.blockNumber]
  cases hb : resp.message.block2? with
  | none => decide
  | some block => exact Message.num_lt_of_block2? hb

theorem aim_eq (fetch : Fetch) : ∃ request, fetch.aim = { fetch with request := request } := by
  rw [aim]
  split
  · exact ⟨_, rfl⟩
  · exact ⟨fetch.request, rfl⟩

section

variable {s ε : Type} [Exchange s ε]

/-- **Asking for a block ends in one of three ways**: no transaction could be entered, the request
could not be sent, or the fetch waits. -/
theorem requestBlock_cases (fetch : Fetch) (x : s) :
    (∃ e, (fetch.requestBlock x).value.1 = fetch.enter (.failed (.transactionUnavailable e)))
      ∨ (∃ e, (fetch.requestBlock x).value.1 = fetch.aim.enter (.failed (.send e)))
      ∨ (∃ id, (fetch.requestBlock x).value.1 = fetch.aim.enter (.awaiting id)) := by
  rw [requestBlock]
  -- the two refusals are the only places where the exchange has a say
  obtain ⟨id, x⟩ := Exchange.nextId x
  simp only [Traced.value_bind]
  rcases (Exchange.allocate x id fetch.peer).value with ⟨e | _, x⟩
  · exact .inl ⟨e, rfl⟩
  · simp only [Traced.value_bind]
    rcases (Exchange.send x id fetch.aim.request).value with ⟨e | _, x⟩
    · exact .inr (.inl ⟨e, rfl⟩)
    · exact .inr (.inr ⟨id, rfl⟩)

/-- Asking for a block moves the request and the state only, and never finishes the fetch. If it
leaves the fetch open, the fetch has asked for the block that is expected. -/
theorem requestBlock_frame (fetch : Fetch) (x : s) :
    ∃ request state, (fetch.requestBlock x).value.1
        = { fetch with request := request, state := state }
      ∧ state ≠ .done
      ∧ (state.isTerminal = false → request = fetch.aim.request) := by
  obtain ⟨request, haim⟩ := aim_eq fetch
  rcases requestBlock_cases fetch x with ⟨e, h⟩ | ⟨e, h⟩ | ⟨id, h⟩
  · exact ⟨fetch.request, .failed (.transactionUnavailable e), h, nofun, nofun⟩
  · exact ⟨request, .failed (.send e), by rw [h, haim]; rfl, nofun, nofun⟩
  · exact ⟨request, .awaiting id, by rw [h, haim]; rfl, nofun, fun _ => by rw [haim]⟩

/-- Going on after a response moves the request and the state only. The fetch is done after it
exactly if there is room for errors and the response ends the transfer. If it is still open there
is room for errors, more blocks follow, and the fetch has asked for the block that is expected. -/
theorem proceed_frame (fetch : Fetch) (resp : Response) (x : s) :
    ∃ request state, (fetch.proceed resp x).value.1
        = { fetch with request := request, state := state }
      ∧ (state = .done ↔ resp.endsTransfer = true ∧ fetch.blockErrors < fetch.config.maxErrors)
      ∧ (state.isTerminal = false → resp.endsTransfer = false
          ∧ fetch.blockErrors < fetch.config.maxErrors ∧ request = fetch.aim.request) := by
  rw [proceed, more_position]
  -- the budget is looked at first, so a fetch without room for errors fails even at the last block
  by_cases herr : fetch.config.maxErrors ≤ fetch.blockErrors
  · rw [if_pos herr]
    refine ⟨fetch.request, _, rfl, ?_, nofun⟩
    simp [UInt16.not_lt.2 herr]
  · rw [if_neg herr]
    have hroom := UInt16.not_le.1 herr
    cases hends : resp.endsTransfer with
    | true => exact ⟨fetch.request, .done, rfl, by simp [hroom], nofun⟩
    | false =>
        obtain ⟨request, state, h, hne, hreq⟩ := requestBlock_frame fetch x
        exact ⟨request, state, h, by simp [hne], fun ho => ⟨rfl, hroom, hreq ho⟩⟩

/-! ## What one call on a session can do -/

namespace Session

section

variable {session : Session s} {id : MessageId}

theorem call_start (h : session.fetch.state = .idle) :
    (session.call (.resume .start)).value
      = ⟨(session.fetch.requestBlock session.exchange).value.1,
          (session.fetch.requestBlock session.exchange).value.2, session.blocks⟩ := by
  simp [call, resume, h]

theorem call_noResponse (h : session.fetch.state = .awaiting id) :
    (session.call (.resume (.completed none))).value
      = ⟨session.fetch.enter (.failed .noResponse), session.exchange, session.blocks⟩ := by
  simp [call, resume, h]

theorem call_abandon (h : session.fetch.state = .awaiting id) :
    (session.call .abandon).value
      = ⟨session.fetch.enter (.failed .noResponse), Exchange.cancel session.exchange id,
          session.blocks⟩ := by
  simp [call, abandon, h]

/-- The fetch once an arrival has been counted. -/
def counted (fetch : Fetch) (a : Arrival) : Fetch :=
  if a.inSequence then { fetch with blockNum := fetch.blockNum + 1 }
  else { fetch with blockErrors := fetch.blockErrors + 1 }

theorem counted_of_inSequence {fetch : Fetch} {a : Arrival} (h : a.inSequence = true) :
    counted fetch a = { fetch with blockNum := fetch.blockNum + 1 } :=
  if_pos h

theorem counted_of_outOfSequence {fetch : Fetch} {a : Arrival} (h : a.inSequence = false) :
    counted fetch a = { fetch with blockErrors := fetch.blockErrors + 1 } :=
  if_neg (by simp [h])

theorem config_counted (fetch : Fetch) (a : Arrival) : (counted fetch a).config = fetch.config := by
  rw [counted]
  split <;> rfl

theorem count_eq (fetch : Fetch) (resp : Response) :
    (fetch.count resp).value
      = (counted fetch ⟨fetch.blockNum.toNat, resp⟩,
          if (Arrival.mk fetch.blockNum.toNat resp).inSequence then some resp else none) := by
  have hiff : (position resp).1 = fetch.blockNum ↔ resp.blockNumber = fetch.blockNum.toNat := by
    rw [← UInt32.toNat_inj, toNat_position]
  rw [count, counted, Arrival.inSequence]
  by_cases h : (position resp).1 = fetch.blockNum
  · simp [h, hiff.1 h]
  · simp [h, mt hiff.2 h]

theorem call_response {resp : Response} {a : Arrival} (h : session.fetch.state = .awaiting id)
    (ha : a = ⟨session.fetch.blockNum.toNat, resp⟩) :
    (session.call (.resume (.completed (some resp)))).value
      = ⟨((counted session.fetch a).proceed resp session.exchange).value.1,
          ((counted session.fetch a).proceed resp session.exchange).value.2,
          session.blocks ++ if a.inSequence then [resp] else []⟩ := by
  subst ha
  simp only [call, resume, h, Traced.value_bind, Traced.value_pure, count_eq,
    Traced.value_mapTrace, liftM, monadLift, MonadLift.monadLift]
  split <;> rfl

/-- **The calls that a session heeds.** All other calls are ignored: the fetch, the exchange and
the blocks stay as they are, and nothing is said or sent. -/
theorem call_cases (session : Session s) (call : Call) :
    session.call call = pure session
      ∨ (session.fetch.state = .idle ∧ call = .resume .start)
      ∨ (∃ id, session.fetch.state = .awaiting id
          ∧ (call = .abandon ∨ ∃ outcome, call = .resume (.completed outcome))) := by
  obtain ⟨fetch, x, blocks⟩ := session
  cases hstate : fetch.state with
  | awaiting id =>
      cases call with
      | abandon => exact .inr (.inr ⟨id, rfl, .inl rfl⟩)
      | resume event =>
          cases event with
          | start => exact .inl (by simp [Session.call, resume, hstate])
          | completed outcome => exact .inr (.inr ⟨id, rfl, .inr ⟨outcome, rfl⟩⟩)
  | idle =>
      cases call with
      | abandon => exact .inl (by simp [Session.call, abandon, hstate])
      | resume event =>
          cases event with
          | start => exact .inr (.inl ⟨rfl, rfl⟩)
          | completed outcome => exact .inl (by simp [Session.call, resume, hstate])
  | done =>
      cases call with
      | abandon => exact .inl (by simp [Session.call, abandon, hstate])
      | resume event => exact .inl (by simp [Session.call, resume, hstate])
  | failed f =>
      cases call with
      | abandon => exact .inl (by simp [Session.call, abandon, hstate])
      | resume event => exact .inl (by simp [Session.call, resume, hstate])

/-- **A call that is no arrival** hands nothing out and leaves the counters alone. It neither
finishes the fetch nor opens it again. -/
theorem call_frame {call : Call} (h : session.arrival? call = none) :
    ∃ request state x, (session.call call).value
        = ⟨{ session.fetch with request := request, state := state }, x, session.blocks⟩
      ∧ (state = .done → session.fetch.state = .done)
      ∧ (state.isTerminal = false → session.fetch.state.isTerminal = false
          ∧ (request = session.fetch.request ∨ request = session.fetch.aim.request)) := by
  rcases call_cases session call with hstay | ⟨hidle, rfl⟩ | ⟨id, hwait, rfl | ⟨outcome, rfl⟩⟩
  · rw [hstay]
    exact ⟨session.fetch.request, session.fetch.state, session.exchange, rfl, fun hd => hd,
      fun ho => ⟨ho, .inl rfl⟩⟩
  · obtain ⟨request, state, hcall, hne, hreq⟩ :=
      requestBlock_frame session.fetch session.exchange
    rw [call_start hidle, hcall]
    exact ⟨request, state, _, rfl, fun hd => absurd hd hne,
      fun ho => ⟨by rw [hidle]; rfl, .inr (hreq ho)⟩⟩
  · rw [call_abandon hwait]
    exact ⟨session.fetch.request, .failed .noResponse, _, rfl, nofun, nofun⟩
  · cases outcome with
    | none =>
        rw [call_noResponse hwait]
        exact ⟨session.fetch.request, .failed .noResponse, _, rfl, nofun, nofun⟩
    | some resp =>
        -- a response that is waited for is an arrival
        simp [arrival?, hwait] at h

/-- **An arrival** is counted, and handed out if it is in sequence. The fetch was open before it.
It is done after it exactly if there is room for errors and the response ends the transfer, and
if it is still open it has asked for the block that is expected now. -/
theorem call_arrival {call : Call} {a : Arrival} (h : session.arrival? call = some a) :
    a.expected = session.fetch.blockNum.toNat
      ∧ session.fetch.state.isTerminal = false
      ∧ ∃ request state x, (session.call call).value
          = ⟨{ counted session.fetch a with request := request, state := state }, x,
              session.blocks ++ if a.inSequence then [a.response] else []⟩
        ∧ (state = .done ↔ a.response.endsTransfer = true
            ∧ (counted session.fetch a).blockErrors < session.fetch.config.maxErrors)
        ∧ (state.isTerminal = false → a.response.endsTransfer = false
            ∧ (counted session.fetch a).blockErrors < session.fetch.config.maxErrors
            ∧ request = (counted session.fetch a).aim.request) := by
  unfold arrival? at h
  split at h
  · next id resp hwait =>
      simp only [Option.some.injEq] at h
      obtain ⟨request, state, hp, hd, ho⟩ :=
        proceed_frame (counted session.fetch a) resp session.exchange
      rw [config_counted] at hd ho
      rw [call_response hwait h.symm, hp]
      subst h
      exact ⟨rfl, by rw [hwait]; rfl, request, state, _, rfl, hd, ho⟩
  · cases h

end

/-! ## The invariant -/

/-- **A session agrees with its history.** Everything the session holds can be read off the
arrivals so far. -/
structure Sound (session : Session s) (past : List Arrival) : Prop where
  /-- What was handed out are the arrivals in sequence. -/
  blocks_eq : session.blocks = (past.filter Arrival.inSequence).map Arrival.response
  /-- They are numbered from 0 on, without a gap. -/
  numbers : session.blocks.map Response.blockNumber = List.range session.blocks.length
  /-- The expected block is the next one. -/
  next : session.fetch.blockNum.toNat = session.blocks.length
  /-- The errors are the arrivals out of sequence. -/
  errors : session.fetch.blockErrors.toNat = past.countP (!·.inSequence)
  /-- An open fetch has room for errors, unless there were none. -/
  room : session.fetch.state.isTerminal = false →
    session.fetch.blockErrors = 0 ∨ session.fetch.blockErrors < session.fetch.config.maxErrors
  /-- As long as the fetch is open, every arrival has said that more follows. -/
  unfinished : session.fetch.state.isTerminal = false →
    ∀ a ∈ past, a.response.endsTransfer = false
  /-- A fetch that is done had one arrival that ended the transfer: the last one. -/
  finished : session.fetch.state = .done → ∃ before last, past = before ++ [last]
    ∧ last.response.endsTransfer = true ∧ ∀ a ∈ before, a.response.endsTransfer = false

theorem sound_start (request : Request) (peer : Endpoint) (config : BlockTransfer) (x : s) :
    (start request peer config x).Sound [] where
  blocks_eq := rfl
  numbers := rfl
  next := rfl
  errors := rfl
  room := fun _ => .inl rfl
  unfinished := fun _ => nofun
  finished := nofun

/-- The counters never wrap: an expected number that was met has at most twenty bits. -/
theorem toNat_blockNum_succ {fetch : Fetch} {a : Arrival} (ha : a.expected = fetch.blockNum.toNat)
    (hseq : a.inSequence = true) : (fetch.blockNum + 1).toNat = fetch.blockNum.toNat + 1 := by
  have hlt := blockNumber_lt a.response
  have hnum : a.response.blockNumber = fetch.blockNum.toNat := by
    rw [← ha]
    exact beq_iff_eq.1 hseq
  -- a number with twenty bits plus one fits in a word
  rw [UInt32.toNat_add]
  simp only [UInt32.reduceToNat]
  omega

theorem toNat_blockErrors_succ {fetch : Fetch}
    (h : fetch.blockErrors = 0 ∨ fetch.blockErrors < fetch.config.maxErrors) :
    (fetch.blockErrors + 1).toNat = fetch.blockErrors.toNat + 1 := by
  -- an error count below another word does not wrap
  have hmax := fetch.config.maxErrors.toNat_lt
  have hlt : fetch.blockErrors.toNat + 1 < 2 ^ 16 := by
    rcases h with h | h
    · rw [h]
      decide
    · have := UInt16.lt_iff_toNat_lt.1 h
      omega
  rw [UInt16.toNat_add]
  exact Nat.mod_eq_of_lt hlt

/-- **One call keeps a session in agreement with its history.** -/
theorem Sound.call {session : Session s} {past : List Arrival} (h : session.Sound past)
    (call : Call) :
    (session.call call).value.Sound (past ++ (session.arrival? call).toList) := by
  cases ha : session.arrival? call with
  | none =>
      obtain ⟨request, state, x, hcall, hdone, hopen⟩ := call_frame ha
      rw [hcall, Option.toList_none, List.append_nil]
      exact
        { blocks_eq := h.blocks_eq
          numbers := h.numbers
          next := h.next
          errors := h.errors
          room := fun ho => h.room (hopen ho).1
          unfinished := fun ho => h.unfinished (hopen ho).1
          finished := fun hd => h.finished (hdone hd) }
  | some a =>
      -- the last two clauses do not depend on how the arrival is counted
      obtain ⟨hexp, hopen, request, state, x, hcall, hdone, hopen'⟩ := call_arrival ha
      rw [hcall, Option.toList_some]
      have hunfinished : state.isTerminal = false →
          ∀ b ∈ past ++ [a], b.response.endsTransfer = false := by
        intro ho b hb
        rcases List.mem_append.1 hb with hb | hb
        · exact h.unfinished hopen b hb
        · rw [List.mem_singleton.1 hb]
          exact (hopen' ho).1
      have hfinished : state = .done → ∃ before last, past ++ [a] = before ++ [last]
          ∧ last.response.endsTransfer = true ∧ ∀ b ∈ before, b.response.endsTransfer = false :=
        fun hd => ⟨past, a, rfl, (hdone.1 hd).1, h.unfinished hopen⟩
      cases hseq : a.inSequence with
      | true =>
          have hnum : a.response.blockNumber = session.blocks.length := by
            rw [← h.next, ← hexp]
            exact beq_iff_eq.1 hseq
          rw [counted_of_inSequence hseq] at hopen' ⊢
          exact
            { blocks_eq := by simp [h.blocks_eq, hseq]
              numbers := by simp [h.numbers, hnum, List.range_succ]
              next := by simp [toNat_blockNum_succ hexp hseq, h.next]
              errors := by simp [hseq, h.errors]
              room := fun ho => .inr (hopen' ho).2.1
              unfinished := hunfinished
              finished := hfinished }
      | false =>
          rw [counted_of_outOfSequence hseq] at hopen' ⊢
          exact
            { blocks_eq := by simp [h.blocks_eq, hseq]
              numbers := by simp [h.numbers]
              next := by simp [h.next]
              errors := by simp [hseq, toNat_blockErrors_succ (h.room hopen), h.errors]
              room := fun ho => .inr (hopen' ho).2.1
              unfinished := hunfinished
              finished := hfinished }

/-- A run keeps a session in agreement with its history. -/
theorem Sound.run {session : Session s} {past : List Arrival} (h : session.Sound past)
    (calls : List Call) : (session.run calls).value.Sound (past ++ session.arrivals calls) := by
  induction calls generalizing session past with
  | nil =>
      rw [arrivals, List.append_nil]
      exact h
  | cons call calls ih =>
      -- the rest of the run starts with a longer past
      rw [arrivals, ← List.append_assoc]
      exact ih (h.call call)

theorem call_of_isTerminal {session : Session s} (h : session.fetch.state.isTerminal = true)
    (call : Call) : session.call call = pure session := by
  rcases call_cases session call with hstay | ⟨hidle, -⟩ | ⟨id, hwait, -⟩
  · exact hstay
  · rw [hidle] at h
    cases h
  · rw [hwait] at h
    cases h

/-- **A fetch that has ended ignores everything.** Neither the session nor its exchange moves, and
nothing is said or sent. -/
theorem run_of_isTerminal {session : Session s} (h : session.fetch.state.isTerminal = true)
    (calls : List Call) : session.run calls = pure session := by
  induction calls with
  | nil => rfl
  | cons call calls ih =>
      rw [Session.run, call_of_isTerminal h, pure_bind, ih]

theorem call_config (session : Session s) (call : Call) :
    (session.call call).value.fetch.config = session.fetch.config := by
  cases ha : session.arrival? call with
  | none =>
      obtain ⟨request, state, x, hcall, -⟩ := call_frame ha
      rw [hcall]
  | some a =>
      obtain ⟨-, -, request, state, x, hcall, -⟩ := call_arrival ha
      rw [hcall]
      exact config_counted _ _

theorem run_config (session : Session s) (calls : List Call) :
    (session.run calls).value.fetch.config = session.fetch.config := by
  induction calls generalizing session with
  | nil => rfl
  | cons call calls ih => exact (ih _).trans (call_config session call)

theorem run_concat (session : Session s) (calls : List Call) (call : Call) :
    (session.run (calls ++ [call])).value = ((session.run calls).value.call call).value := by
  induction calls generalizing session with
  | nil => rfl
  | cons first calls ih => exact ih (session.call first).value

/-! ## Main results -/

/-- **The blocks come out in order, and every error is counted.** After any calls the responses
that were handed out are the arrivals in sequence. They carry the block numbers `0, …, k - 1`,
where `k` is the number of the block that is expected, and the error count is the number of
arrivals out of sequence. Once the fetch has ended, no further calls hand anything out, use the
exchange or move the fetch. -/
theorem blocks_in_order (request : Request) (peer : Endpoint) (config : BlockTransfer) (x : s)
    (calls : List Call) :
    let session := ((start request peer config x).run calls).value
    let past := (start request peer config x).arrivals calls
    session.blocks = (past.filter Arrival.inSequence).map Arrival.response
      ∧ session.blocks.map Response.blockNumber = List.range session.fetch.blockNum.toNat
      ∧ session.fetch.blockErrors.toNat = past.countP (!·.inSequence)
      ∧ (session.fetch.state.isTerminal = true → ∀ later, session.run later = pure session) := by
  intro session past
  have h : session.Sound ([] ++ past) := (sound_start request peer config x).run calls
  refine ⟨h.blocks_eq, ?_, h.errors, fun hend later => run_of_isTerminal hend later⟩
  rw [h.next]
  exact h.numbers

/-- **A fetch that is done is complete exactly if its last arrival was in sequence.** An arrival
out of sequence finishes an open fetch as soon as it ends the transfer and leaves room for
errors, and then the blocks that were handed out are not all there are. -/
theorem complete_iff_of_done (request : Request) (peer : Endpoint) (config : BlockTransfer) (x : s)
    (calls : List Call) :
    let session := ((start request peer config x).run calls).value
    let past := (start request peer config x).arrivals calls
    (session.fetch.state = .done →
        ∃ last, past.getLast? = some last ∧ last.response.endsTransfer = true
          ∧ (session.Complete ↔ last.inSequence = true))
      ∧ (∀ call a, session.arrival? call = some a → a.inSequence = false →
          ((session.call call).value.fetch.state = .done
            ↔ a.response.endsTransfer = true
              ∧ session.fetch.blockErrors.toNat + 1 < config.maxErrors.toNat)) := by
  intro session past
  have h : session.Sound ([] ++ past) := (sound_start request peer config x).run calls
  have hconfig : session.fetch.config = config := run_config _ _
  constructor
  · intro hdone
    obtain ⟨before, last, hpast, hends, hmore⟩ := h.finished hdone
    rw [List.nil_append] at hpast
    refine ⟨last, by rw [hpast, List.getLast?_concat], hends, ?_⟩
    have hblocks := h.blocks_eq
    rw [List.nil_append, hpast, List.filter_append, List.map_append] at hblocks
    constructor
    · rintro ⟨-, hlast⟩
      by_contra hseq
      -- then every block that was handed out has said that more follows
      have hbefore : session.blocks = (before.filter Arrival.inSequence).map Arrival.response := by
        rw [hblocks]
        simp [hseq]
      obtain ⟨resp, hresp, hend⟩ := (Option.any_eq_true _ _).1 hlast
      have hmem : resp ∈ session.blocks := List.mem_of_getLast? hresp
      rw [hbefore, List.mem_map] at hmem
      obtain ⟨b, hb, rfl⟩ := hmem
      rw [hmore b (List.mem_filter.1 hb).1] at hend
      cases hend
    · -- the numbers are in order in any case, and the last block is the last arrival
      intro hseq
      refine ⟨h.numbers, ?_⟩
      rw [hblocks]
      simp [hseq, hends]
  · intro call a ha hseq
    obtain ⟨-, hopen, request', state, x', hcall, hdone, -⟩ := call_arrival ha
    rw [hcall, hdone, counted_of_outOfSequence hseq, hconfig, UInt16.lt_iff_toNat_lt,
      toNat_blockErrors_succ (h.room hopen)]

/-- The peer of the sample sessions. -/
def samplePeer : Endpoint := ⟨⟨0, 0, 0, 0, 0, 0, 0, 0⟩, 5683, false⟩

/-- A fetch that is told of block 0 and then of block 5 as the last one. -/
def blockMissed : List Call :=
  [.resume .start,
    .resume (.completed (some ((Response.forRequest (.get "big")).setBlock2 (.new 16 0 true)))),
    .resume (.completed (some ((Response.forRequest (.get "big")).setBlock2 (.new 16 5 false))))]

/-- One block out of sequence finishes the fetch, although blocks 1 to 5 never came. -/
theorem done_of_blockMissed :
    let session := ((start (.get "big") samplePeer {}
      (Simulation.ScriptedExchange.mk 1 [] [] [] [])).run blockMissed).value
    session.fetch.state = .done ∧ ¬session.Complete := by
  decide +kernel

end Session

end

end Fetch

end CoapNode
