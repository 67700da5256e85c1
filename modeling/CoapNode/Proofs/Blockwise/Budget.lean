import CoapNode.Blockwise.Client
import CoapNode.Proofs.Blockwise.Session

set_option autoImplicit false

/-! # How long a fetch can last

A peer may answer as it likes: with any block number, and saying that more follows every time. What
ends a fetch nevertheless is its `Fetch.allowance`: the numbers that a block can still have, of
which there are `2 ^ 20`, and the errors for which there is room. A response in sequence uses up a
number and any other one uses up an error, so the allowance decreases with every outcome of a
transaction that a fetch accepts (`Session.allowance_call`), and it is not 0 as long as the fetch is
open (`Fetch.Balanced.allowance_pos`).

The invariant behind this is `Fetch.Balanced`. It also says when the room for errors is used up:
when the number of errors has reached the limit, or if the limit is 0 with the first response,
whatever that is.
-/

namespace CoapNode

namespace Fetch

/-! ## The allowance -/

/-- **What a fetch can still take**: the block numbers that are left, and the errors that are
left. A fetch that has ended takes nothing. -/
def allowance (fetch : Fetch) : Nat :=
  if fetch.state.isTerminal then 0
  else (2 ^ 20 - fetch.blockNum.toNat)
    + (fetch.config.maxErrors.toNat - fetch.blockErrors.toNat)

/-- **The errors of a fetch are accounted for.** -/
structure Balanced (fetch : Fetch) : Prop where
  /-- An open fetch has room for errors, unless nothing has come in yet. -/
  room : fetch.state.isTerminal = false →
    (fetch.blockNum = 0 ∧ fetch.blockErrors = 0) ∨ fetch.blockErrors < fetch.config.maxErrors
  /-- A fetch that has failed for its errors has as many as the limit says, unless that is 0. -/
  spent : fetch.state = .failed .tooManyBlockErrors →
    fetch.config.maxErrors = 0 ∨ fetch.blockErrors = fetch.config.maxErrors

section

variable {fetch : Fetch}

theorem balanced_new (request : Request) (peer : Endpoint) (config : BlockTransfer) :
    (new request peer config).Balanced :=
  ⟨fun _ => .inl ⟨rfl, rfl⟩, nofun⟩

theorem allowance_of_isTerminal (h : fetch.state.isTerminal = true) : fetch.allowance = 0 :=
  if_pos h

theorem allowance_of_open (h : fetch.state.isTerminal = false) :
    fetch.allowance = (2 ^ 20 - fetch.blockNum.toNat)
      + (fetch.config.maxErrors.toNat - fetch.blockErrors.toNat) :=
  if_neg (by simp [h])

/-- An open fetch can take something. -/
theorem Balanced.allowance_pos (h : fetch.Balanced) (hopen : fetch.state.isTerminal = false) :
    0 < fetch.allowance := by
  rw [allowance_of_open hopen]
  rcases h.room hopen with ⟨hnum, -⟩ | hroom
  · rw [hnum]
    exact Nat.add_pos_left (by decide) _
  · have := UInt16.lt_iff_toNat_lt.1 hroom
    omega

theorem Balanced.blockErrors_room (h : fetch.Balanced) (hopen : fetch.state.isTerminal = false) :
    fetch.blockErrors = 0 ∨ fetch.blockErrors < fetch.config.maxErrors :=
  (h.room hopen).imp_left And.right

end

section

variable {s ε : Type} [Exchange s ε]

/-- Asking for a block is no reason to fail for errors. -/
theorem requestBlock_ne_tooManyBlockErrors (fetch : Fetch) (x : s) :
    (fetch.requestBlock x).value.1.state ≠ .failed .tooManyBlockErrors := by
  rcases requestBlock_cases fetch x with ⟨e, h⟩ | ⟨e, h⟩ | ⟨id, h⟩
  all_goals
    rw [h]
    nofun

/-- A fetch fails for its errors exactly if there is no room for more. -/
theorem proceed_tooManyBlockErrors_iff (fetch : Fetch) (resp : Response) (x : s) :
    (fetch.proceed resp x).value.1.state = .failed .tooManyBlockErrors
      ↔ fetch.config.maxErrors ≤ fetch.blockErrors := by
  unfold proceed
  by_cases herr : fetch.config.maxErrors ≤ fetch.blockErrors
  · rw [if_pos herr]
    exact iff_of_true rfl herr
  · rw [if_neg herr]
    refine iff_of_false ?_ herr
    split
    · exact requestBlock_ne_tooManyBlockErrors fetch x
    · nofun

namespace Session

/-! ## What a call uses up -/

/-- Does a call bring the outcome that the fetch waits for, a response or none? -/
def accepts (session : Session s) (call : Call) : Bool :=
  match session.fetch.state, call with
  | .awaiting _, .resume (.completed _) => true
  | _, _ => false

/-- How many outcomes a session accepts during a list of calls. -/
def accepted (session : Session s) : List Call → Nat
  | [] => 0
  | call :: calls => (session.accepts call).toNat + (session.call call).value.accepted calls

variable {session : Session s} {call : Call}

theorem exists_of_accepts (h : session.accepts call = true) :
    ∃ id outcome, session.fetch.state = .awaiting id ∧ call = .resume (.completed outcome) := by
  unfold accepts at h
  split at h
  · next id outcome hwait => exact ⟨id, outcome, hwait, rfl⟩
  · cases h

theorem arrival?_eq_none (h : session.accepts call = false) : session.arrival? call = none := by
  unfold arrival?
  split
  · next id resp hwait => simp [accepts, hwait] at h
  · rfl

/-- **A call makes a fetch fail for its errors** exactly if it is an arrival after which there is no
room for more. -/
theorem call_tooManyBlockErrors_iff (h : session.fetch.state ≠ .failed .tooManyBlockErrors) :
    (session.call call).value.fetch.state = .failed .tooManyBlockErrors
      ↔ ∃ a, session.arrival? call = some a
        ∧ session.fetch.config.maxErrors ≤ (counted session.fetch a).blockErrors := by
  cases ha : session.arrival? call with
  | none =>
      refine iff_of_false ?_ (by simp)
      rcases call_cases session call with hstay | ⟨hidle, rfl⟩ | ⟨id, hwait, rfl | ⟨outcome, rfl⟩⟩
      · rw [hstay]
        exact h
      · rw [call_start hidle]
        exact requestBlock_ne_tooManyBlockErrors _ _
      · rw [call_abandon hwait]
        nofun
      · cases outcome with
        | none =>
            rw [call_noResponse hwait]
            nofun
        | some resp => simp [arrival?, hwait] at ha
  | some a =>
      unfold arrival? at ha
      split at ha
      · next id resp hwait =>
          simp only [Option.some.injEq] at ha
          rw [call_response hwait ha.symm]
          show ((counted session.fetch a).proceed resp session.exchange).value.1.state = _ ↔ _
          rw [proceed_tooManyBlockErrors_iff, config_counted]
          simp
      · cases ha

end Session

end

/-! ## What an arrival uses up -/

section

variable {fetch : Fetch} {a : Arrival}

/-- **The room for errors is used up** by the error that reaches the limit. If the limit is 0, there
is none after any arrival. -/
theorem Balanced.exhausted_iff (h : fetch.Balanced) (hopen : fetch.state.isTerminal = false) :
    fetch.config.maxErrors ≤ (Session.counted fetch a).blockErrors
      ↔ fetch.config.maxErrors = 0
        ∨ a.inSequence = false ∧ fetch.blockErrors.toNat + 1 = fetch.config.maxErrors.toNat := by
  have hzero : fetch.config.maxErrors = 0 ↔ fetch.config.maxErrors.toNat = 0 := by
    rw [← UInt16.toNat_inj]
    rfl
  -- as words the errors are below the limit, or there are none
  have hroom : fetch.blockErrors.toNat = 0
      ∨ fetch.blockErrors.toNat < fetch.config.maxErrors.toNat := by
    rcases h.blockErrors_room hopen with h0 | hlt
    · rw [h0]
      exact .inl rfl
    · exact .inr (UInt16.lt_iff_toNat_lt.1 hlt)
  rw [UInt16.le_iff_toNat_le, hzero]
  cases hseq : a.inSequence with
  | true =>
      rw [Session.counted_of_inSequence hseq]
      show fetch.config.maxErrors.toNat ≤ fetch.blockErrors.toNat ↔ _
      simp only [Bool.true_eq_false, false_and, or_false]
      omega
  | false =>
      rw [Session.counted_of_outOfSequence hseq]
      show fetch.config.maxErrors.toNat ≤ (fetch.blockErrors + 1).toNat ↔ _
      rw [Session.toNat_blockErrors_succ (h.blockErrors_room hopen)]
      simp only [true_and]
      omega

/-- **Every arrival uses up a number or an error**, if the fetch is still open after it. -/
theorem Balanced.allowance_counted (h : fetch.Balanced) (hopen : fetch.state.isTerminal = false)
    (hexp : a.expected = fetch.blockNum.toNat)
    (hroom : (Session.counted fetch a).blockErrors < fetch.config.maxErrors)
    (request : Request) {state : State} (hstate : state.isTerminal = false) :
    1 + ({ Session.counted fetch a with request := request, state := state } : Fetch).allowance
      = fetch.allowance := by
  have hlt := UInt16.lt_iff_toNat_lt.1 hroom
  rw [allowance_of_open hopen, allowance_of_open hstate]
  cases hseq : a.inSequence with
  | true =>
      -- the number that was met has at most twenty bits
      have hnum : fetch.blockNum.toNat < 2 ^ 20 := by
        rw [← hexp, ← beq_iff_eq.1 hseq]
        exact blockNumber_lt a.response
      rw [Session.counted_of_inSequence hseq] at hlt ⊢
      show 1 + ((2 ^ 20 - (fetch.blockNum + 1).toNat)
        + (fetch.config.maxErrors.toNat - fetch.blockErrors.toNat)) = _
      rw [Session.toNat_blockNum_succ hexp hseq]
      omega
  | false =>
      have hsucc := Session.toNat_blockErrors_succ (h.blockErrors_room hopen)
      rw [Session.counted_of_outOfSequence hseq] at hlt ⊢
      replace hlt : (fetch.blockErrors + 1).toNat < fetch.config.maxErrors.toNat := hlt
      show 1 + ((2 ^ 20 - fetch.blockNum.toNat)
        + (fetch.config.maxErrors.toNat - (fetch.blockErrors + 1).toNat)) = _
      rw [hsucc] at hlt ⊢
      omega

end

section

variable {s ε : Type} [Exchange s ε]

namespace Session

/-! ## The errors over a run -/

/-- One call keeps the errors accounted for. -/
theorem balanced_call {session : Session s} (h : session.fetch.Balanced) (call : Call) :
    (session.call call).value.fetch.Balanced := by
  refine ⟨fun hopen => ?_, fun hfail => ?_⟩
  · cases ha : session.arrival? call with
    | none =>
        obtain ⟨request, state, x, hcall, -, hbefore⟩ := call_frame ha
        rw [hcall] at hopen ⊢
        exact h.room (hbefore hopen).1
    | some a =>
        obtain ⟨-, -, request, state, x, hcall, -, hroom⟩ := call_arrival ha
        rw [hcall] at hopen ⊢
        refine .inr ?_
        show (counted session.fetch a).blockErrors < (counted session.fetch a).config.maxErrors
        rw [config_counted]
        exact (hroom hopen).2.1
  · by_cases hbefore : session.fetch.state = .failed .tooManyBlockErrors
    · rw [call_of_isTerminal (by rw [hbefore]; rfl)]
      exact h.spent hbefore
    · obtain ⟨a, ha, hle⟩ := (call_tooManyBlockErrors_iff hbefore).1 hfail
      obtain ⟨-, hopen, request, state, x, hcall, -⟩ := call_arrival ha
      rw [hcall]
      show (counted session.fetch a).config.maxErrors = 0
        ∨ (counted session.fetch a).blockErrors = (counted session.fetch a).config.maxErrors
      rw [config_counted]
      refine ((h.exhausted_iff hopen).1 hle).imp_right fun ⟨hseq, herr⟩ => ?_
      rw [counted_of_outOfSequence hseq, ← UInt16.toNat_inj, ← herr]
      exact toNat_blockErrors_succ (h.blockErrors_room hopen)

theorem balanced_run {session : Session s} (h : session.fetch.Balanced) (calls : List Call) :
    (session.run calls).value.fetch.Balanced := by
  induction calls generalizing session with
  | nil => exact h
  | cons call calls ih => exact ih (balanced_call h call)

/-- **A call decreases the allowance if it is accepted**, and never increases it. -/
theorem allowance_call {session : Session s} (h : session.fetch.Balanced) (call : Call) :
    (session.accepts call).toNat + (session.call call).value.fetch.allowance
      ≤ session.fetch.allowance := by
  cases hacc : session.accepts call with
  | false =>
      obtain ⟨request, state, x, hcall, -, hbefore⟩ := call_frame (arrival?_eq_none hacc)
      rw [hcall]
      show 0 + _ ≤ _
      rw [Nat.zero_add]
      cases hend : state.isTerminal with
      | true =>
          rw [allowance_of_isTerminal hend]
          exact Nat.zero_le _
      | false =>
          -- the counters stay as they are
          exact Nat.le_of_eq
            ((allowance_of_open hend).trans (allowance_of_open (hbefore hend).1).symm)
  | true =>
      obtain ⟨id, outcome, hwait, rfl⟩ := exists_of_accepts hacc
      have hopen : session.fetch.state.isTerminal = false := by
        rw [hwait]
        rfl
      have hpos := h.allowance_pos hopen
      show 1 + _ ≤ _
      cases outcome with
      | none =>
          rw [call_noResponse hwait, allowance_of_isTerminal rfl]
          exact hpos
      | some resp =>
          have ha : session.arrival? (.resume (.completed (some resp)))
              = some ⟨session.fetch.blockNum.toNat, resp⟩ := by
            simp [arrival?, hwait]
          obtain ⟨hexp, -, request, state, x, hcall, -, hroom⟩ := call_arrival ha
          rw [hcall]
          cases hend : state.isTerminal with
          | true =>
              rw [allowance_of_isTerminal hend]
              exact hpos
          | false =>
              exact Nat.le_of_eq
                (h.allowance_counted hopen hexp (hroom hend).2.1 request hend)

/-- **What a run has accepted and what it can still accept** are together not more than what could
be accepted at its start. -/
theorem accepted_add_allowance_le {session : Session s} (h : session.fetch.Balanced)
    (calls : List Call) :
    session.accepted calls + (session.run calls).value.fetch.allowance
      ≤ session.fetch.allowance := by
  induction calls generalizing session with
  | nil =>
      exact Nat.le_of_eq (Nat.zero_add session.fetch.allowance)
  | cons call calls ih =>
      have hfirst := allowance_call h call
      have hrest := ih (balanced_call h call)
      calc session.accepted (call :: calls)
            + (session.run (call :: calls)).value.fetch.allowance
          = (session.accepts call).toNat + ((session.call call).value.accepted calls
              + ((session.call call).value.run calls).value.fetch.allowance) :=
            Nat.add_assoc _ _ _
        _ ≤ (session.accepts call).toNat + (session.call call).value.fetch.allowance :=
            Nat.add_le_add_left hrest _
        _ ≤ session.fetch.allowance := hfirst

/-! ## Main results -/

/-- **A fetch lasts for at most `2 ^ 20 + maxErrors` outcomes.** Whatever the exchange does and
whatever comes in, that many outcomes at most are accepted, fewer as long as the fetch is open.
Neither counter overflows on the way: an arrival in sequence finds a block number that can be
increased, and any other arrival finds a number of errors that can be increased. -/
theorem accepted_le (request : Request) (peer : Endpoint) (config : BlockTransfer) (x : s)
    (calls : List Call) :
    let session := ((start request peer config x).run calls).value
    let accepted := (start request peer config x).accepted calls
    accepted ≤ 2 ^ 20 + config.maxErrors.toNat
      ∧ (session.fetch.state.isTerminal = false → accepted < 2 ^ 20 + config.maxErrors.toNat)
      ∧ ∀ call a, session.arrival? call = some a →
        (a.inSequence = true → session.fetch.blockNum.toNat + 1 < UInt32.size)
          ∧ (a.inSequence = false → session.fetch.blockErrors.toNat + 1 < UInt16.size) := by
  intro session accepted
  have hstart : (start request peer config x).fetch.Balanced := balanced_new request peer config
  have hbalanced : session.fetch.Balanced := balanced_run hstart calls
  have hsum : accepted + session.fetch.allowance ≤ 2 ^ 20 + config.maxErrors.toNat :=
    accepted_add_allowance_le hstart calls
  refine ⟨by omega, fun hopen => ?_, fun call a ha => ?_⟩
  · have hpos := hbalanced.allowance_pos hopen
    omega
  · obtain ⟨hexp, hopen, -⟩ := call_arrival ha
    constructor
    · intro hseq
      rw [← toNat_blockNum_succ hexp hseq]
      exact UInt32.toNat_lt_size _
    · intro _
      rw [← toNat_blockErrors_succ (hbalanced.blockErrors_room hopen)]
      exact UInt16.toNat_lt_size _

/-- **When a fetch fails for its errors.** It enters that state exactly at the arrival out of
sequence that makes the number of errors reach the limit, or, if the limit is 0, at the first
arrival, whether that is in sequence or not. With a limit above 0, a fetch that has failed for its
errors has had exactly that many arrivals out of sequence, and if all arrivals were in sequence it
has not failed for its errors. -/
theorem tooManyBlockErrors_iff (request : Request) (peer : Endpoint) (config : BlockTransfer)
    (x : s) (calls : List Call) :
    let session := ((start request peer config x).run calls).value
    let past := (start request peer config x).arrivals calls
    (session.fetch.state ≠ .failed .tooManyBlockErrors → ∀ call,
        ((session.call call).value.fetch.state = .failed .tooManyBlockErrors
          ↔ ∃ a, session.arrival? call = some a
            ∧ (config.maxErrors = 0
              ∨ a.inSequence = false
                ∧ session.fetch.blockErrors.toNat + 1 = config.maxErrors.toNat)))
      ∧ (config.maxErrors ≠ 0 → session.fetch.state = .failed .tooManyBlockErrors →
          past.countP (!·.inSequence) = config.maxErrors.toNat)
      ∧ (config.maxErrors ≠ 0 → (∀ a ∈ past, a.inSequence = true) →
          session.fetch.state ≠ .failed .tooManyBlockErrors) := by
  intro session past
  have hconfig : session.fetch.config = config := run_config _ _
  have hbalanced : session.fetch.Balanced := balanced_run (balanced_new request peer config) calls
  have hsound : session.Sound ([] ++ past) := (sound_start request peer config x).run calls
  have hcount (hlimit : config.maxErrors ≠ 0)
      (hfail : session.fetch.state = .failed .tooManyBlockErrors) :
      past.countP (!·.inSequence) = config.maxErrors.toNat := by
    have hspent := hbalanced.spent hfail
    rw [hconfig] at hspent
    rw [← hspent.resolve_left hlimit]
    exact hsound.errors.symm
  refine ⟨fun hstate call => ?_, hcount, fun hlimit hseq hfail => ?_⟩
  · rw [call_tooManyBlockErrors_iff hstate, ← hconfig]
    constructor
    · rintro ⟨a, ha, hle⟩
      exact ⟨a, ha, (hbalanced.exhausted_iff (call_arrival ha).2.1).1 hle⟩
    · rintro ⟨a, ha, hspent⟩
      exact ⟨a, ha, (hbalanced.exhausted_iff (call_arrival ha).2.1).2 hspent⟩
  · have hnone : past.countP (!·.inSequence) = 0 := by
      apply List.countP_eq_zero.2
      intro a ha
      simp [hseq a ha]
    rw [hcount hlimit hfail] at hnone
    exact hlimit (UInt16.toNat_inj.1 hnone)

/-- A fetch that is told of a single response, which is the whole representation. -/
def singleResponse : List Call :=
  [.resume .start, .resume (.completed (some (Response.forRequest (.get "big"))))]

/-- With a limit of 0 a fetch fails for its errors although everything came in sequence, and
although the representation has been handed out. -/
theorem failed_of_singleResponse :
    let session := start (.get "big") samplePeer { maxErrors := 0 }
      (Simulation.ScriptedExchange.mk 1 [] [] [] [])
    (∀ a ∈ session.arrivals singleResponse, a.inSequence = true)
      ∧ (session.run singleResponse).value.fetch.state = .failed .tooManyBlockErrors
      ∧ (session.run singleResponse).value.Complete := by
  decide +kernel

end Session

end

end Fetch

/-! ## The loop of a client -/

/-- An exchange that, when it is polled, has the outcome of the transaction or fails. -/
def Exchange.Prompt (s : Type) {ε : Type} [Exchange s ε] : Prop :=
  ∀ (x : s) id, (Exchange.poll x id).value.1 ≠ .ok .inFlight

namespace Client

variable {s ε : Type} [Exchange s ε]

/-- A fetch is driven to its end in as many turns as it can accept outcomes. -/
theorem drive_ne_outOfPatience (hs : Exchange.Prompt s) {fetch : Fetch} (h : fetch.Balanced)
    (x : s) (blocks : List Response) {patience : Nat} (hle : fetch.allowance ≤ patience) :
    (drive fetch x blocks patience).value.result ≠ .error .outOfPatience := by
  induction patience generalizing fetch x blocks with
  | zero =>
      -- nothing can be accepted any more, so the fetch has ended
      unfold drive
      cases hstate : fetch.state with
      | awaiting id =>
          have hpos := h.allowance_pos (by rw [hstate]; rfl)
          omega
      | _ => simp
  | succ patience ih =>
      unfold drive
      cases hstate : fetch.state with
      | awaiting id =>
          have hprompt := hs x id
          simp only [Traced.value_bind]
          generalize (Exchange.poll x id).value = polled at hprompt ⊢
          obtain ⟨_ | _ | outcome, next⟩ := polled
          · simp
          · exact absurd rfl hprompt
          · let session : Fetch.Session s := ⟨fetch, next, blocks⟩
            have hsession : session.fetch.Balanced := h
            have hacc : session.accepts (.resume (.completed outcome)) = true := by
              simp [Fetch.Session.accepts, session, hstate]
            have hless := Fetch.Session.allowance_call hsession (.resume (.completed outcome))
            rw [hacc] at hless
            have hless' : 1 + (fetch.resume next (.completed outcome)).value.fetch.allowance
                ≤ fetch.allowance := hless
            exact ih (Fetch.Session.balanced_call hsession (.resume (.completed outcome))) _ _
              (show (fetch.resume next (.completed outcome)).value.fetch.allowance ≤ _ by omega)
      | _ => simp

/-- **A client comes to an end** in `2 ^ 20 + maxErrors` turns, if it has the patience. -/
theorem send_ne_outOfPatience (hs : Exchange.Prompt s) (x : s) (peer : Endpoint)
    (request : Request) (config : BlockTransfer) {patience : Nat}
    (hle : 2 ^ 20 + config.maxErrors.toNat ≤ patience) :
    (send x peer request config patience).value.result ≠ .error .outOfPatience := by
  let session : Fetch.Session s := .start request peer config x
  have hstart : session.fetch.Balanced := Fetch.balanced_new request peer config
  have hless : (session.accepts (.resume .start)).toNat
      + (session.call (.resume .start)).value.fetch.allowance
        ≤ 2 ^ 20 + config.maxErrors.toNat :=
    Fetch.Session.allowance_call hstart (.resume .start)
  have hless' : ((Fetch.new request peer config).resume x .start).value.fetch.allowance
      ≤ 2 ^ 20 + config.maxErrors.toNat := Nat.le_trans (Nat.le_add_left _ _) hless
  exact drive_ne_outOfPatience hs (Fetch.Session.balanced_call hstart (.resume .start)) _ _
    (Nat.le_trans hless' hle)

end Client

end CoapNode
