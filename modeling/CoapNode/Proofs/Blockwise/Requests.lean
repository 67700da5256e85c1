import CoapNode.Proofs.Blockwise.Session

set_option autoImplicit false

/-! # What a fetch asks for

To speak about the requests of a fetch its exchange is wrapped in a `Recorder`, which passes every
call on and remembers the requests that it was handed for sending. Two facts hold in every
session from its start on.

* A fetch that waits has sent its current request last (`Session.Waits`).
* The Block2 option of that request, as a server reads it, is a function of the block that is
  expected (`asked`, `Session.Asks`): the option of the original request as long as that is
  block 0, the block of that number at the fixed size afterwards, and nothing that could be read
  from number `2 ^ 20` on.
-/

namespace CoapNode

/-- An exchange that remembers the requests it was handed for sending. -/
structure Recorder (s : Type) where
  inner : s
  /-- The requests, first one first. -/
  sent : List Request

instance {s ε : Type} [Exchange s ε] : Exchange (Recorder s) ε where
  nextId x := ((Exchange.nextId x.inner).1, ⟨(Exchange.nextId x.inner).2, x.sent⟩)
  allocate x id peer := do
    let (result, inner) ← Exchange.allocate x.inner id peer
    pure (result, ⟨inner, x.sent⟩)
  send x id req := do
    let (result, inner) ← Exchange.send x.inner id req
    pure (result, ⟨inner, x.sent ++ [req]⟩)
  poll x id := do
    let (result, inner) ← Exchange.poll x.inner id
    pure (result, ⟨inner, x.sent⟩)
  cancel x id := ⟨Exchange.cancel x.inner id, x.sent⟩

/-- An exchange that never refuses a request. -/
structure Exchange.Reliable (s : Type) {ε : Type} [Exchange s ε] : Prop where
  allocate : ∀ (x : s) id peer, (Exchange.allocate x id peer).value.1 = .ok ()
  send : ∀ (x : s) id req, (Exchange.send x id req).value.1 = .ok ()

/-- An exchange that hands out message ids in turn and never refuses a request. Nothing comes in
through it. -/
structure OpenExchange where
  counter : MessageId

instance : Exchange OpenExchange String where
  nextId x := (x.counter, ⟨x.counter + 1⟩)
  allocate x _ _ := pure (.ok (), x)
  send x _ _ := pure (.ok (), x)
  poll x _ := pure (.error "nothing comes in", x)
  cancel x _ := x

theorem reliable_openExchange : Exchange.Reliable OpenExchange where
  allocate := fun _ _ _ => rfl
  send := fun _ _ _ => rfl

namespace Fetch

/-! ## The request for a block -/

/-- The Block2 option of a request, as a server reads it, when block `num` is expected; `initial`
is that of the original request. -/
def asked (config : BlockTransfer) (initial : Option Block) (num : UInt32) : Option Block :=
  if num = 0 then initial
  else if num.toNat < 2 ^ 20 then some (.new config.chunkSize num false) else none

theorem block2?_aim {fetch : Fetch} {initial : Option Block} (hnum : fetch.blockNum.toNat < 2 ^ 28)
    (hinit : fetch.blockNum = 0 → fetch.request.message.block2? = initial) :
    fetch.aim.request.message.block2? = asked fetch.config initial fetch.blockNum := by
  rw [aim, asked]
  by_cases h0 : fetch.blockNum = 0
  · rw [if_neg (by rw [h0]; decide), if_pos h0]
    exact hinit h0
  · have hpos : 0 < fetch.blockNum := by
      rw [UInt32.lt_iff_toNat_lt]
      exact Nat.pos_of_ne_zero (fun h => h0 (UInt32.toNat_inj.1 h))
    rw [if_pos hpos, if_neg h0, Message.block2?_setBlock2]
    simp only [Block.raw_new_lt _ _ hnum]

section

variable {s ε : Type} [Exchange s ε]

/-- What is remembered when a fetch asks for a block: the request it aims at, unless no
transaction could be entered for it. -/
theorem requestBlock_recorded (fetch : Fetch) (x : Recorder s) :
    (∃ e, (fetch.requestBlock x).value.1 = fetch.enter (.failed (.transactionUnavailable e))
        ∧ (fetch.requestBlock x).value.2.sent = x.sent)
      ∨ (∃ e, (fetch.requestBlock x).value.1 = fetch.aim.enter (.failed (.send e))
        ∧ (fetch.requestBlock x).value.2.sent = x.sent ++ [fetch.aim.request])
      ∨ (∃ id, (fetch.requestBlock x).value.1 = fetch.aim.enter (.awaiting id)
        ∧ (fetch.requestBlock x).value.2.sent = x.sent ++ [fetch.aim.request]) := by
  rw [requestBlock]
  simp only [Exchange.nextId, Exchange.allocate, Exchange.send, Exchange.cancel,
    Traced.value_bind, Traced.value_pure]
  rcases (Exchange.allocate (Exchange.nextId x.inner).2 (Exchange.nextId x.inner).1
    fetch.peer).value with ⟨e | _, y⟩
  · exact .inl ⟨e, rfl, rfl⟩
  · simp only [Traced.value_bind, Traced.value_pure]
    rcases (Exchange.send y (Exchange.nextId x.inner).1 fetch.aim.request).value with ⟨e | _, y⟩
    · exact .inr (.inl ⟨e, rfl, rfl⟩)
    · exact .inr (.inr ⟨_, rfl, rfl⟩)

/-- Through a reliable exchange the request is always sent. -/
theorem requestBlock_reliable (hs : Exchange.Reliable s) (fetch : Fetch) (x : Recorder s) :
    ∃ id, (fetch.requestBlock x).value.1 = fetch.aim.enter (.awaiting id)
      ∧ (fetch.requestBlock x).value.2.sent = x.sent ++ [fetch.aim.request] := by
  rw [requestBlock]
  simp only [Exchange.nextId, Exchange.allocate, Exchange.send, Exchange.cancel,
    Traced.value_bind, Traced.value_pure]
  have halloc := hs.allocate (Exchange.nextId x.inner).2 (Exchange.nextId x.inner).1 fetch.peer
  rcases h : (Exchange.allocate (Exchange.nextId x.inner).2 (Exchange.nextId x.inner).1
    fetch.peer).value with ⟨e | _, y⟩
  · rw [h] at halloc
    cases halloc
  · simp only [Traced.value_bind, Traced.value_pure]
    have hsend := hs.send y (Exchange.nextId x.inner).1 fetch.aim.request
    rcases h : (Exchange.send y (Exchange.nextId x.inner).1 fetch.aim.request).value
      with ⟨e | _, y⟩
    · rw [h] at hsend
      cases hsend
    · exact ⟨_, rfl, rfl⟩

namespace Session

/-! ## The request of an open fetch -/

/-- The block that is expected is at most number `2 ^ 20`. -/
theorem Sound.length_le {session : Session s} {past : List Arrival} (h : session.Sound past) :
    session.blocks.length ≤ 2 ^ 20 := by
  by_contra hlen
  have hmem : 2 ^ 20 ∈ session.blocks.map Response.blockNumber := by
    rw [h.numbers, List.mem_range]
    omega
  obtain ⟨resp, -, hresp⟩ := List.mem_map.1 hmem
  have hlt := blockNumber_lt resp
  omega

/-- An open fetch holds the request for the block that is expected. -/
def Asks (initial : Option Block) (session : Session s) : Prop :=
  session.fetch.state.isTerminal = false →
    session.fetch.request.message.block2?
      = asked session.fetch.config initial session.fetch.blockNum

theorem Asks.call {session : Session s} {past : List Arrival} {initial : Option Block}
    (hasks : session.Asks initial) (h : session.Sound past) (call : Call) :
    (session.call call).value.Asks initial := by
  have hle := h.length_le
  have hnext := h.next
  cases ha : session.arrival? call with
  | none =>
      obtain ⟨request, state, x, hcall, -, hopen⟩ := call_frame ha
      rw [hcall]
      intro ho
      -- without an arrival the expected block stays the same
      obtain ⟨hbefore, rfl | rfl⟩ := hopen ho
      · exact hasks hbefore
      · refine block2?_aim (by omega) fun h0 => ?_
        rw [hasks hbefore, asked, if_pos h0]
  | some a =>
      obtain ⟨hexp, hbefore, request, state, x, hcall, -, hopen⟩ := call_arrival ha
      rw [hcall]
      intro ho
      obtain ⟨-, -, rfl⟩ := hopen ho
      show (counted session.fetch a).aim.request.message.block2?
        = asked (counted session.fetch a).config initial (counted session.fetch a).blockNum
      cases hseq : a.inSequence with
      | true =>
          have hsucc := toNat_blockNum_succ hexp hseq
          rw [counted_of_inSequence hseq]
          refine block2?_aim (by rw [hsucc]; omega) fun h0 => ?_
          -- the number of the next block is not 0
          rw [show session.fetch.blockNum + 1 = 0 from h0] at hsucc
          simp at hsucc
      | false =>
          have hlt : session.fetch.blockNum.toNat < 2 ^ 28 := by omega
          rw [counted_of_outOfSequence hseq]
          refine block2?_aim hlt fun h0 => ?_
          show session.fetch.request.message.block2? = initial
          rw [hasks hbefore, asked, if_pos h0]

/-- **A fetch that waits has sent its request last.** -/
def Waits (session : Session (Recorder s)) : Prop :=
  ∀ id, session.fetch.state = .awaiting id →
    session.exchange.sent.getLast? = some session.fetch.request

theorem waits_of_isTerminal {session : Session (Recorder s)}
    (h : session.fetch.state.isTerminal = true) : session.Waits := by
  intro id hwait
  rw [hwait] at h
  cases h

theorem waits_requestBlock (fetch : Fetch) (x : Recorder s) (blocks : List Response) :
    (⟨(fetch.requestBlock x).value.1, (fetch.requestBlock x).value.2, blocks⟩ :
      Session (Recorder s)).Waits := by
  intro id hwait
  rcases requestBlock_recorded fetch x with ⟨e, h, -⟩ | ⟨e, h, -⟩ | ⟨id', h, hsent⟩
  · simp only [h] at hwait
    cases hwait
  · simp only [h] at hwait
    cases hwait
  · simp only [h, hsent, List.getLast?_concat]
    rfl

theorem Waits.call {session : Session (Recorder s)} (h : session.Waits) (call : Call) :
    (session.call call).value.Waits := by
  rcases call_cases session call with hstay | ⟨hidle, rfl⟩ | ⟨id, hwait, rfl | ⟨outcome, rfl⟩⟩
  · rw [hstay]
    exact h
  · rw [call_start hidle]
    exact waits_requestBlock _ _ _
  · rw [call_abandon hwait]
    exact waits_of_isTerminal rfl
  · cases outcome with
    | none =>
        rw [call_noResponse hwait]
        exact waits_of_isTerminal rfl
    | some resp =>
        rw [call_response hwait rfl, proceed]
        split
        · exact waits_of_isTerminal rfl
        · split
          · exact waits_requestBlock _ _ _
          · exact waits_of_isTerminal rfl

end Session

end

end Fetch

end CoapNode
