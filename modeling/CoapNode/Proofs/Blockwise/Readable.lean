import CoapNode.Proofs.Blockwise.Requests

set_option autoImplicit false

/-! # Requests that can be read

A fetch asks for a later block by setting the Block2 option of the request that it holds. The option
replaces the one before it, so every request that is sent is the original one with at most that
option changed (`Fetch.numbered`, `Fetch.Varies`). Whether a server can read the option is another
matter: the value has at most three bytes as long as the number of the block has at most twenty
bits. The number that is expected never exceeds `2 ^ 20` (`Session.Sound.length_le`), but it gets
there if block `2 ^ 20 - 1` says that more follows, and the request that is sent then carries an
option that nobody can read (`Session.unreadable_longRun`).
-/

namespace CoapNode

namespace Fetch

/-! ## The request for a block -/

/-- The request for block `num`: the original one for block 0, and otherwise the original one with
that block in its Block2 option. -/
def numbered (config : BlockTransfer) (original : Request) (num : UInt32) : Request :=
  if num = 0 then original
  else ⟨original.message.setBlock2 (.new config.chunkSize num false)⟩

section

variable (config : BlockTransfer) (original : Request) {num : UInt32}

/-- The request for a block is the original one but for its options. -/
theorem rest_numbered (num : UInt32) :
    { (numbered config original num).message with options := original.message.options }
      = original.message := by
  unfold numbered
  split <;> rfl

/-- Of the options only the block is another one. -/
theorem values_numbered (num : UInt32) {n : UInt32} (hn : n ≠ Options.block2) :
    (numbered config original num).message.options.values n
      = original.message.options.values n := by
  unfold numbered
  by_cases h0 : num = 0
  · rw [if_pos h0]
  · rw [if_neg h0]
    show (original.message.options.set Options.block2 _).values n = _
    rw [Options.values_set, if_neg (Ne.symm hn)]

/-- The block that a server reads, if the number has at most twenty bits. -/
theorem block2?_numbered (h0 : num ≠ 0) (hlt : num.toNat < 2 ^ 28) :
    (numbered config original num).message.block2?
      = if num.toNat < 2 ^ 20 then some (.new config.chunkSize num false) else none := by
  unfold numbered
  rw [if_neg h0, Message.block2?_setBlock2]
  simp only [Block.raw_new_lt _ _ hlt]

end

/-- **A fetch varies the block only**: it holds the original request or one that differs from it in
the Block2 option. As long as block 0 is expected it is the original one. -/
structure Varies (original : Request) (fetch : Fetch) : Prop where
  request : fetch.request = original
    ∨ ∃ b, fetch.request = ⟨original.message.setBlock2 b⟩
  first : fetch.blockNum = 0 → fetch.request = original

section

variable {original : Request} {fetch : Fetch}

theorem Varies.enter (h : fetch.Varies original) (state : State) :
    (fetch.enter state).Varies original :=
  ⟨h.request, h.first⟩

/-- Aiming at the block that is expected makes the numbered request of it. -/
theorem Varies.request_aim (h : fetch.Varies original) :
    fetch.aim.request = numbered fetch.config original fetch.blockNum := by
  unfold aim numbered
  by_cases h0 : fetch.blockNum = 0
  · rw [if_neg (by rw [h0]; decide), if_pos h0]
    exact h.first h0
  · have hpos : 0 < fetch.blockNum := by
      rw [UInt32.lt_iff_toNat_lt]
      exact Nat.pos_of_ne_zero (fun hz => h0 (UInt32.toNat_inj.1 hz))
    rw [if_pos hpos, if_neg h0]
    show (⟨fetch.request.message.setBlock2 _⟩ : Request) = _
    rcases h.request with hsame | ⟨b, hb⟩
    · rw [hsame]
    · rw [hb, Message.setBlock2_setBlock2]

theorem Varies.aim (h : fetch.Varies original) : fetch.aim.Varies original := by
  have hrequest := h.request_aim
  obtain ⟨request, haim⟩ := aim_eq fetch
  rw [haim] at hrequest ⊢
  replace hrequest : request = numbered fetch.config original fetch.blockNum := hrequest
  unfold numbered at hrequest
  by_cases h0 : fetch.blockNum = 0
  · rw [if_pos h0] at hrequest
    exact ⟨.inl hrequest, fun _ => hrequest⟩
  · rw [if_neg h0] at hrequest
    exact ⟨.inr ⟨_, hrequest⟩, fun hz => absurd hz h0⟩

/-- Counting an arrival changes no request, and behind a block in sequence block 0 is not expected
any more. -/
theorem Varies.counted (h : fetch.Varies original) {a : Arrival}
    (ha : a.expected = fetch.blockNum.toNat) : (Session.counted fetch a).Varies original := by
  cases hseq : a.inSequence with
  | true =>
      have hsucc := Session.toNat_blockNum_succ ha hseq
      rw [Session.counted_of_inSequence hseq]
      refine ⟨h.request, fun h0 => ?_⟩
      rw [show fetch.blockNum + 1 = 0 from h0] at hsucc
      simp at hsucc
  | false =>
      rw [Session.counted_of_outOfSequence hseq]
      exact ⟨h.request, h.first⟩

end

section

variable {s ε : Type} [Exchange s ε] {original : Request}

/-- **A step sends at most one request**, and that is the numbered request of the block that is
expected afterwards. -/
structure Sends (original : Request) (fetch : Fetch) (x : Recorder s)
    (next : Fetch × Recorder s) : Prop where
  config : next.1.config = fetch.config
  varies : next.1.Varies original
  sent : next.2.sent = x.sent
    ∨ next.2.sent = x.sent ++ [numbered fetch.config original next.1.blockNum]

theorem sends_self {fetch : Fetch} (h : fetch.Varies original) (state : State) (x : Recorder s) :
    Sends original fetch x (fetch.enter state, x) :=
  ⟨rfl, h.enter state, .inl rfl⟩

theorem sends_requestBlock {fetch : Fetch} (h : fetch.Varies original) (x : Recorder s) :
    Sends original fetch x (fetch.requestBlock x).value := by
  obtain ⟨request, haim⟩ := aim_eq fetch
  have hnum : fetch.aim.blockNum = fetch.blockNum := by rw [haim]
  have hconfig : fetch.aim.config = fetch.config := by rw [haim]
  rcases requestBlock_recorded fetch x with ⟨e, hf, hx⟩ | ⟨e, hf, hx⟩ | ⟨id, hf, hx⟩
  · refine ⟨?_, ?_, .inl hx⟩
    · rw [hf]
      rfl
    · rw [hf]
      exact h.enter _
  all_goals
    refine ⟨?_, ?_, .inr ?_⟩
    · rw [hf]
      exact hconfig
    · rw [hf]
      exact h.aim.enter _
    · rw [hx, hf, h.request_aim]
      show _ = x.sent ++ [numbered fetch.config original fetch.aim.blockNum]
      rw [hnum]

theorem sends_proceed {fetch : Fetch} (h : fetch.Varies original) (resp : Response)
    (x : Recorder s) : Sends original fetch x (fetch.proceed resp x).value := by
  unfold proceed
  split
  · exact sends_self h _ x
  · split
    · exact sends_requestBlock h x
    · exact sends_self h _ x

namespace Session

/-- **One call sends at most the request for the block that is expected after it.** -/
theorem sends_call {session : Session (Recorder s)} (h : session.fetch.Varies original)
    (call : Call) :
    Sends original session.fetch session.exchange
      ((session.call call).value.fetch, (session.call call).value.exchange) := by
  rcases call_cases session call with hstay | ⟨hidle, rfl⟩ | ⟨id, hwait, rfl | ⟨outcome, rfl⟩⟩
  · rw [hstay]
    exact ⟨rfl, h, .inl rfl⟩
  · rw [call_start hidle]
    exact sends_requestBlock h session.exchange
  · rw [call_abandon hwait]
    exact ⟨rfl, h.enter _, .inl rfl⟩
  · cases outcome with
    | none =>
        rw [call_noResponse hwait]
        exact sends_self h _ _
    | some resp =>
        rw [call_response hwait rfl]
        -- the block that is expected has changed before the request is made
        have hsends := sends_proceed (h.counted (a := ⟨session.fetch.blockNum.toNat, resp⟩) rfl)
          resp session.exchange
        exact ⟨hsends.config.trans (config_counted _ _), hsends.varies,
          config_counted session.fetch _ ▸ hsends.sent⟩

theorem varies_start (request : Request) (peer : Endpoint) (config : BlockTransfer)
    (x : Recorder s) : (start request peer config x).fetch.Varies request :=
  ⟨.inl rfl, fun _ => rfl⟩

/-- A fetch varies the block only over a whole run. -/
theorem varies_run {session : Session (Recorder s)} (h : session.fetch.Varies original)
    (calls : List Call) : (session.run calls).value.fetch.Varies original := by
  induction calls generalizing session with
  | nil => exact h
  | cons call calls ih => exact ih (sends_call h call).varies

/-! ## Main result -/

/-- **What a server reads in the requests of a fetch.** A call hands at most one request to the
exchange. It differs from the original request in no part but the Block2 option, and as long as
block 0 is expected not even there. The block that is expected is at most number `2 ^ 20`. If it is
a later block than 0 and below that bound, the request carries a block that can be read, with that
number, without "more", in the size of the configuration. At the bound itself the request carries
nothing that can be read. -/
theorem requests_readable (request : Request) (peer : Endpoint) (config : BlockTransfer)
    (x : Recorder s) (calls : List Call) (call : Call) :
    let before := ((start request peer config x).run calls).value
    let after := (before.call call).value
    let num := after.fetch.blockNum
    num.toNat ≤ 2 ^ 20
      ∧ ∃ sent, after.exchange.sent = before.exchange.sent ++ sent ∧ sent.length ≤ 1
        ∧ ∀ req ∈ sent,
          { req.message with options := request.message.options } = request.message
          ∧ (∀ n, n ≠ Options.block2 →
              req.message.options.values n = request.message.options.values n)
          ∧ (num = 0 → req = request)
          ∧ (0 < num.toNat → num.toNat < 2 ^ 20 →
              ∃ b, req.message.block2? = some b ∧ b.num = num ∧ b.more = false
                ∧ b.size = Block.validSize config.chunkSize)
          ∧ (num.toNat = 2 ^ 20 → req.message.block2? = none) := by
  intro before after num
  have hvaries : before.fetch.Varies request :=
    varies_run (varies_start request peer config x) calls
  have hconfig : before.fetch.config = config := run_config _ _
  have hsound : after.Sound _ := ((sound_start request peer config x).run calls).call call
  have hbound : num.toNat ≤ 2 ^ 20 := by
    rw [hsound.next]
    exact hsound.length_le
  refine ⟨hbound, ?_⟩
  obtain ⟨-, -, hsent⟩ := sends_call hvaries call
  rw [hconfig] at hsent
  rcases hsent with hnone | hone
  · exact ⟨[], by rw [List.append_nil]; exact hnone, Nat.zero_le 1, nofun⟩
  · refine ⟨[numbered config request num], hone, Nat.le_refl 1, ?_⟩
    intro req hreq
    rw [List.mem_singleton.1 hreq]
    have hread (hpos : 0 < num.toNat) :
        (numbered config request num).message.block2?
          = if num.toNat < 2 ^ 20 then some (.new config.chunkSize num false) else none := by
      apply block2?_numbered config request _ (by omega)
      intro h0
      rw [h0] at hpos
      cases hpos
    refine ⟨rest_numbered config request num, fun n hn => values_numbered config request num hn,
      fun h0 => if_pos h0, fun hpos hlt => ?_, fun hlast => ?_⟩
    · have hlt' : num.toNat < 2 ^ 28 := Nat.lt_trans hlt (by decide)
      refine ⟨.new config.chunkSize num false, ?_, Block.num_new _ _ hlt', Block.more_new _ _ hlt',
        Block.size_new _ _ hlt'⟩
      rw [hread hpos, if_pos hlt]
    · rw [hread (by omega), if_neg (by omega)]

/-! ## A transfer with too many blocks -/

/-- Block `num` of a long representation. -/
def longBlock (num : Nat) : Response :=
  (Response.forRequest (.get "big")).setBlock2 (.new 16 (UInt32.ofNat num) true)

theorem blockNumber_longBlock {num : Nat} (h : num < 2 ^ 20) :
    (longBlock num).blockNumber = num ∧ (longBlock num).endsTransfer = false := by
  have hnum : (UInt32.ofNat num).toNat = num := by
    rw [UInt32.toNat_ofNat']
    exact Nat.mod_eq_of_lt (by omega)
  have hlt : (UInt32.ofNat num).toNat < 2 ^ 28 := by omega
  have hread : (longBlock num).message.block2? = some (.new 16 (UInt32.ofNat num) true) := by
    show ((Response.forRequest (.get "big")).message.setBlock2 _).block2? = _
    rw [Message.block2?_setBlock2, if_pos ((Block.raw_new_lt _ _ hlt).2 (by omega))]
  constructor
  · rw [Response.blockNumber, hread]
    show (Block.new _ _ _).num.toNat = num
    rw [Block.num_new _ _ hlt, hnum]
  · rw [Response.endsTransfer, hread]
    show (!(Block.new _ _ _).more) = false
    rw [Block.more_new _ _ hlt]
    rfl

/-- **Blocks come in sequence**: the fetch waits for block `num`, and nothing was out of sequence. -/
structure Advances (num : Nat) (session : Session (Recorder s)) : Prop where
  waiting : ∃ id, session.fetch.state = .awaiting id
  next : session.fetch.blockNum.toNat = num
  room : session.fetch.blockErrors < session.fetch.config.maxErrors

theorem advances_requestBlock (hs : Exchange.Reliable s) (fetch : Fetch)
    (hroom : fetch.blockErrors < fetch.config.maxErrors) (x : Recorder s)
    (blocks : List Response) :
    (⟨(fetch.requestBlock x).value.1, (fetch.requestBlock x).value.2, blocks⟩ :
      Session (Recorder s)).Advances fetch.blockNum.toNat := by
  obtain ⟨id, hfetch, -⟩ := requestBlock_reliable hs fetch x
  obtain ⟨request, haim⟩ := aim_eq fetch
  rw [haim] at hfetch
  rw [hfetch]
  exact ⟨⟨id, rfl⟩, rfl, hroom⟩

/-- Through a reliable exchange, each block of a long representation is followed by a request for
the next one. -/
theorem Advances.call (hs : Exchange.Reliable s) {session : Session (Recorder s)} {num : Nat}
    (h : session.Advances num) (hnum : num < 2 ^ 20) :
    let after := (session.call (.resume (.completed (some (longBlock num))))).value
    after.Advances (num + 1) ∧ after.exchange.sent ≠ session.exchange.sent := by
  obtain ⟨id, hwait⟩ := h.waiting
  obtain ⟨hblock, hmore⟩ := blockNumber_longBlock hnum
  have hseq : (Arrival.mk session.fetch.blockNum.toNat (longBlock num)).inSequence = true := by
    rw [Arrival.inSequence, hblock, h.next]
    exact beq_self_eq_true num
  have hsucc : (session.fetch.blockNum + 1).toNat = num + 1 := by
    rw [toNat_blockNum_succ rfl hseq, h.next]
  rw [call_response hwait rfl, counted_of_inSequence hseq, proceed,
    if_neg (UInt16.not_le.2 h.room), more_position, hmore, if_pos (show (!false) = true from rfl)]
  constructor
  · rw [← hsucc]
    exact advances_requestBlock hs
      { session.fetch with blockNum := session.fetch.blockNum + 1 } h.room session.exchange _
  · obtain ⟨-, -, hsent⟩ := requestBlock_reliable hs
      { session.fetch with blockNum := session.fetch.blockNum + 1 } session.exchange
    rw [hsent]
    simp

/-- A run over the first `num` blocks of a long representation. -/
def longRun (num : Nat) : List Call :=
  .resume .start :: (List.range num).map fun k => .resume (.completed (some (longBlock k)))

theorem longRun_succ (num : Nat) :
    longRun (num + 1) = longRun num ++ [.resume (.completed (some (longBlock num)))] := by
  rw [longRun, List.range_succ, List.map_append]
  rfl

theorem advances_longRun (hs : Exchange.Reliable s) (request : Request) (peer : Endpoint)
    {config : BlockTransfer} (hroom : 0 < config.maxErrors) (x : Recorder s) {num : Nat}
    (hnum : num ≤ 2 ^ 20) :
    ((start request peer config x).run (longRun num)).value.Advances num := by
  induction num with
  | zero =>
      show ((start request peer config x).call (.resume .start)).value.Advances 0
      rw [call_start rfl]
      exact advances_requestBlock hs (.new request peer config) hroom x []
  | succ num ih =>
      rw [longRun_succ, run_concat]
      exact ((ih (by omega)).call hs (by omega)).1

/-- **The block behind the last one cannot be asked for.** Block `2 ^ 20 - 1` comes in sequence and
says that more follows. Then one more request is sent, which carries no block that can be read. -/
theorem unreadable_longRun (hs : Exchange.Reliable s) (request : Request) (peer : Endpoint)
    {config : BlockTransfer} (hroom : 0 < config.maxErrors) (x : Recorder s) {num : Nat}
    (hnum : num + 1 = 2 ^ 20) :
    let before := ((start request peer config x).run (longRun num)).value
    let after := (before.call (.resume (.completed (some (longBlock num))))).value
    ∃ req, after.exchange.sent = before.exchange.sent ++ [req]
      ∧ after.fetch.blockNum.toNat = 2 ^ 20
      ∧ req.message.block2? = none := by
  intro before after
  have hbefore : before.Advances num := advances_longRun hs request peer hroom x (by omega)
  obtain ⟨hafter, hgrown⟩ := hbefore.call hs (by omega)
  have hnext : after.fetch.blockNum.toNat = 2 ^ 20 := hafter.next.trans hnum
  have hvaries : before.fetch.Varies request := varies_run (varies_start request peer config x) _
  obtain ⟨-, -, hsent⟩ := sends_call hvaries (.resume (.completed (some (longBlock num))))
  refine ⟨_, hsent.resolve_left hgrown, hnext, ?_⟩
  show (numbered _ _ after.fetch.blockNum).message.block2? = none
  have h0 : after.fetch.blockNum ≠ 0 := by
    intro h0
    rw [h0] at hnext
    cases hnext
  rw [block2?_numbered _ _ h0 (by omega), if_neg (by omega)]

/-- An exchange that never refuses a request, and to which no request has been handed. -/
def sampleOpen : Recorder OpenExchange := ⟨⟨1⟩, []⟩

/-- In the standard configuration, `2 ^ 20` responses lead to a request that cannot be read. -/
theorem unreadable_sampleOpen :
    let before := ((start (.get "big") samplePeer {} sampleOpen).run (longRun 1048575)).value
    let after := (before.call (.resume (.completed (some (longBlock 1048575))))).value
    ∃ req, after.exchange.sent = before.exchange.sent ++ [req]
      ∧ after.fetch.blockNum.toNat = 2 ^ 20
      ∧ req.message.block2? = none :=
  unreadable_longRun reliable_openExchange (.get "big") samplePeer (by decide) sampleOpen
    (by decide)

end Session

end

end Fetch

end CoapNode
