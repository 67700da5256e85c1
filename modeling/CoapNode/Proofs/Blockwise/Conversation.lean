import CoapNode.Proofs.Blockwise.Transfer

set_option autoImplicit false

/-! # A fetch and a server alone

The loop is closed: the exchange never refuses a request (`Exchange.Reliable`), and each request
that is sent is answered by a server with one representation (`Session.converse`). If both sides
use blocks of the same size, such a conversation comes to its end after as many requests as the
representation has blocks, and it hands out the representation.

While the conversation lasts, `Session.Underway` says which block is waited for. One answer
moves it to the next block or to the end (`Underway.answered`).
-/

namespace CoapNode.Fetch

/-! ## The number of blocks -/

/-- The number of requests that a representation of `length` bytes takes in blocks of `size`
bytes: one for each block, but at least one. -/
def blockCount (length size : Nat) : Nat := max 1 ((length + size - 1) / size)

theorem lt_blockCount {length size n : Nat} (hsize : 0 < size) :
    n < blockCount length size ↔ n = 0 ∨ n * size < length := by
  have hdiv : n < (length + size - 1) / size ↔ n * size < length := by
    have hle : n + 1 ≤ (length + size - 1) / size ↔ (n + 1) * size ≤ length + size - 1 :=
      Nat.le_div_iff_mul_le hsize
    rw [Nat.add_mul] at hle
    omega
  rw [blockCount, lt_max_iff, hdiv]
  omega

theorem blockCount_le {length size : Nat} (h : length ≤ 2 ^ 20 * size) :
    blockCount length size ≤ 2 ^ 20 := by
  rw [blockCount, max_le_iff]
  refine ⟨by decide, ?_⟩
  rcases Nat.eq_zero_or_pos size with rfl | hsize
  · simp
  · rw [← Nat.lt_succ_iff, Nat.div_lt_iff_lt_mul hsize, Nat.succ_mul]
    omega

namespace Session

variable {s ε : Type} [Exchange s ε]

/-- **A conversation**: the fetch is started, and then it is given `n` answers, each to the
request that was sent last. -/
def converse (serve : Request → Response) (session : Session (Recorder s)) :
    Nat → Session (Recorder s)
  | 0 => (session.call (.resume .start)).value
  | n + 1 =>
    let session := session.converse serve n
    match session.exchange.sent.getLast? with
    | some req => (session.call (.resume (.completed (some (serve req))))).value
    | none => session

/-- **The conversation is underway**: the fetch has asked for block `n` and waits for it. -/
structure Underway (config : BlockTransfer) (full : Bytes) (n : Nat)
    (session : Session (Recorder s)) : Prop where
  transfers : session.Transfers config (Block.validSize config.chunkSize).toNat full
  waiting : ∃ id, session.fetch.state = .awaiting id
  blocks : session.blocks.length = n
  sent : session.exchange.sent.length = n + 1

/-- Through a reliable exchange, a fetch with room for errors is done after a response that ends
the transfer, and otherwise it asks for the next block and waits for it. -/
theorem proceed_reliable (hs : Exchange.Reliable s) (fetch : Fetch) (resp : Response)
    (x : Recorder s) (hroom : fetch.blockErrors < fetch.config.maxErrors) :
    if resp.endsTransfer then (fetch.proceed resp x).value = (fetch.enter .done, x)
    else ∃ id, (fetch.proceed resp x).value.1 = fetch.aim.enter (.awaiting id)
      ∧ (fetch.proceed resp x).value.2.sent.length = x.sent.length + 1 := by
  rw [proceed, if_neg (UInt16.not_le.2 hroom), more_position]
  cases resp.endsTransfer with
  | true => rfl
  | false =>
      obtain ⟨id, hfetch, hsent⟩ := requestBlock_reliable hs fetch x
      refine ⟨id, hfetch, ?_⟩
      show (fetch.requestBlock x).value.2.sent.length = x.sent.length + 1
      rw [hsent, List.length_append, List.length_singleton]

section

variable {config : BlockTransfer} {chunkSize : UInt16} {full : Bytes} {n : Nat}
  {session : Session (Recorder s)} {req : Request}

/-- What arrives while block `n` is waited for is that block, and nothing else has arrived yet. -/
theorem Underway.arrival (h : session.Underway config full n)
    (hsize : Block.validSize config.chunkSize = Block.validSize chunkSize) (hn : n < 2 ^ 20)
    (hreq : session.exchange.sent.getLast? = some req) {a : Arrival}
    (ha : a = ⟨session.fetch.blockNum.toNat, Reply.serve chunkSize full req⟩) :
    session.fetch.blockErrors = 0
      ∧ a.inSequence = true
      ∧ a.response.endsTransfer
        = decide (full.length ≤ (n + 1) * (Block.validSize config.chunkSize).toNat) := by
  obtain ⟨id, hwait⟩ := h.waiting
  obtain ⟨hconfig, ⟨past, hsound⟩, hasks, hwaits, hfollows⟩ := h.transfers
  -- the server saw the request that the fetch holds
  have hfetch : req = session.fetch.request := by
    rw [hwaits id hwait] at hreq
    exact (Option.some.inj hreq).symm
  have hopen : session.fetch.state.isTerminal = false := by
    rw [hwait]
    rfl
  have hexp : a.expected = session.fetch.blockNum.toNat := by rw [ha]
  have hresp : a.response = Reply.serve chunkSize full session.fetch.request := by rw [ha, hfetch]
  have hstep : session.blocks.length = 0
      ∨ (Block.validSize config.chunkSize).toNat ≤ (Block.validSize config.chunkSize).toNat
        ∧ session.blocks.length < 2 ^ 20 :=
    .inr ⟨Nat.le_refl _, by rw [h.blocks]; exact hn⟩
  obtain ⟨hseq, -, hends⟩ := hfollows.arrival_inStep (by rw [hconfig])
    (congrArg UInt16.toNat hsize.symm) hsound hasks hopen hexp hresp hstep
  rw [h.blocks, sliceEnd_self] at hends
  exact ⟨hfollows.blockErrors_eq hopen hstep, hseq, hends⟩

/-- **One answer** moves the conversation to the next block, or to its end. -/
theorem Underway.answered (h : session.Underway config full n) (hs : Exchange.Reliable s)
    (hsize : Block.validSize config.chunkSize = Block.validSize chunkSize)
    (herr : 1 ≤ config.maxErrors) (hn : n < 2 ^ 20)
    (hreq : session.exchange.sent.getLast? = some req) {next : Session (Recorder s)}
    (hnext : next = (session.call
      (.resume (.completed (some (Reply.serve chunkSize full req))))).value) :
    if full.length ≤ (n + 1) * (Block.validSize config.chunkSize).toNat then
      next.fetch.state = .done ∧ next.exchange.sent.length = n + 1 ∧ next.payload = full
    else next.Underway config full (n + 1) := by
  obtain ⟨id, hwait⟩ := h.waiting
  have hserver := congrArg UInt16.toNat hsize.symm
  obtain ⟨hnone, hseq, hends⟩ := h.arrival hsize hn hreq rfl
  have harrival : session.arrival? (.resume (.completed (some (Reply.serve chunkSize full req))))
      = some ⟨session.fetch.blockNum.toNat, Reply.serve chunkSize full req⟩ := by
    simp [arrival?, hwait]
  have htransfers : next.Transfers config (Block.validSize config.chunkSize).toNat full := by
    rw [hnext]
    refine h.transfers.call hserver fun a ha => ?_
    rw [harrival] at ha
    rw [hreq, ← Option.some.inj ha]
    rfl
  -- the block is counted and handed out, and then the fetch goes on with room for errors
  rw [call_response hwait rfl, counted_of_inSequence hseq, if_pos hseq] at hnext
  have hroom : session.fetch.blockErrors < session.fetch.config.maxErrors := by
    rw [hnone, h.transfers.config_eq, UInt16.lt_iff_toNat_lt]
    exact UInt16.le_iff_toNat_le.1 herr
  have hproceed := proceed_reliable hs
    { session.fetch with blockNum := session.fetch.blockNum + 1 }
    (Reply.serve chunkSize full req) session.exchange hroom
  simp only [hends, decide_eq_true_eq] at hproceed
  split
  · next hend =>
      rw [if_pos hend] at hproceed
      rw [hproceed] at hnext
      have hdone : next.fetch.state = .done := by
        rw [hnext]
        rfl
      refine ⟨hdone, ?_, ?_⟩
      · rw [hnext]
        exact h.sent
      · obtain ⟨hiff, hpayload⟩ := htransfers.follows.finished hdone
        rw [hpayload (hiff.2 (.inl (Nat.le_refl _))), List.take_append_drop, ite_self]
  · next hmore =>
      rw [if_neg hmore] at hproceed
      obtain ⟨id', hfetch, hsent⟩ := hproceed
      refine
        { transfers := htransfers
          waiting := ⟨id', ?_⟩
          blocks := ?_
          sent := ?_ }
      · rw [hnext, hfetch]
        rfl
      · rw [hnext, List.length_append, h.blocks]
        rfl
      · rw [hnext, hsent, h.sent]

end

section

variable {request : Request} {peer : Endpoint} {config : BlockTransfer} {x : s}
  {chunkSize : UInt16} {full : Bytes}

theorem underway_start (hs : Exchange.Reliable s) (hinit : request.message.block2? = none)
    (serve : Request → Response) :
    ((start request peer config ⟨x, []⟩).converse serve 0).Underway config full 0 := by
  obtain ⟨id, hfetch, hsent⟩ := requestBlock_reliable hs (.new request peer config) ⟨x, []⟩
  have hcall : (start request peer config (Recorder.mk x [])).converse serve 0
      = ⟨((Fetch.new request peer config).requestBlock (Recorder.mk x [])).value.1,
          ((Fetch.new request peer config).requestBlock (Recorder.mk x [])).value.2, []⟩ :=
    call_start rfl
  refine
    { transfers := ?_
      waiting := ⟨id, by rw [hcall, hfetch]; rfl⟩
      blocks := by rw [hcall]; rfl
      sent := by rw [hcall, hsent]; rfl }
  exact (transfers_start peer config ⟨x, []⟩ _ full hinit).call
    (Eq.refl (Block.validSize config.chunkSize).toNat) nofun

/-- A conversation that has come to its end stays there. -/
theorem converse_of_isTerminal {session : Session (Recorder s)} {serve : Request → Response}
    {n m : Nat} (hle : n ≤ m) (h : (session.converse serve n).fetch.state.isTerminal = true) :
    session.converse serve m = session.converse serve n := by
  induction m, hle using Nat.le_induction with
  | base => rfl
  | succ m hle ih =>
      rw [converse, ih]
      split
      · rw [call_of_isTerminal h]
        rfl
      · rfl

theorem Underway.converse_succ {session : Session (Recorder s)} {serve : Request → Response}
    {n m : Nat} (h : (session.converse serve m).Underway config full n) :
    ∃ req, (session.converse serve m).exchange.sent.getLast? = some req
      ∧ session.converse serve (m + 1)
        = ((session.converse serve m).call (.resume (.completed (some (serve req))))).value := by
  obtain ⟨id, hwait⟩ := h.waiting
  have hreq := h.transfers.waits id hwait
  refine ⟨_, hreq, ?_⟩
  rw [converse]
  simp only [hreq]

theorem underway_converse (hs : Exchange.Reliable s) (hinit : request.message.block2? = none)
    (hsize : Block.validSize config.chunkSize = Block.validSize chunkSize)
    (hlen : full.length ≤ 2 ^ 20 * (Block.validSize config.chunkSize).toNat)
    (herr : 1 ≤ config.maxErrors) {n : Nat}
    (hn : n < blockCount full.length (Block.validSize config.chunkSize).toNat) :
    ((start request peer config ⟨x, []⟩).converse (Reply.serve chunkSize full) n).Underway
      config full n := by
  have hpos := Block.validSize_pos config.chunkSize
  have hmax := blockCount_le hlen
  induction n with
  | zero => exact underway_start hs hinit _
  | succ n ih =>
      -- block `n + 1` is among the blocks, so the answer with block `n` is not the last one
      have hmore := (lt_blockCount hpos).1 hn
      have hunderway := ih (by omega)
      obtain ⟨req, hreq, hnext⟩ := hunderway.converse_succ
      have hanswered := hunderway.answered hs hsize herr (by omega) hreq hnext
      rw [if_neg (by omega)] at hanswered
      exact hanswered

/-! ## Main result -/

/-- **Nothing is lost between equal sizes.** A fetch whose first request asks for no particular
block talks to a server that uses blocks of the same size, through an exchange that never refuses
a request. As long as there are blocks left the fetch waits for an answer; once it has been given
as many answers as there are blocks, it is done, it has sent that many requests, and it has handed
out the representation. -/
theorem payload_of_converse (hs : Exchange.Reliable s) (hinit : request.message.block2? = none)
    (hsize : Block.validSize config.chunkSize = Block.validSize chunkSize)
    (hlen : full.length ≤ 2 ^ 20 * (Block.validSize config.chunkSize).toNat)
    (herr : 1 ≤ config.maxErrors) :
    let session := (start request peer config ⟨x, []⟩).converse (Reply.serve chunkSize full)
    let count := blockCount full.length (Block.validSize config.chunkSize).toNat
    (∀ n < count, (∃ id, (session n).fetch.state = .awaiting id)
        ∧ (session n).exchange.sent.length = n + 1)
      ∧ ∀ n, count ≤ n → (session n).fetch.state = .done
        ∧ (session n).exchange.sent.length = count
        ∧ (session n).payload = full := by
  intro session count
  have hpos := Block.validSize_pos config.chunkSize
  have hmax : count ≤ 2 ^ 20 := blockCount_le hlen
  have hunderway : ∀ n < count, (session n).Underway config full n :=
    fun n hn => underway_converse hs hinit hsize hlen herr hn
  refine ⟨fun n hn => ⟨(hunderway n hn).waiting, (hunderway n hn).sent⟩, fun n hn => ?_⟩
  -- the answer to the last request ends the conversation
  have hcount : 0 < count := (lt_blockCount hpos).2 (.inl rfl)
  obtain ⟨last, hlast⟩ := Nat.exists_eq_add_one_of_ne_zero (Nat.ne_of_gt hcount)
  have hlast' := hunderway last (by omega)
  obtain ⟨req, hreq, hnext⟩ := hlast'.converse_succ
  have hend : ¬last + 1 < count := by omega
  rw [lt_blockCount hpos] at hend
  have hanswered := hlast'.answered hs hsize herr (by omega) hreq hnext
  rw [if_pos (by omega), ← hlast] at hanswered
  have hstay : session n = session count :=
    converse_of_isTerminal hn (by rw [hanswered.1]; rfl)
  rw [hstay]
  exact hanswered

/-- Blocks of 20 bytes, which are rounded down to 16, and the first error is one too many. -/
def roundedConfig : BlockTransfer := ⟨20, 1⟩

/-- Three answers are enough for the 40 bytes of `sample` in blocks of 16 bytes. -/
theorem payload_converse_sample :
    Exchange.Reliable OpenExchange
      ∧ (Request.get "big").message.block2? = none
      ∧ Block.validSize roundedConfig.chunkSize = Block.validSize 16
      ∧ sample.length ≤ 2 ^ 20 * (Block.validSize roundedConfig.chunkSize).toNat
      ∧ 1 ≤ roundedConfig.maxErrors
      ∧ ((start (.get "big") samplePeer roundedConfig ⟨OpenExchange.mk 0, []⟩).converse
            (Reply.serve 16 sample) 3).payload = sample := by
  have hs : Exchange.Reliable OpenExchange := reliable_openExchange
  have hinit : (Request.get "big").message.block2? = none := by decide +kernel
  have hsize : Block.validSize roundedConfig.chunkSize = Block.validSize 16 := by decide +kernel
  have hlen : sample.length ≤ 2 ^ 20 * (Block.validSize roundedConfig.chunkSize).toNat := by
    decide +kernel
  have herr : 1 ≤ roundedConfig.maxErrors := by decide
  have hcount : blockCount sample.length (Block.validSize roundedConfig.chunkSize).toNat ≤ 3 := by
    decide +kernel
  exact ⟨hs, hinit, hsize, hlen, herr,
    ((payload_of_converse hs hinit hsize hlen herr).2 3 hcount).2.2⟩

end

end Session

end CoapNode.Fetch
