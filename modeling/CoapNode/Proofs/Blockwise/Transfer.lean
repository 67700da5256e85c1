import CoapNode.Proofs.Blockwise.Requests
import CoapNode.Proofs.Resource.Reply
import Mathlib.Tactic.Ring

set_option autoImplicit false

/-! # Fetching what a server serves

A fetch and a server that keeps one representation (`Reply.serve`) are put together: every
response that comes in while the fetch waits is the answer of the server to the request that was
sent last (`Session.Served`).

The two sides count blocks in units of their own. The first request names no block size, so the
server sends as much as *it* puts into one message; from then on the fetch asks for block `k` at
*its* size. What is handed out as block `k` is therefore `slice full client server k`, and the
slices fit together without gap or overlap exactly if both sizes are equal.
-/

namespace CoapNode.Fetch

/-! ## Slices -/

/-- What a fetch with blocks of `client` bytes is given as block `k` by a server with blocks of
`server` bytes, if the server's blocks are not the smaller ones. -/
def slice (full : Bytes) (client server : Nat) : Nat → Bytes
  | 0 => full.take server
  | k + 1 => (full.drop ((k + 1) * client)).take client

/-- Where slice `k` ends, or would end if the representation went on. -/
def sliceEnd (client server : Nat) : Nat → Nat
  | 0 => server
  | k + 1 => (k + 2) * client

theorem mul_le_sliceEnd {client server : Nat} (h : client ≤ server) (k : Nat) :
    (k + 1) * client ≤ sliceEnd client server k := by
  cases k with
  | zero =>
      show (0 + 1) * client ≤ server
      omega
  | succ k => exact Nat.le_refl _

theorem sliceEnd_self (size k : Nat) : sliceEnd size size k = (k + 1) * size := by
  cases k with
  | zero =>
      show size = (0 + 1) * size
      omega
  | succ k => rfl

/-- The first slice has the size of the server's blocks, and the others continue behind the
front that has the size of the client's. -/
theorem flatMap_slice (full : Bytes) (client server k : Nat) :
    (List.range (k + 1)).flatMap (slice full client server)
      = full.take server ++ (full.drop client).take (k * client) := by
  induction k with
  | zero => simp [slice]
  | succ k ih =>
      have hdrop : (full.drop client).drop (k * client) = full.drop ((k + 1) * client) := by
        rw [List.drop_drop]
        congr 1
        ring
      rw [List.range_succ, List.flatMap_append, ih, List.append_assoc,
        show (k + 1) * client = k * client + client by ring, List.take_add, hdrop]
      simp [slice]

/-- **All slices together**, once the end of the representation is reached. A representation that
does not fit in one block of the server loses nothing, but if the client's blocks are the smaller
ones, the bytes between the two sizes come twice. -/
theorem flatMap_slice_of_le {full : Bytes} {client server k : Nat}
    (hk : 0 < k → server < full.length) (h : full.length ≤ sliceEnd client server k) :
    (List.range (k + 1)).flatMap (slice full client server)
      = if full.length ≤ server then full else full.take server ++ full.drop client := by
  rw [flatMap_slice]
  cases k with
  | zero =>
      -- the first slice ends with a block of the server, whatever the client's size is
      have hfit : full.length ≤ server := h
      rw [if_pos hfit, Nat.zero_mul, List.take_zero, List.append_nil]
      exact List.take_of_length_le hfit
  | succ k =>
      have hlong := hk (by omega)
      have hend : full.length ≤ (k + 1) * client + client := by
        have : (k + 2) * client = (k + 1) * client + client := by ring
        rw [← this]
        exact h
      have hall : (full.drop client).length ≤ (k + 1) * client := by
        rw [List.length_drop]
        omega
      rw [if_neg (by omega), List.take_of_length_le hall]

/-! ## The answers of the server -/

section

variable {chunkSize : UInt16} {config : BlockTransfer} {req : Request} {num : UInt32}
  {client server : Nat} (full : Bytes) (hclient : (Block.validSize config.chunkSize).toNat = client)
  (hserver : (Block.validSize chunkSize).toNat = server)

include hserver

/-- The front of the representation is block 0, and it ends the transfer if it is all there is. -/
theorem serve_front (h : req.message.block2? = none) :
    (Reply.serve chunkSize full req).blockNumber = 0
      ∧ (Reply.serve chunkSize full req).message.payload = full.take server
      ∧ (Reply.serve chunkSize full req).endsTransfer = decide (full.length ≤ server) := by
  rw [Response.blockNumber, Response.endsTransfer, Reply.block2?_serve_front h,
    Reply.payload_serve_front h, hserver]
  by_cases hlt : server < full.length
  · rw [if_pos hlt]
    refine ⟨?_, rfl, ?_⟩
    · show (Block.new _ 0 true).num.toNat = 0
      rw [Block.num_new _ _ (by decide)]
      rfl
    · show (!(Block.new _ 0 true).more) = _
      rw [Block.more_new _ _ (by decide)]
      simpa using hlt
  · rw [if_neg hlt]
    exact ⟨rfl, rfl, by simpa using hlt⟩

include hclient

/-- A block that begins inside the representation is numbered in units of the smaller one of the
two sizes. -/
theorem serve_inside (h : req.message.block2? = some (.new config.chunkSize num false))
    (hnum : num.toNat < 2 ^ 20) (hpos : 0 < num.toNat) (hlt : num.toNat * client < full.length)
    {size : Nat} (hsize : size = min client server) (hread : num.toNat * client / size < 2 ^ 20) :
    (Reply.serve chunkSize full req).blockNumber = num.toNat * client / size
      ∧ (Reply.serve chunkSize full req).message.payload
        = (full.drop (num.toNat * client)).take size
      ∧ (Reply.serve chunkSize full req).endsTransfer
        = decide (full.length ≤ num.toNat * client + size) := by
  have hoff : (Block.new config.chunkSize num false).offset.toNat = num.toNat * client := by
    rw [Block.offset_new config.chunkSize false hnum, hclient]
  have hbsize : (Block.new config.chunkSize num false).size.toNat = client := by
    rw [Block.size_new _ _ (by omega), hclient]
  have hbegin : 0 < num.toNat * client :=
    Nat.mul_pos hpos (hclient ▸ Block.validSize_pos _)
  rw [← hoff] at hlt hread hbegin ⊢
  rw [← hbsize, ← hserver] at hsize
  obtain ⟨b, hb, hbnum, hbmore⟩ := Reply.block2?_serve_inside h hbegin hlt hsize hread
  refine ⟨?_, ?_, ?_⟩
  · rw [Response.blockNumber, hb]
    exact hbnum
  · rw [Reply.payload_serve_inside h hbegin hlt, hsize]
  · rw [Response.endsTransfer, hb]
    simp only [hbmore, ← decide_not, Nat.not_lt]

/-- **In step.** If the server's blocks are not the smaller ones, the answer to the request for
the block that is expected is that slice, and it ends the transfer exactly if the slice reaches
the end of the representation. For the first block the sizes do not matter. -/
theorem serve_slice (h : req.message.block2? = asked config none num) (hnum : num.toNat < 2 ^ 20)
    (hsize : 0 < num.toNat → client ≤ server)
    (hlt : 0 < num.toNat → num.toNat * client < full.length) :
    (Reply.serve chunkSize full req).blockNumber = num.toNat
      ∧ (Reply.serve chunkSize full req).message.payload = slice full client server num.toNat
      ∧ (Reply.serve chunkSize full req).endsTransfer
        = decide (full.length ≤ sliceEnd client server num.toNat) := by
  by_cases h0 : num = 0
  · -- the first request names no size, so the client's does not count yet
    subst h0
    exact serve_front full hserver h
  · rw [asked, if_neg h0, if_pos hnum] at h
    have hpos : 0 < num.toNat := Nat.pos_of_ne_zero (fun hz => h0 (UInt32.toNat_inj.1 hz))
    have hdiv : num.toNat * client / client = num.toNat :=
      Nat.mul_div_cancel _ (hclient ▸ Block.validSize_pos _)
    obtain ⟨hn, hp, he⟩ := serve_inside full hclient hserver h hnum hpos (hlt hpos)
      (Nat.min_eq_left (hsize hpos)).symm (by rw [hdiv]; exact hnum)
    obtain ⟨k, hk⟩ := Nat.exists_eq_add_of_lt hpos
    rw [Nat.zero_add] at hk
    rw [hdiv] at hn
    rw [hp, he, hn, hk]
    refine ⟨rfl, rfl, ?_⟩
    show decide (_ ≤ (k + 1) * client + client) = decide (_ ≤ (k + 2) * client)
    congr 2
    ring

/-- **Out of step.** If the server's blocks are the smaller ones, the answer to the request for
block 1 is another block. -/
theorem serve_outOfStep (h : req.message.block2? = asked config none num) (hnum : num.toNat = 1)
    (hsize : server < client) : (Reply.serve chunkSize full req).blockNumber ≠ 1 := by
  have h0 : num ≠ 0 := by
    rintro rfl
    cases hnum
  have hlt20 : num.toNat < 2 ^ 20 := by omega
  rw [asked, if_neg h0, if_pos hlt20] at h
  have hpos : 0 < server := hserver ▸ Block.validSize_pos _
  have hle : client ≤ 1024 := hclient ▸ Block.validSize_le _
  have hmul : num.toNat * client = client := by rw [hnum, Nat.one_mul]
  by_cases hlt : client < full.length
  · -- the number counts in the server's blocks, of which at least two fit in one of the client's
    have hread : num.toNat * client / server < 2 ^ 20 := by
      rw [hmul]
      exact Nat.lt_of_le_of_lt (Nat.div_le_self _ _) (by omega)
    have hlt' : num.toNat * client < full.length := by omega
    obtain ⟨hn, -, -⟩ := serve_inside full hclient hserver h hlt20 (by omega) hlt'
      (Nat.min_eq_right (Nat.le_of_lt hsize)).symm hread
    have hdvd : server ∣ client := by
      rw [← hclient, ← hserver] at hsize ⊢
      exact Block.validSize_dvd (Nat.le_of_lt hsize)
    obtain ⟨m, rfl⟩ := hdvd
    have htwo : 2 ≤ m := by
      by_contra hm
      have := Nat.mul_le_mul_left server (show m ≤ 1 by omega)
      omega
    rw [hn, hmul, Nat.mul_div_cancel_left _ hpos]
    omega
  · -- behind the end there is no block, and a response without a block counts as block 0
    have hoff : (Block.new config.chunkSize num false).offset.toNat = client := by
      rw [Block.offset_new _ _ hlt20, hclient, hmul]
    rw [Response.blockNumber, Reply.block2?_serve_behind h (by omega) (by omega)]
    decide

end

namespace Session

variable {s ε : Type} [Exchange s ε]

/-- The bytes that were handed out, those of the first block first. -/
def payload (session : Session s) : Bytes := session.blocks.flatMap (·.message.payload)

/-- **The server answers.** Every response that comes in while the fetch waits is the answer of
`serve` to the request that was sent last. -/
def Served (serve : Request → Response) (session : Session (Recorder s)) : List Call → Prop
  | [] => True
  | call :: calls =>
    (∀ a ∈ session.arrival? call, session.exchange.sent.getLast?.map serve = some a.response)
      ∧ Served serve (session.call call).value calls

instance instDecidableServed (serve : Request → Response) :
    (session : Session (Recorder s)) → (calls : List Call) → Decidable (session.Served serve calls)
  | _, [] => isTrue trivial
  | session, call :: calls =>
    have := instDecidableServed serve (session.call call).value calls
    inferInstanceAs (Decidable (_ ∧ Served serve (session.call call).value calls))

/-! ## The invariant of a transfer -/

/-- **A session follows a representation** that is sent in blocks of `server` bytes and asked for
in blocks of `client` bytes. -/
structure Follows (client server : Nat) (full : Bytes) (session : Session s) : Prop where
  /-- While the fetch is open, the slices before the expected block were handed out. -/
  slices : session.fetch.state.isTerminal = false →
    session.payload = (List.range session.blocks.length).flatMap (slice full client server)
  /-- Before the first block nothing comes out of sequence. -/
  first : session.fetch.state.isTerminal = false → session.blocks.length = 0 →
    session.fetch.blockErrors = 0
  /-- More than one block is asked for only if the representation does not fit in the first one.
  Then the expected block begins inside the representation, and blocks come out of sequence only
  when their numbers are too large to be read; but if the server's blocks are the smaller ones
  the second block never comes. -/
  inside : session.fetch.state.isTerminal = false → 0 < session.blocks.length →
    server < full.length
      ∧ (client ≤ server → session.blocks.length * client < full.length
          ∧ (session.fetch.blockErrors = 0 ∨ session.blocks.length = 2 ^ 20))
      ∧ (server < client → session.blocks.length = 1)
  /-- A fetch that is done without errors has handed out all slices. -/
  finished : session.fetch.state = .done →
    (session.fetch.blockErrors = 0 ↔ client ≤ server ∨ full.length ≤ server)
      ∧ (session.fetch.blockErrors = 0 → session.payload
          = if full.length ≤ server then full else full.take server ++ full.drop client)

theorem follows_start (request : Request) (peer : Endpoint) (config : BlockTransfer) (x : s)
    (client server : Nat) (full : Bytes) :
    (start request peer config x).Follows client server full where
  slices := fun _ => rfl
  first := fun _ _ => rfl
  inside := fun _ => nofun
  finished := nofun

section

variable {chunkSize : UInt16} {full : Bytes} {client server : Nat} {session : Session s}
  {past : List Arrival} {a : Arrival}

/-- What an open fetch gets for the block that is expected, as long as server and fetch are in
step. -/
theorem Follows.arrival_inStep (h : session.Follows client server full)
    (hclient : (Block.validSize session.fetch.config.chunkSize).toNat = client)
    (hserver : (Block.validSize chunkSize).toNat = server)
    (hsound : session.Sound past) (hasks : session.Asks none)
    (hopen : session.fetch.state.isTerminal = false)
    (hexp : a.expected = session.fetch.blockNum.toNat)
    (hresp : a.response = Reply.serve chunkSize full session.fetch.request)
    (hstep : session.blocks.length = 0 ∨ client ≤ server ∧ session.blocks.length < 2 ^ 20) :
    a.inSequence = true
      ∧ a.response.message.payload = slice full client server session.blocks.length
      ∧ a.response.endsTransfer
        = decide (full.length ≤ sliceEnd client server session.blocks.length) := by
  have hnext := hsound.next
  have hserve := serve_slice full hclient hserver (hasks hopen) (by omega) (by omega)
    (fun hpos => by
      have hle : client ≤ server := by omega
      rw [hnext] at hpos ⊢
      exact ((h.inside hopen hpos).2.1 hle).1)
  rw [← hresp, hnext] at hserve
  refine ⟨?_, hserve.2⟩
  rw [Arrival.inSequence, hserve.1, hexp, hnext]
  exact beq_self_eq_true _

/-- What an open fetch gets once server and fetch are out of step: never the block that is
expected, and an end of the transfer only if the server's blocks are the smaller ones. -/
theorem Follows.arrival_outOfStep (h : session.Follows client server full)
    (hclient : (Block.validSize session.fetch.config.chunkSize).toNat = client)
    (hserver : (Block.validSize chunkSize).toNat = server)
    (hsound : session.Sound past) (hasks : session.Asks none)
    (hopen : session.fetch.state.isTerminal = false)
    (hexp : a.expected = session.fetch.blockNum.toNat)
    (hresp : a.response = Reply.serve chunkSize full session.fetch.request)
    (hpos : 0 < session.blocks.length)
    (hstep : ¬(client ≤ server ∧ session.blocks.length < 2 ^ 20)) :
    a.inSequence = false
      ∧ (client ≤ server → session.blocks.length = 2 ^ 20 ∧ a.response.endsTransfer = false) := by
  have hnext := hsound.next
  have hle := hsound.length_le
  have hreq := hasks hopen
  obtain ⟨hlong, -, hone⟩ := h.inside hopen hpos
  rw [Arrival.inSequence, beq_eq_false_iff_ne, hexp, hnext, hresp]
  by_cases hsize : server < client
  · -- the server's blocks are the smaller ones
    refine ⟨?_, fun hle => by omega⟩
    rw [hone hsize] at hnext ⊢
    exact serve_outOfStep full hclient hserver hreq hnext hsize
  · -- the number is too large to be read, and the server starts again from the front
    have hlen : session.blocks.length = 2 ^ 20 := by omega
    have h0 : session.fetch.blockNum ≠ 0 := by
      intro h0
      rw [h0] at hnext
      have : (0 : UInt32).toNat = 0 := rfl
      omega
    rw [asked, if_neg h0, if_neg (by omega)] at hreq
    obtain ⟨hn, -, he⟩ := serve_front full hserver hreq
    rw [hn, he]
    exact ⟨by omega, fun _ => ⟨hlen, by simpa using hlong⟩⟩

/-- As long as server and fetch are in step nothing has come out of sequence. -/
theorem Follows.blockErrors_eq (h : session.Follows client server full)
    (hopen : session.fetch.state.isTerminal = false)
    (hstep : session.blocks.length = 0 ∨ client ≤ server ∧ session.blocks.length < 2 ^ 20) :
    session.fetch.blockErrors = 0 := by
  rcases Nat.eq_zero_or_pos session.blocks.length with h0 | hpos
  · exact h.first hopen h0
  · have hle : client ≤ server := by omega
    rcases ((h.inside hopen hpos).2.1 hle).2 with herr | hlen
    · exact herr
    · omega

/-- **The next slice is handed out** and brings the session to the end of the representation or
leaves it open in front of the end. -/
theorem Follows.handOut (h : session.Follows client server full)
    (hopen : session.fetch.state.isTerminal = false)
    (hstep : session.blocks.length = 0 ∨ client ≤ server ∧ session.blocks.length < 2 ^ 20)
    {resp : Response} (hpayload : resp.message.payload
      = slice full client server session.blocks.length)
    {request : Request} {state : State} {x : s}
    (hend : state = .done → full.length ≤ sliceEnd client server session.blocks.length)
    (hmore : state.isTerminal = false →
      sliceEnd client server session.blocks.length < full.length) :
    (⟨{ session.fetch with
          blockNum := session.fetch.blockNum + 1, request := request, state := state },
      x, session.blocks ++ [resp]⟩ : Session s).Follows client server full := by
  have herr := h.blockErrors_eq hopen hstep
  have hlength : (session.blocks ++ [resp]).length = session.blocks.length + 1 :=
    List.length_append
  have hall : (session.blocks ++ [resp]).flatMap (·.message.payload)
      = (List.range (session.blocks.length + 1)).flatMap (slice full client server) := by
    rw [List.flatMap_append, List.range_succ, List.flatMap_append]
    congr 1
    · exact h.slices hopen
    · simpa using hpayload
  refine
    { slices := fun _ => ?_
      first := fun _ hzero => ?_
      inside := fun ho _ => ?_
      finished := fun hd => ⟨⟨fun _ => ?_, fun _ => herr⟩, fun _ => ?_⟩ }
  · show (session.blocks ++ [resp]).flatMap _ = _
    rw [hall, ← hlength]
  · simp only [hlength] at hzero
    omega
  · simp only [hlength]
    refine ⟨?_, fun hle => ⟨?_, .inl herr⟩, fun hlt => by omega⟩
    · rcases Nat.eq_zero_or_pos session.blocks.length with h0 | hpos
      · -- slice 0 ends where a block of the server does
        have hbehind := hmore ho
        rw [h0] at hbehind
        exact hbehind
      · exact (h.inside hopen hpos).1
    · exact Nat.lt_of_le_of_lt (mul_le_sliceEnd hle _) (hmore ho)
  · rcases hstep with h0 | ⟨hle, -⟩
    · have hfit := hend hd
      rw [h0] at hfit
      exact .inr hfit
    · exact .inl hle
  · exact hall.trans (flatMap_slice_of_le (fun hpos => (h.inside hopen hpos).1) (hend hd))

/-- **Nothing is handed out.** The count of errors is not 0 from then on, so a session that is
done says nothing about the slices; it must not be done if the server's blocks are not the
smaller ones. -/
theorem Follows.countError (h : session.Follows client server full)
    (hopen : session.fetch.state.isTerminal = false) (hpos : 0 < session.blocks.length)
    (herr : session.fetch.blockErrors + 1 ≠ 0)
    (hlast : client ≤ server → session.blocks.length = 2 ^ 20)
    {request : Request} {state : State} {x : s} (hend : state = .done → server < client) :
    (⟨{ session.fetch with
          blockErrors := session.fetch.blockErrors + 1, request := request, state := state },
      x, session.blocks⟩ : Session s).Follows client server full := by
  obtain ⟨hlong, hle, hlt⟩ := h.inside hopen hpos
  refine
    { slices := fun _ => h.slices hopen
      first := fun _ hzero => absurd hzero (Nat.ne_of_gt hpos)
      inside := fun _ _ => ⟨hlong, fun hsize => ⟨(hle hsize).1, .inr (hlast hsize)⟩, hlt⟩
      finished := fun hd => ⟨⟨fun h0 => absurd h0 herr, ?_⟩, fun h0 => absurd h0 herr⟩ }
  have hsmaller := hend hd
  rintro (hsize | hfit)
  · omega
  · omega

/-- **One call keeps a session on the representation**, if what arrives was served. -/
theorem Follows.call (h : session.Follows client server full)
    (hclient : (Block.validSize session.fetch.config.chunkSize).toNat = client)
    (hserver : (Block.validSize chunkSize).toNat = server)
    (hsound : session.Sound past) (hasks : session.Asks none) {call : Call}
    (hserved : ∀ a ∈ session.arrival? call,
      a.response = Reply.serve chunkSize full session.fetch.request) :
    (session.call call).value.Follows client server full := by
  cases ha : session.arrival? call with
  | none =>
      obtain ⟨request, state, x, hcall, hdone, hopen⟩ := call_frame ha
      rw [hcall]
      exact
        { slices := fun ho => h.slices (hopen ho).1
          first := fun ho => h.first (hopen ho).1
          inside := fun ho => h.inside (hopen ho).1
          finished := fun hd => h.finished (hdone hd) }
  | some a =>
      obtain ⟨hexp, hbefore, request, state, x, hcall, hdone, hopen⟩ := call_arrival ha
      have hresp := hserved a ha
      rw [hcall]
      by_cases hstep : session.blocks.length = 0
          ∨ client ≤ server ∧ session.blocks.length < 2 ^ 20
      · -- whether the fetch is done or still open is decided by where the slice ends
        obtain ⟨hseq, hpayload, hends⟩ :=
          h.arrival_inStep hclient hserver hsound hasks hbefore hexp hresp hstep
        rw [hends, decide_eq_true_iff] at hdone
        rw [hends, decide_eq_false_iff_not] at hopen
        rw [counted_of_inSequence hseq, if_pos hseq]
        exact h.handOut hbefore hstep hpayload (fun hd => (hdone.1 hd).1)
          fun ho => Nat.lt_of_not_le (hopen ho).1
      · obtain ⟨hseq, hlast⟩ :=
          h.arrival_outOfStep hclient hserver hsound hasks hbefore hexp hresp (by omega) (by omega)
        have herr : session.fetch.blockErrors + 1 ≠ 0 := by
          intro h0
          have hsucc := toNat_blockErrors_succ (hsound.room hbefore)
          rw [h0] at hsucc
          cases hsucc
        rw [counted_of_outOfSequence hseq, if_neg (by simp [hseq]), List.append_nil]
        refine h.countError hbefore (by omega) herr (fun hle => (hlast hle).1) fun hd => ?_
        -- otherwise what came is the front of the representation, which says that more follows
        by_contra hsize
        have hend := (hdone.1 hd).1
        rw [(hlast (Nat.le_of_not_lt hsize)).2] at hend
        cases hend

end

/-! ## A served run -/

/-- **What holds during a transfer** of a representation from a server with blocks of `server`
bytes. -/
structure Transfers (config : BlockTransfer) (server : Nat) (full : Bytes)
    (session : Session (Recorder s)) : Prop where
  config_eq : session.fetch.config = config
  sound : ∃ past, session.Sound past
  asks : session.Asks none
  waits : session.Waits
  follows : session.Follows (Block.validSize config.chunkSize).toNat server full

section

variable {chunkSize : UInt16} {full : Bytes} {config : BlockTransfer} {server : Nat}
  {session : Session (Recorder s)}

theorem transfers_start {request : Request} (peer : Endpoint) (config : BlockTransfer)
    (x : Recorder s) (server : Nat) (full : Bytes) (h : request.message.block2? = none) :
    (start request peer config x).Transfers config server full where
  config_eq := rfl
  sound := ⟨[], sound_start request peer config x⟩
  asks := fun _ => h
  waits := nofun
  follows := follows_start request peer config x _ _ _

/-- The request that was sent last is the one that the fetch holds. -/
theorem Waits.response_eq (h : session.Waits) {serve : Request → Response} {call : Call}
    {a : Arrival} (ha : session.arrival? call = some a)
    (hserved : session.exchange.sent.getLast?.map serve = some a.response) :
    a.response = serve session.fetch.request := by
  unfold arrival? at ha
  split at ha
  · next id resp hwait =>
      rw [h id hwait] at hserved
      exact (Option.some.inj hserved).symm
  · cases ha

theorem Transfers.call (h : session.Transfers config server full)
    (hserver : (Block.validSize chunkSize).toNat = server) {call : Call}
    (hserved : ∀ a ∈ session.arrival? call,
      session.exchange.sent.getLast?.map (Reply.serve chunkSize full) = some a.response) :
    (session.call call).value.Transfers config server full := by
  obtain ⟨rfl, ⟨past, hsound⟩, hasks, hwaits, hfollows⟩ := h
  exact
    { config_eq := call_config session call
      sound := ⟨_, hsound.call call⟩
      asks := hasks.call hsound call
      waits := hwaits.call call
      follows := hfollows.call rfl hserver hsound hasks fun a ha =>
        hwaits.response_eq ha (hserved a ha) }

theorem Transfers.run (h : session.Transfers config server full)
    (hserver : (Block.validSize chunkSize).toNat = server) {calls : List Call}
    (hserved : session.Served (Reply.serve chunkSize full) calls) :
    (session.run calls).value.Transfers config server full := by
  induction calls generalizing session with
  | nil => exact h
  | cons call calls ih => exact ih (h.call hserver hserved.1) hserved.2

end

/-! ## Main result -/

/-- The two slices of a representation are the whole of it only if they meet. -/
theorem take_append_drop_eq_iff {full : Bytes} {client server : Nat} (hle : client ≤ server)
    (hlong : server < full.length) :
    full.take server ++ full.drop client = full ↔ client = server := by
  constructor
  · intro h
    have hlen := congrArg List.length h
    rw [List.length_append, List.length_take, List.length_drop] at hlen
    omega
  · rintro rfl
    exact List.take_append_drop client full

section

variable {request : Request} {peer : Endpoint} {config : BlockTransfer} {x : Recorder s}
  {calls : List Call} {chunkSize : UInt16} {full : Bytes}

/-- **What a transfer hands out when it is done.** A server answers every request from one
representation, and the first request asks for no particular block. If the fetch is done, then no
block came out of sequence exactly if the server's blocks are not the smaller ones or the
representation fits in one of them. In that case no byte is skipped: one block of the server comes
first, and everything from the client's block 1 on follows. That is the representation itself
exactly if both sides use blocks of the same size or one block is enough. -/
theorem payload_of_done (hinit : request.message.block2? = none)
    (hserved : (start request peer config x).Served (Reply.serve chunkSize full) calls)
    (hdone : ((start request peer config x).run calls).value.fetch.state = .done) :
    let session := ((start request peer config x).run calls).value
    let client := (Block.validSize config.chunkSize).toNat
    let server := (Block.validSize chunkSize).toNat
    (session.fetch.blockErrors = 0 ↔ client ≤ server ∨ full.length ≤ server)
      ∧ (session.fetch.blockErrors = 0 →
          session.payload
            = (if full.length ≤ server then full else full.take server ++ full.drop client)
          ∧ (session.payload = full ↔ client = server ∨ full.length ≤ server)) := by
  intro session client server
  have htransfers : session.Transfers config server full :=
    (transfers_start peer config x server full hinit).run rfl hserved
  obtain ⟨hiff, hpayload⟩ := htransfers.follows.finished hdone
  refine ⟨hiff, fun herr => ⟨hpayload herr, ?_⟩⟩
  rw [hpayload herr]
  by_cases hfit : full.length ≤ server
  · rw [if_pos hfit]
    exact iff_of_true rfl (.inr hfit)
  · have hle : client ≤ server := (hiff.1 herr).resolve_right hfit
    rw [if_neg hfit, take_append_drop_eq_iff hle (Nat.lt_of_not_le hfit)]
    exact ⟨.inl, fun h => h.resolve_right hfit⟩

/-- A representation of 40 bytes. -/
def sample : Bytes := (List.range 40).map UInt8.ofNat

/-- A fetch of `sample` with blocks of 16 bytes. -/
def sampleStart : Session (Recorder Simulation.ScriptedExchange) :=
  start (.get "big") samplePeer { chunkSize := 16 } ⟨⟨1, [], [], [], []⟩, []⟩

/-- The fetch is answered by a server with blocks of 32 bytes. -/
def sampleServed : List Call :=
  .resume .start :: ([none, some 1, some 2].map fun num? =>
    let block? := num?.map fun num => Block.new 16 num false
    let message := (Request.get "big").message
    .resume (.completed (some (Reply.serve 32 sample ⟨block?.elim message message.setBlock2⟩))))

/-- The bytes from 16 to 31 come twice, since block 1 of the client is not what follows block 0 of
the server. -/
theorem payload_sampleServed :
    (Request.get "big").message.block2? = none
      ∧ sampleStart.Served (Reply.serve 32 sample) sampleServed
      ∧ (sampleStart.run sampleServed).value.fetch.state = .done
      ∧ (sampleStart.run sampleServed).value.payload = sample.take 32 ++ sample.drop 16 := by
  have hinit : (Request.get "big").message.block2? = none := by decide +kernel
  have hserved : sampleStart.Served (Reply.serve 32 sample) sampleServed := by decide +kernel
  have hdone : (sampleStart.run sampleServed).value.fetch.state = .done := by decide +kernel
  have herr : (sampleStart.run sampleServed).value.fetch.blockErrors = 0 := by decide +kernel
  exact ⟨hinit, hserved, hdone, ((payload_of_done hinit hserved hdone).2 herr).1⟩

/-- So what was handed out is not the representation. -/
theorem payload_ne_sample :
    (Request.get "big").message.block2? = none
      ∧ sampleStart.Served (Reply.serve 32 sample) sampleServed
      ∧ (sampleStart.run sampleServed).value.fetch.state = .done
      ∧ (sampleStart.run sampleServed).value.payload ≠ sample := by
  decide +kernel

end

end Session

end CoapNode.Fetch
