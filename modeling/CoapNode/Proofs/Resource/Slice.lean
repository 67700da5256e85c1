import CoapNode.Proofs.Resource.Reply

set_option autoImplicit false

/-! # The slice that a reply writes

A client asks for a block in a size of its own, and the server has a size that it does not exceed.
A reply uses the smaller one of the two (`Reply.capacity_le`) and begins where the client's block
begins (`Reply.offset_new`). Both sizes are powers of two, so the smaller one divides the larger one
and the reply begins on a boundary of the blocks that it sends (`Reply.aligned_new`). Hence the
number of the block that is sent is an exact quotient, and it fits in an option as long as the
representation has fewer than `2 ^ 24` bytes (`Reply.Aligned.carries`).
-/

namespace CoapNode

/-! ## Responses that carry a slice -/

/-- **A response carries a slice of a representation and describes it truthfully**: the bytes from
`start` on, at most `size` of them. Apart from payload and options it is the response `fresh` that
was there before. -/
structure Response.Carries (answer fresh : Response) (full : Bytes) (start size : Nat) : Prop where
  payload : answer.message.payload = full.extract start (min (start + size) full.length)
  /-- Without a block the payload is the whole representation, and a block says where the slice
  begins, how large it may be, and whether more follows. -/
  mark : (answer.message.block2? = none ∧ answer.message.payload = full)
    ∨ ∃ b, answer.message.block2? = some b ∧ b.size.toNat = size
      ∧ b.num.toNat * b.size.toNat = start ∧ (b.more = true ↔ start + size < full.length)
  rest : { answer.message with
    payload := fresh.message.payload, options := fresh.message.options } = fresh.message

namespace Reply

/-! ## What a reply begins with -/

/-- **A reply is aligned**: it sends blocks of a valid size, and begins on a boundary of them. -/
structure Aligned (reply : Reply) : Prop where
  size : ∃ e ≤ 6, reply.capacity = Block.sizeOfExponent e
  boundary : reply.capacity.toNat ∣ reply.offset.toNat

section

variable (req : Request) (resp : Response) (chunkSize : UInt16)

theorem exists_capacity_new :
    ∃ e ≤ 6, (new req resp chunkSize).capacity = Block.sizeOfExponent e := by
  unfold new
  cases req.message.block2? with
  | none => exact ⟨_, Block.exponentOf_le chunkSize, rfl⟩
  | some block =>
      show ∃ e ≤ 6, (if block.size ≤ Block.validSize chunkSize then block.size
        else Block.validSize chunkSize) = _
      by_cases h : block.size ≤ Block.validSize chunkSize
      · rw [if_pos h]
        exact ⟨_, block.exponent_le, rfl⟩
      · rw [if_neg h]
        exact ⟨_, Block.exponentOf_le chunkSize, rfl⟩

/-- The capacity exceeds neither the server's size nor that of the client. -/
theorem capacity_le :
    (new req resp chunkSize).capacity.toNat ≤ (Block.validSize chunkSize).toNat
      ∧ ∀ block ∈ req.message.block2?,
        (new req resp chunkSize).capacity.toNat ≤ block.size.toNat := by
  unfold new
  cases req.message.block2? with
  | none => exact ⟨Nat.le_refl _, nofun⟩
  | some block =>
      simp only [toNat_min]
      refine ⟨Nat.min_le_right _ _, fun b hb => ?_⟩
      cases hb
      exact Nat.min_le_left _ _

/-- A reply begins where the client's block begins, or at the front if no block can be read. -/
theorem offset_new :
    (new req resp chunkSize).offset.toNat
      = req.message.block2?.elim 0 fun block => block.num.toNat * block.size.toNat := by
  unfold new
  cases h : req.message.block2? with
  | none => rfl
  | some block => exact Block.toNat_offset (Message.num_lt_of_block2? h)

theorem response_of_new : (new req resp chunkSize).response = resp := by
  unfold new
  cases req.message.block2? <;> rfl

theorem aligned_new : (new req resp chunkSize).Aligned := by
  obtain ⟨e, he, hcap⟩ := exists_capacity_new req resp chunkSize
  refine ⟨⟨e, he, hcap⟩, ?_⟩
  rw [offset_new]
  cases h : req.message.block2? with
  | none => exact Nat.dvd_zero _
  | some block =>
      -- of two powers of two the smaller one divides the larger one
      have hle := (capacity_le req resp chunkSize).2 block h
      rw [hcap, Block.toNat_sizeOfExponent he, block.toNat_size] at hle
      have hdvd : 2 ^ (e + 4) ∣ 2 ^ (block.exponent + 4) :=
        Nat.pow_dvd_pow 2 ((Nat.pow_le_pow_iff_right (by omega)).1 hle)
      show _ ∣ block.num.toNat * block.size.toNat
      rw [hcap, Block.toNat_sizeOfExponent he, block.toNat_size]
      exact Nat.dvd_mul_left_of_dvd hdvd _

end

/-! ## The mark of a slice -/

section

variable {reply : Reply} {full : Bytes}

/-- The number of the block that a reply sends, in units of its own size. -/
def blockNumber (reply : Reply) : UInt32 := reply.offset / reply.capacity.toUInt32

/-- **The number of the block is exact.** -/
theorem Aligned.blockNumber_mul (h : reply.Aligned) :
    reply.blockNumber.toNat * reply.capacity.toNat = reply.offset.toNat := by
  rw [blockNumber, UInt32.toNat_div, UInt16.toNat_toUInt32]
  exact Nat.div_mul_cancel h.boundary

/-- A block that begins below `2 ^ 24` has a number with at most twenty bits, since no block is
smaller than 16 bytes. -/
theorem Aligned.blockNumber_lt (h : reply.Aligned) (hlt : reply.offset.toNat < 2 ^ 24) :
    reply.blockNumber.toNat < 2 ^ 20 := by
  have hsize : 16 ≤ reply.capacity.toNat := by
    obtain ⟨e, he, hcap⟩ := h.size
    rw [hcap, Block.toNat_sizeOfExponent he]
    exact Nat.pow_le_pow_right (n := 2) (by omega) (show 4 ≤ e + 4 by omega)
  have hmul : reply.blockNumber.toNat * 16 < 2 ^ 20 * 16 :=
    calc reply.blockNumber.toNat * 16
        ≤ reply.blockNumber.toNat * reply.capacity.toNat := Nat.mul_le_mul_left _ hsize
      _ = reply.offset.toNat := h.blockNumber_mul
      _ < 2 ^ 20 * 16 := hlt
  omega

theorem Aligned.size_mark (h : reply.Aligned) (hnum : reply.blockNumber.toNat < 2 ^ 20)
    (more : Bool) : (Block.new reply.capacity reply.blockNumber more).size = reply.capacity := by
  obtain ⟨e, he, hcap⟩ := h.size
  rw [Block.size_new _ _ (Nat.lt_trans hnum (by decide)), hcap, Block.validSize_sizeOfExponent he]

/-- A slice as it is cut by its two ends. -/
theorem extract_min (full : Bytes) (start size : Nat) :
    full.extract start (min (start + size) full.length) = (full.drop start).take size := by
  rw [List.extract_eq_take_drop, List.take_eq_take_iff, List.length_drop]
  omega

/-- **What an aligned reply writes is a slice with a true mark**, unless the representation ends in
front of it. -/
theorem Aligned.carries (h : reply.Aligned) (hfresh : reply.response.message.block2? = none)
    (hfull : full.length < 2 ^ 24)
    (hinside : ¬(0 < reply.offset.toNat ∧ full.length ≤ reply.offset.toNat)) :
    (reply.writeChunk full).value.response.Carries reply.response full reply.offset.toNat
      reply.capacity.toNat := by
  by_cases hwhole : reply.offset.toNat = 0 ∧ full.length ≤ reply.capacity.toNat
  · -- one block at the front holds everything, and no mark is set
    have hanswer : (reply.writeChunk full).value.response = reply.response.setPayload full :=
      writeChunk_whole hwhole.1 hwhole.2
    rw [hanswer]
    refine ⟨?_, .inl ⟨hfresh, rfl⟩, rfl⟩
    rw [extract_min, hwhole.1, List.drop_zero, List.take_of_length_le hwhole.2]
    rfl
  · have hpart : 0 < reply.offset.toNat ∨ reply.capacity.toNat < full.length := by omega
    have hnum : reply.blockNumber.toNat < 2 ^ 20 := h.blockNumber_lt (by omega)
    have hnum' : reply.blockNumber.toNat < 2 ^ 28 := Nat.lt_trans hnum (by decide)
    have hanswer : (reply.writeChunk full).value.response
        = (reply.response.setPayload ((full.drop reply.offset.toNat).take reply.capacity.toNat)
            ).setBlock2 (.new reply.capacity reply.blockNumber
              (reply.offset.toNat + reply.capacity.toNat < full.length)) :=
      writeChunk_part (by omega) hpart
    rw [hanswer]
    refine ⟨?_, .inr ⟨_, block2?_part _ _ _ _ hnum, ?_, ?_, ?_⟩, rfl⟩
    · rw [extract_min]
      rfl
    · rw [h.size_mark hnum]
    · rw [h.size_mark hnum, Block.num_new _ _ hnum']
      exact h.blockNumber_mul
    · rw [Block.more_new _ _ hnum', decide_eq_true_iff]

end

/-! ## Main result -/

/-- **A reply writes exactly the slice that was asked for, and describes it.** The representation
has fewer than `2 ^ 24` bytes, and the request may carry any Block2 option or none. The reply sends
blocks whose size is a power of two between 16 and 1024 and exceeds neither the server's size nor
that of the client, and it begins where the client's block begins. If the representation ends in
front of that place, the answer is 4.02, and nothing else has been written to the response.
Otherwise the response carries the slice. -/
theorem writeChunk_slice (full : Bytes) (hfull : full.length < 2 ^ 24) (chunkSize : UInt16)
    (req : Request) :
    let fresh := Response.forRequest req
    let reply := new req fresh chunkSize
    let answer := (reply.writeChunk full).value.response
    let start := reply.offset.toNat
    let size := reply.capacity.toNat
    (∃ k, 4 ≤ k ∧ k ≤ 10 ∧ size = 2 ^ k)
      ∧ size ≤ (Block.validSize chunkSize).toNat
      ∧ (∀ block ∈ req.message.block2?, size ≤ block.size.toNat)
      ∧ start = (req.message.block2?.elim 0 fun block => block.num.toNat * block.size.toNat)
      ∧ (0 < start ∧ full.length ≤ start → answer = fresh.setCode .badOption)
      ∧ (¬(0 < start ∧ full.length ≤ start) → answer.Carries fresh full start size) := by
  intro fresh reply answer start size
  have haligned : reply.Aligned := aligned_new req fresh chunkSize
  have hresp : reply.response = fresh := response_of_new req fresh chunkSize
  obtain ⟨hserver, hclient⟩ := capacity_le req fresh chunkSize
  refine ⟨?_, hserver, hclient, offset_new req fresh chunkSize, ?_, ?_⟩
  · obtain ⟨e, he, hcap⟩ := haligned.size
    refine ⟨e + 4, by omega, by omega, ?_⟩
    show reply.capacity.toNat = _
    rw [hcap, Block.toNat_sizeOfExponent he]
  · rintro ⟨hpos, hlen⟩
    show (reply.writeChunk full).value.response = _
    rw [writeChunk_behind hpos hlen]
    show reply.response.setCode .badOption = _
    rw [hresp]
  · intro hinside
    have hcarries := haligned.carries (by rw [hresp]; rfl) hfull hinside
    rw [hresp] at hcarries
    exact hcarries

/-- A request for block 1 in blocks of 128 bytes. -/
def sampleWanted : Request := ⟨(Request.get "big").message.setBlock2 (.new 128 1 false)⟩

/-- What a server with blocks of 64 bytes replies to it, before anything is written. -/
def sampleReply : Reply := new sampleWanted (.forRequest sampleWanted) 100

/-- A representation of 256 bytes. -/
def sampleBytes : Bytes := (List.range 256).map UInt8.ofNat

/-- The server answers with the 64 bytes from 128 on, which begin inside the representation. -/
theorem writeChunk_slice_sampleReply :
    sampleBytes.length < 2 ^ 24
      ∧ ¬(0 < sampleReply.offset.toNat ∧ sampleBytes.length ≤ sampleReply.offset.toNat)
      ∧ (sampleReply.writeChunk sampleBytes).value.response.Carries (.forRequest sampleWanted)
          sampleBytes 128 64 := by
  have hfull : sampleBytes.length < 2 ^ 24 := by decide +kernel
  have hinside : ¬(0 < sampleReply.offset.toNat
      ∧ sampleBytes.length ≤ sampleReply.offset.toNat) := by
    decide +kernel
  have hstart : sampleReply.offset.toNat = 128 := by decide +kernel
  have hsize : sampleReply.capacity.toNat = 64 := by decide +kernel
  obtain ⟨-, -, -, -, -, hcarries⟩ := writeChunk_slice sampleBytes hfull 100 sampleWanted
  refine ⟨hfull, hinside, ?_⟩
  unfold sampleReply at hinside hstart hsize ⊢
  have h := hcarries hinside
  rw [hstart, hsize] at h
  exact h

end Reply

end CoapNode
