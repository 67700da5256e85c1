import CoapNode.Resource.Reply
import CoapNode.Proofs.Message.Block
import Mathlib.Tactic.Set

set_option autoImplicit false

/-! # What a server hands out of a representation

`Reply.serve` is a server that answers every request from one representation: it starts a
response, makes a reply of it and writes the wanted slice (`Reply.writeChunk`). Its answer
depends on the Block2 option of the request alone, in three cases.

* No option that can be read: the front of the representation, as block 0 if more follows
  (`Reply.payload_serve_front`, `Reply.block2?_serve_front`).
* A block that begins inside the representation: the slice that begins there, numbered in units
  of its own size (`Reply.payload_serve_inside`, `Reply.block2?_serve_inside`).
* A block that begins behind the end: 4.02, without payload and without a block
  (`Reply.block2?_serve_behind`).
-/

namespace CoapNode.Reply

/-- The answer of a server that keeps the representation `full` and sends at most `chunkSize`
bytes of it in one message. -/
def serve (chunkSize : UInt16) (full : Bytes) (req : Request) : Response :=
  ((new req (.forRequest req) chunkSize).writeChunk full).value.response

theorem toNat_min (a b : UInt16) : (min a b).toNat = min a.toNat b.toNat := by
  show (if a ≤ b then a else b).toNat = _
  by_cases h : a ≤ b
  · rw [if_pos h, Nat.min_eq_left (UInt16.le_iff_toNat_le.1 h)]
  · have hlt : ¬a.toNat ≤ b.toNat := fun hle => h (UInt16.le_iff_toNat_le.2 hle)
    rw [if_neg h, Nat.min_eq_right (by omega)]

/-! ## Writing a slice -/

/-- The slice as it is cut by `writeChunk`: first the end, then the front. -/
theorem drop_take_min (full : Bytes) (start size : Nat) :
    (full.take (min (start + size) full.length)).drop start = (full.drop start).take size := by
  rw [List.drop_take, List.take_eq_take_iff, List.length_drop]
  omega

section

variable {resp : Response} {capacity : UInt16} {offset : UInt32} {full : Bytes}

theorem writeChunk_behind (h : 0 < offset.toNat) (hlen : full.length ≤ offset.toNat) :
    ((Reply.mk resp capacity offset).writeChunk full).value
      = (Reply.mk resp capacity offset).setCode .badOption := by
  rw [writeChunk, if_pos ⟨h, hlen⟩]
  rfl

theorem writeChunk_whole (h : offset.toNat = 0) (hlen : full.length ≤ capacity.toNat) :
    ((Reply.mk resp capacity offset).writeChunk full).value.response = resp.setPayload full := by
  have hstop : min (0 + capacity.toNat) full.length = full.length := by omega
  rw [writeChunk, h, hstop, if_neg (by omega), if_neg (by omega)]
  simp

theorem writeChunk_part (h : offset.toNat = 0 ∨ offset.toNat < full.length)
    (hpart : 0 < offset.toNat ∨ capacity.toNat < full.length) :
    ((Reply.mk resp capacity offset).writeChunk full).value.response
      = (resp.setPayload ((full.drop offset.toNat).take capacity.toNat)).setBlock2
          (.new capacity (offset / capacity.toUInt32)
            (offset.toNat + capacity.toNat < full.length)) := by
  have hstop : min (offset.toNat + capacity.toNat) full.length < full.length
      ↔ offset.toNat + capacity.toNat < full.length := by omega
  rw [writeChunk]
  dsimp only
  rw [if_neg (by omega), if_pos (by omega), drop_take_min]
  simp only [hstop, Traced.value_pure]

end

/-! ## Serving a request -/

/-- The block that marks a slice can be read back if its number has at most twenty bits. -/
theorem block2?_part (resp : Response) (part : Bytes) (size : UInt16) {num : UInt32} (more : Bool)
    (h : num.toNat < 2 ^ 20) :
    ((resp.setPayload part).setBlock2 (.new size num more)).message.block2?
      = some (.new size num more) := by
  have hraw := (Block.raw_new_lt size more (Nat.lt_trans h (by decide))).2 h
  rw [Response.setBlock2, Message.block2?_setBlock2, if_pos hraw]

section

variable {chunkSize : UInt16} {full : Bytes} {req : Request}

theorem new_of_none (h : req.message.block2? = none) :
    new req (.forRequest req) chunkSize = ⟨.forRequest req, Block.validSize chunkSize, 0⟩ := by
  rw [new, h]

theorem new_of_some {block : Block} (h : req.message.block2? = some block) :
    new req (.forRequest req) chunkSize
      = ⟨.forRequest req, min block.size (Block.validSize chunkSize), block.offset⟩ := by
  rw [new, h]

theorem payload_serve_front (h : req.message.block2? = none) :
    (serve chunkSize full req).message.payload = full.take (Block.validSize chunkSize).toNat := by
  rw [serve, new_of_none h]
  by_cases hlen : full.length ≤ (Block.validSize chunkSize).toNat
  · rw [writeChunk_whole rfl hlen, List.take_of_length_le hlen]
    rfl
  · rw [writeChunk_part (.inl rfl) (.inr (Nat.lt_of_not_le hlen))]
    rfl

/-- The front of a representation is block 0, and more follows, unless it is all there is. -/
theorem block2?_serve_front (h : req.message.block2? = none) :
    (serve chunkSize full req).message.block2?
      = if (Block.validSize chunkSize).toNat < full.length
        then some (.new (Block.validSize chunkSize) 0 true) else none := by
  rw [serve, new_of_none h]
  by_cases hlen : full.length ≤ (Block.validSize chunkSize).toNat
  · rw [writeChunk_whole rfl hlen, if_neg (by omega)]
    rfl
  · have hlt : (Block.validSize chunkSize).toNat < full.length := Nat.lt_of_not_le hlen
    have hzero : (0 : UInt32) / (Block.validSize chunkSize).toUInt32 = 0 := by
      apply UInt32.toNat_inj.1
      simp
    have hmore : decide ((0 : UInt32).toNat + (Block.validSize chunkSize).toNat < full.length)
        = true := by
      simpa using hlt
    rw [writeChunk_part (.inl rfl) (.inr hlt), if_pos hlt]
    simp only [hzero, hmore]
    exact block2?_part _ _ _ _ (by decide)

variable {block : Block}

/-- A slice that begins inside the representation is as large as the smaller of the two block
sizes allows. -/
theorem payload_serve_inside (h : req.message.block2? = some block)
    (hpos : 0 < block.offset.toNat) (hlt : block.offset.toNat < full.length) :
    (serve chunkSize full req).message.payload
      = (full.drop block.offset.toNat).take
          (min block.size.toNat (Block.validSize chunkSize).toNat) := by
  rw [serve, new_of_some h, writeChunk_part (.inr hlt) (.inl hpos), ← toNat_min]
  rfl

/-- A slice that begins inside the representation is numbered in units of its own size. -/
theorem block2?_serve_inside (h : req.message.block2? = some block)
    (hpos : 0 < block.offset.toNat) (hlt : block.offset.toNat < full.length)
    {size : Nat} (hsize : size = min block.size.toNat (Block.validSize chunkSize).toNat)
    (hnum : block.offset.toNat / size < 2 ^ 20) :
    ∃ b, (serve chunkSize full req).message.block2? = some b
      ∧ b.num.toNat = block.offset.toNat / size
      ∧ b.more = decide (block.offset.toNat + size < full.length) := by
  rw [← toNat_min] at hsize
  subst hsize
  set capacity := min block.size (Block.validSize chunkSize) with hcap
  have hdiv : (block.offset / capacity.toUInt32).toNat = block.offset.toNat / capacity.toNat := by
    rw [UInt32.toNat_div, UInt16.toNat_toUInt32]
  have hnum' : (block.offset / capacity.toUInt32).toNat < 2 ^ 20 := by
    rw [hdiv]
    exact hnum
  refine ⟨.new capacity (block.offset / capacity.toUInt32)
    (block.offset.toNat + capacity.toNat < full.length), ?_, ?_, ?_⟩
  · rw [serve, new_of_some h, writeChunk_part (.inr hlt) (.inl hpos)]
    exact block2?_part _ _ _ _ hnum'
  · rw [Block.num_new _ _ (by omega), hdiv]
  · rw [Block.more_new _ _ (by omega)]

theorem block2?_serve_behind (h : req.message.block2? = some block)
    (hpos : 0 < block.offset.toNat) (hlen : full.length ≤ block.offset.toNat) :
    (serve chunkSize full req).message.block2? = none := by
  rw [serve, new_of_some h, writeChunk_behind hpos hlen]
  rfl

end

end CoapNode.Reply
