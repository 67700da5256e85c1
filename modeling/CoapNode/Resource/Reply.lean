import CoapNode.Log
import CoapNode.Message.Response

set_option autoImplicit false

/-! # Replies

A handler writes its answer into a reply. Besides the response, a reply says how many bytes of
payload fit into one message, and where in the representation the block begins that the client
asked for.
-/

namespace CoapNode

/-- A response that is being written. -/
structure Reply where
  response : Response
  /-- The largest payload of one message, a valid block size. -/
  capacity : UInt16
  /-- Where the wanted block begins. -/
  offset : UInt32
deriving DecidableEq, Repr

namespace Reply

/-- The reply to a request, with payloads of at most `chunkSize` bytes, rounded to a valid block
size, or of the size of the client's blocks if that is smaller. The offset is counted in the
client's blocks. -/
def new (req : Request) (response : Response) (chunkSize : UInt16) : Reply :=
  match req.message.block2? with
  | some block => ⟨response, min block.size (Block.validSize chunkSize), block.offset⟩
  | none => ⟨response, Block.validSize chunkSize, 0⟩

/-- Replace the code. -/
def setCode (reply : Reply) (code : Code) : Reply :=
  { reply with response := reply.response.setCode code }

/-- Append to the payload. -/
def write (reply : Reply) (bytes : Bytes) : Reply :=
  { reply with response := reply.response.extendPayload bytes }

/-- Answer with the part of a representation that begins at the offset, and mark it as a block
unless it is all of the representation. If nothing is left at the offset the answer is 4.02. -/
def writeChunk (reply : Reply) (full : Bytes) : Logged Reply :=
  let start := reply.offset.toNat
  let stop := min (start + reply.capacity.toNat) full.length
  if 0 < start ∧ full.length ≤ start then do
    Log.debug ("block offset " ++ toString start ++ " out of scope (" ++ toString full.length ++
      " bytes)")
    pure (reply.setCode .badOption)
  else
    let part := reply.response.setPayload ((full.take stop).drop start)
    if 0 < start ∨ stop < full.length then
      let num := reply.offset / reply.capacity.toUInt32
      pure { reply with response := part.setBlock2 (.new reply.capacity num (stop < full.length)) }
    else pure { reply with response := part }

end Reply

end CoapNode
