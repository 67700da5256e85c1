import CoapNode.Message.Request
import CoapNode.Message.ContentFormat

set_option autoImplicit false

/-! # Responses -/

namespace CoapNode

/-- A message that answers a request. -/
structure Response where
  message : Message
deriving DecidableEq, Repr

namespace Response

/-- The response to a request before anything is written to it. It carries the token of the
request and the code 2.05; a confirmable request is answered with its acknowledgement, any
other one with a non-confirmable message whose id is chosen when it is sent. -/
def forRequest (req : Request) : Response where
  message :=
    let (kind, id) := if req.message.kind = .con then (Kind.ack, req.message.id) else (Kind.non, 0)
    { Message.blank kind id with code := .content, token := req.message.token }

/-- Replace the code. -/
def setCode (resp : Response) (code : Code) : Response := ⟨{ resp.message with code := code }⟩

/-- Replace the payload. -/
def setPayload (resp : Response) (payload : Bytes) : Response :=
  ⟨{ resp.message with payload := payload }⟩

/-- Append to the payload. -/
def extendPayload (resp : Response) (more : Bytes) : Response :=
  resp.setPayload (resp.message.payload ++ more)

/-- Mark the response as one block of a larger representation. -/
def setBlock2 (resp : Response) (block : Block) : Response := ⟨resp.message.setBlock2 block⟩

/-- Set the format of the payload. -/
def setContentFormat (resp : Response) (format : ContentFormat) : Response :=
  ⟨{ resp.message with
     options := resp.message.options.set Options.contentFormat format.toValue }⟩

/-- Set the observe sequence number. -/
def setObserve (resp : Response) (n : UInt32) : Response := ⟨resp.message.setObserve n⟩

/-- Replace the message id. -/
def setId (resp : Response) (id : MessageId) : Response := ⟨{ resp.message with id := id }⟩

end Response

end CoapNode
