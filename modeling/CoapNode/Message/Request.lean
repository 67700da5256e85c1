import CoapNode.Message.Wire
import CoapNode.Text.Utf8

set_option autoImplicit false

/-! # Requests

A request asks for a method to be applied to the resource under a path. The path travels as
one Uri-Path option per segment; as text its segments are joined by `/`.
-/

namespace CoapNode

/-- A message that asks for something. -/
structure Request where
  message : Message
deriving DecidableEq, Repr

/-- The segments of a path: the pieces between slashes that are not empty. -/
def pathSegments (path : List Char) : List (List Char) := (path.splitOn '/').filter (· ≠ [])

/-- Segments as a path. -/
def joinSegments (segments : List (List Char)) : List Char := ['/'].intercalate segments

namespace Request

/-- A confirmable request without token or payload, its id still to be chosen. -/
def new (method : Method) (path : String) : Request where
  message :=
    { Message.blank .con 0 with
      code := method.code
      options := (pathSegments path.toList).foldl
        (fun options segment => options.push Options.uriPath (Utf8.encode segment)) .empty }

/-- A request for the representation under a path. -/
def get (path : String) : Request := new .get path

/-- The method, if the code is that of one. -/
def method? (req : Request) : Option Method := Method.ofCode? req.message.code

/-- The values of the Uri-Path options. -/
def uriPath (req : Request) : List Bytes := req.message.options.values Options.uriPath

/-- The characters of the path; segments that are not UTF-8 are read with replacements. -/
def pathChars (req : Request) : List Char := joinSegments (req.uriPath.map Utf8.decodeLossy)

/-- The path, without a slash at its front. -/
def path (req : Request) : String := String.ofList req.pathChars

end Request

end CoapNode
