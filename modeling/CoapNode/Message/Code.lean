set_option autoImplicit false

/-! # Codes and methods

Every message carries a code: class 0 holds the request methods and the empty message, the
other classes hold the outcomes of requests.
-/

namespace CoapNode

/-- A message code, written `class.detail`. -/
structure Code where
  cls : UInt8
  detail : UInt8
deriving DecidableEq, Repr

namespace Code

/-- The code of a message that is neither a request nor a response. -/
def empty : Code := ⟨0, 0⟩

/-- The request created a resource. -/
def created : Code := ⟨2, 1⟩

/-- The request deleted a resource. -/
def deleted : Code := ⟨2, 2⟩

/-- What the client holds is still valid. -/
def valid : Code := ⟨2, 3⟩

/-- The request changed a resource. -/
def changed : Code := ⟨2, 4⟩

/-- The response carries a representation. -/
def content : Code := ⟨2, 5⟩

/-- The request was malformed. -/
def badRequest : Code := ⟨4, 0⟩

/-- The client may not do this without credentials. -/
def unauthorized : Code := ⟨4, 1⟩

/-- An option of the request could not be honoured. -/
def badOption : Code := ⟨4, 2⟩

/-- The client may not do this. -/
def forbidden : Code := ⟨4, 3⟩

/-- There is no such resource. -/
def notFound : Code := ⟨4, 4⟩

/-- The resource does not support the method. -/
def methodNotAllowed : Code := ⟨4, 5⟩

/-- The resource has no representation of the wanted format. -/
def notAcceptable : Code := ⟨4, 6⟩

/-- The request body is too large. -/
def requestEntityTooLarge : Code := ⟨4, 13⟩

/-- The server failed. -/
def internalServerError : Code := ⟨5, 0⟩

/-- The server does not support what the request asks for. -/
def notImplemented : Code := ⟨5, 1⟩

/-- The server cannot answer right now. -/
def serviceUnavailable : Code := ⟨5, 3⟩

/-- The response codes with their names. -/
def responseCodes : List (String × Code) :=
  [("CREATED", created), ("DELETED", deleted), ("VALID", valid), ("CHANGED", changed),
   ("CONTENT", content), ("BAD_REQUEST", badRequest), ("UNAUTHORIZED", unauthorized),
   ("BAD_OPTION", badOption), ("FORBIDDEN", forbidden), ("NOT_FOUND", notFound),
   ("METHOD_NOT_ALLOWED", methodNotAllowed), ("NOT_ACCEPTABLE", notAcceptable),
   ("REQUEST_ENTITY_TOO_LARGE", requestEntityTooLarge),
   ("INTERNAL_SERVER_ERROR", internalServerError), ("NOT_IMPLEMENTED", notImplemented),
   ("SERVICE_UNAVAILABLE", serviceUnavailable)]

/-- A code for readers: the last digit of the class, a dot, and the last two digits of the
detail. -/
def text (code : Code) : String :=
  let digit (n : UInt8) : Char := Nat.digitChar (n.toNat % 10)
  String.ofList [digit code.cls, '.', digit (code.detail / 10), digit code.detail]

/-- Is this the code of an empty message? -/
def isEmpty (code : Code) : Bool := code.cls == 0 && code.detail == 0

end Code

/-- A request method. -/
inductive Method where
  | get
  | post
  | put
  | delete
deriving DecidableEq, Repr

namespace Method

/-- The code of a request with this method. -/
def code : Method → Code
  | .get => ⟨0, 1⟩
  | .post => ⟨0, 2⟩
  | .put => ⟨0, 3⟩
  | .delete => ⟨0, 4⟩

/-- The method a code stands for, if it stands for one. -/
def ofCode? (code : Code) : Option Method :=
  [get, post, put, delete].find? fun method => method.code = code

/-- The method's name on the wire. -/
def name : Method → String
  | .get => "GET"
  | .post => "POST"
  | .put => "PUT"
  | .delete => "DELETE"

/-- The method's name in the log. -/
def text : Method → String
  | .get => "Get"
  | .post => "Post"
  | .put => "Put"
  | .delete => "Delete"

end Method

end CoapNode
