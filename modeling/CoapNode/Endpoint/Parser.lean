import CoapNode.Endpoint.Basic
import CoapNode.Address.Parser

set_option autoImplicit false

/-! # Reading endpoints

An endpoint is written `coap://[address]:port` or `coaps://[address]:port`; the port may be
left out, and a path may follow. A bare address stands for a plaintext endpoint at the
default port.
-/

namespace CoapNode.Endpoint

/-- Why a text names no endpoint. -/
inductive ParseError where
  /-- There is a scheme, and it is neither `coap` nor `coaps`. -/
  | unsupportedScheme
  /-- After the scheme, the address does not stand in brackets. -/
  | missingBrackets
  /-- The address stands in brackets without a scheme before it. -/
  | missingScheme
  /-- The address is neither an IPv6 nor an IPv4 address. -/
  | invalidAddress
  /-- What follows the address is neither a port nor a path. -/
  | invalidPort
deriving DecidableEq, Repr

/-- The name of an error. -/
def ParseError.text : ParseError → String
  | .unsupportedScheme => "UnsupportedScheme"
  | .missingBrackets => "MissingBrackets"
  | .missingScheme => "MissingScheme"
  | .invalidAddress => "InvalidAddress"
  | .invalidPort => "InvalidPort"

/-- Does `://` occur in the text? -/
def hasScheme : List Char → Bool
  | [] => false
  | c :: rest => "://".toList.isPrefixOf (c :: rest) || hasScheme rest

/-- The port in what follows the closing bracket: the default port if nothing or a path
follows, otherwise the number between the colon and the path. -/
def parseAfterAddress (secure : Bool) : List Char → Except ParseError UInt16
  | [] => .ok (if secure then defaultSecurePort else defaultPort)
  | '/' :: _ => .ok (if secure then defaultSecurePort else defaultPort)
  | ':' :: rest =>
    match parsePort? (rest.takeWhile (· ≠ '/')) with
    | some port => .ok port
    | none => .error .invalidPort
  | _ => .error .invalidPort

/-- Read what follows the scheme. -/
def parseAuthority (secure : Bool) : List Char → Except ParseError Endpoint
  | '[' :: rest =>
    match rest.dropWhile (· ≠ ']') with
    | [] => .error .missingBrackets
    | _ :: after =>
      match IPAddress.parse? (rest.takeWhile (· ≠ ']')) with
      | none => .error .invalidAddress
      | some ip =>
        match parseAfterAddress secure after with
        | .ok port => .ok ⟨ip.toIPv6, port, secure⟩
        | .error e => .error e
  | _ => .error .missingBrackets

/-- Read an endpoint from its characters. -/
def parseChars (text : List Char) : Except ParseError Endpoint :=
  match "coaps://".toList.isPrefixOf? text with
  | some rest => parseAuthority true rest
  | none =>
    match "coap://".toList.isPrefixOf? text with
    | some rest => parseAuthority false rest
    | none =>
      if hasScheme text then .error .unsupportedScheme
      else if text.head? = some '[' then .error .missingScheme
      else
        match IPAddress.parse? text with
        | some ip => .ok ⟨ip.toIPv6, defaultPort, false⟩
        | none => .error .invalidAddress

/-- Read an endpoint. -/
def parse (text : String) : Except ParseError Endpoint := parseChars text.toList

end CoapNode.Endpoint
