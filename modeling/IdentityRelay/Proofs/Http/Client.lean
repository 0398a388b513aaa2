import IdentityRelay.Http.Headers
import IdentityRelay.Http.RequestHead
import IdentityRelay.Http.Wire

/-! A client that reads responses off a connection. It knows of each response only
whether the request was one for the head alone, and finds the end of a body by its
length. -/
namespace IdentityRelay.Http

/-- A response as a client reads it. -/
structure Message where
  code : Nat
  /-- The fields in order, without the spaces around their values. -/
  headers : Headers
  body : Bytes
  deriving DecidableEq, Repr

namespace Client

def decimal? (text : String) : Option Nat :=
  if text.isEmpty then none
  else (text.toList.mapM (Text.digit? 10)).map (Text.ofDigits 10)

def codeOfLine? (line : Bytes) : Option Nat :=
  (Text.cut? [32] line).bind fun (version, rest) =>
    (Text.cut? [32] rest).bind fun (code, _) =>
      if version = Utf8.encode "HTTP/1.1" then decimal? (Latin1.decode code) else none

def headerOfLine? (line : Bytes) : Option Header :=
  (Text.cut? [58] line).map fun (name, value) =>
    ⟨Latin1.decode name, Latin1.decode (Text.strip Text.isAsciiSpace value)⟩

def readHead? (head : Bytes) : Option (Nat × Headers) :=
  match RequestHead.lines head with
  | [] => none
  | statusLine :: lines =>
    (codeOfLine? statusLine).bind fun code =>
      (lines.mapM headerOfLine?).map fun headers => (code, ⟨headers⟩)

def isBodiless (code : Nat) : Bool := code < 200 || code == 204 || code == 304

/-- How long a body is. Where there can be one, exactly one field has to give its length. -/
def bodyLength? (headOnly : Bool) (code : Nat) (headers : Headers) : Option Nat :=
  if headOnly || isBodiless code then some 0
  else match headers.values "Content-Length" with
    | [length] => decimal? length
    | _ => none

def read? (headOnly : Bool) (bytes : Bytes) : Option (Message × Bytes) :=
  (Text.cut? separator bytes).bind fun (head, rest) =>
    (readHead? head).bind fun (code, headers) =>
      (bodyLength? headOnly code headers).bind fun length =>
        if rest.length < length then none
        else some (⟨code, headers, rest.take length⟩, rest.drop length)

/-- One response for each request, and the bytes that are left over. -/
def readAll? : List Bool → Bytes → Option (List Message × Bytes)
  | [], bytes => some ([], bytes)
  | headOnly :: others, bytes =>
    (read? headOnly bytes).bind fun (message, rest) =>
      (readAll? others rest).map fun (messages, left) => (message :: messages, left)

end Client

end IdentityRelay.Http
