import IdentityRelay.Http.Headers
import IdentityRelay.Http.Method
import IdentityRelay.Text.Encoding

/-! A request as the client sent it, and what can be read off it: whether the
connection outlives it, and its cookies. -/
namespace IdentityRelay.Http

structure Request where
  method : Method
  /-- The request target as it stood on the request line, query included. -/
  target : String
  version : String
  headers : Headers
  /-- The payload, without any transfer coding. -/
  body : Bytes
  deriving DecidableEq, Repr

namespace Request

/-- Whether the connection stays open after the response. A `close` token wins
over a `keep-alive` token, and without either only HTTP/1.0 closes. -/
def keepAlive (request : Request) : Bool :=
  if request.headers.hasToken "Connection" "close" then false
  else if request.headers.hasToken "Connection" "keep-alive" then true
  else request.version != "HTTP/1.0"

/-- The name and the value of one cookie, if the text has an equals sign. -/
def cookie? (text : List Char) : Option (String × String) :=
  (Text.cut? ['='] (Text.trim text)).map fun (name, value) =>
    (String.ofList (Text.trim name), String.ofList (Text.trim value))

def cookies (request : Request) : List (String × String) :=
  ((request.headers.values "Cookie").flatMap
    (fun line => Text.splitWhere (· == ';') line.toList)).filterMap cookie?

end Request

/-- A request under construction. -/
structure RequestDraft where
  method? : Option Method := none
  target? : Option String := none
  version : String := "HTTP/1.1"
  headers : Headers := .empty
  body : Bytes := []

namespace RequestDraft

inductive Gap where
  | method | target
  deriving DecidableEq, Repr

def Gap.message : Gap → String
  | .method => "method missing"
  | .target => "path missing"

/-- The finished request. A missing method is noticed before a missing target. -/
def build (draft : RequestDraft) : Except Gap Request := do
  let some method := draft.method? | throw .method
  let some target := draft.target? | throw .target
  return { method, target, version := draft.version, headers := draft.headers, body := draft.body }

end RequestDraft

end IdentityRelay.Http
