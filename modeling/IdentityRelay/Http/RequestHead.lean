import IdentityRelay.Http.ParseError
import IdentityRelay.Http.Request
import IdentityRelay.Http.Wire
import IdentityRelay.Text.Split

/-! The head of a request: the request line and the header fields, up to the
first empty line that is ended by CRLF. -/
namespace IdentityRelay.Http

/-- What stands before the body of a request. -/
structure RequestHead where
  method : Method
  target : String
  version : String
  headers : Headers
  deriving DecidableEq, Repr

/-- The largest head in bytes, without the empty line that ends it. -/
def headLimit : Nat := 64 * 1024

namespace RequestHead

/-- The bytes before and after the first empty line. -/
def cut (buffer : Bytes) : Except ParseError (Bytes × Bytes) :=
  match Text.cut? separator buffer with
  | some (head, body) => if headLimit < head.length then .error .headersTooLarge else .ok (head, body)
  | none => if headLimit < buffer.length then .error .headersTooLarge else .error .incomplete

/-- A line without the carriage return at its end, if it has one. -/
def dropReturn (line : Bytes) : Bytes :=
  if line.getLast? == some 13 then line.dropLast else line

/-- The lines of a head. A line feed ends a line, with or without a carriage return. -/
def lines (head : Bytes) : List Bytes := (Text.splitWhere (· == 10) head).map dropReturn

def ofRequestLine (line : Bytes) : Except ParseError (Method × String × String) :=
  match (Utf8.decode? line).map (fun text => Text.words text.toList) with
  | some [method, target, version] =>
    match Method.ofName? (String.ofList method) with
    | none => .error .invalidMethod
    | some method =>
      let version := String.ofList version
      if version == "HTTP/1.1" || version == "HTTP/1.0" then
        .ok (method, String.ofList target, version)
      else .error .invalidVersion
  | _ => .error .invalidRequest

/-- The header field on a line: a token, a colon, and any bytes as value. -/
def headerOfLine? (line : Bytes) : Option Header := do
  let (name, value) ← Text.cut? [58] line
  let name := Latin1.decode (Text.strip Text.isAsciiSpace name)
  if Text.isToken name then
    some ⟨name, Latin1.decode (Text.strip Text.isAsciiSpace value)⟩
  else none

/-- The header fields on the lines behind the request line; empty lines are skipped. -/
def headersOfLines (lines : List Bytes) : Except ParseError Headers :=
  match (lines.filter (fun line => !line.isEmpty)).mapM headerOfLine? with
  | some headers => .ok ⟨headers⟩
  | none => .error .invalidHeader

def parse (head : Bytes) : Except ParseError RequestHead := do
  let requestLine :: rest := lines head | throw .invalidRequest
  let (method, target, version) ← ofRequestLine requestLine
  return { method, target, version, headers := ← headersOfLines rest }

end RequestHead

end IdentityRelay.Http
