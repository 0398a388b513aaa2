import IdentityRelay.Http.Chunked
import IdentityRelay.Http.Headers

/-! How the end of a request body is found. -/
namespace IdentityRelay.Http

inductive Framing where
  | chunked
  | sized (length : Nat)
  deriving DecidableEq, Repr

namespace Framing

/-- The length that all Content-Length fields agree on; zero without such a field. -/
def contentLength (headers : Headers) : Except ParseError Nat :=
  let readLength? (value : String) := Text.readSize? 10 (Text.trim value.toList)
  match (headers.values "Content-Length").mapM readLength? with
  | some [] => .ok 0
  | some (length :: others) =>
    if others.all (· == length) then .ok length else .error .invalidContentLength
  | none => .error .invalidContentLength

/-- The framing that the header fields announce. A chunked coding wins over any length. -/
def ofHeaders (headers : Headers) : Except ParseError Framing :=
  if headers.hasToken "Transfer-Encoding" "chunked" then .ok .chunked
  else (contentLength headers).map .sized

/-- The body at the front of `bytes`, and how many bytes it took. -/
def readBody (framing : Framing) (bytes : Bytes) : Except ParseError (Bytes × Nat) :=
  match framing with
  | .chunked => Chunked.decode bytes
  | .sized length =>
    let body := bytes.take length
    if body.length < length then .error .incomplete else .ok (body, length)

end Framing

end IdentityRelay.Http
