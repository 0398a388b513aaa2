import IdentityRelay.Relay.Failure

/-! The provider's answer, how its body arrives, and the response to the caller. -/
namespace IdentityRelay.Relay
open IdentityRelay.Http

structure Answer where
  status : Status
  headers : Headers
  body : Bytes
  deriving DecidableEq, Repr

inductive BodyEnd where
  | complete
  | timedOut
  /-- The body broke off or could not be decoded. -/
  | unreadable
  deriving DecidableEq, Repr

/-- A body as it arrives, piece by piece. -/
structure BodyStream where
  pieces : List Bytes
  ending : BodyEnd
  deriving DecidableEq, Repr

namespace BodyStream

/-- Collects a body behind what was received of it. A body that breaks off counts
as far as it came, unless nothing came. -/
def collect (received : Bytes) (ending : BodyEnd) : List Bytes → Except Failure Bytes
  | piece :: rest => collect (received ++ piece) ending rest
  | [] =>
    match ending with
    | .complete => .ok received
    | .timedOut => if received.isEmpty then .error .timeout else .ok received
    | .unreadable =>
      if received.isEmpty then .error (.protocol "unreadable body: ") else .ok received

def read (stream : BodyStream) : Except Failure Bytes := collect [] stream.ending stream.pieces

end BodyStream

/-- The headers of an answer that are not relayed, because the response to the
caller is framed anew. -/
def unrelayedHeaders : List String :=
  ["content-encoding", "content-length", "transfer-encoding", "connection"]

/-- Whether a header field of an answer goes to the caller. -/
def isRelayed (header : Header) : Bool :=
  !unrelayedHeaders.any (fun name => Headers.isNamed name header)

/-- The response to the caller, whose request had this method. -/
def Answer.response (answer : Answer) (method : Method) : Response :=
  ResponseDraft.build {
    status := answer.status
    headers := answer.headers.filter isRelayed
    body := answer.body
    answersHead := method == .head }

end IdentityRelay.Relay
