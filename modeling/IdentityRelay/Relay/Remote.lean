import IdentityRelay.Relay.Answer
import IdentityRelay.Relay.Outbound

/-! The provider as the relay meets it: a sequence of replies, one for each
request that reaches it. -/
namespace IdentityRelay.Relay
open IdentityRelay.Http

/-- What comes back for one request. -/
inductive Reply where
  | none
  | late
  | answer (status : Status) (headers : Headers) (body : BodyStream)
  deriving DecidableEq, Repr

/-- What the provider still has to say, and what it was asked. -/
structure Remote where
  isReachable : Bool
  /-- The replies to come; when they are used up there are no responses any more. -/
  replies : List Reply
  /-- The requests that reached the provider, in order. -/
  seen : List Outbound
  deriving DecidableEq, Repr

namespace Remote

/-- What the relay makes of a reply. No body is expected after a HEAD request, nor
with a status that goes without. -/
def outcome (method : Method) : Reply → Except Failure Answer
  | .none => .error .transport
  | .late => .error .timeout
  | .answer status headers body =>
    let body := if method == .head || !status.allowsBody then ⟨[], .complete⟩ else body
    body.read.map fun body => { status, headers, body }

/-- One attempt to send a request. A URL that is too long does not leave the relay. -/
def call (remote : Remote) (outbound : Outbound) : Except Failure Answer × Remote :=
  if !outbound.isWithinLimit then
    (.error (.invalidRequest ("builder error for url (" ++ outbound.sentUrl.text ++ ")")), remote)
  else if !remote.isReachable then (.error .transport, remote)
  else
    (outcome outbound.method (remote.replies.head?.getD .none),
      { remote with replies := remote.replies.tail, seen := remote.seen ++ [outbound] })

end Remote

/-- What came of relaying a request. -/
structure Outcome where
  result : Except Failure Response
  call? : Option Outbound
  remote : Remote

/-- Relays a request. The provider is called at most once. -/
def relay (provider : Provider) (remote : Remote) (request : Request) : Outcome :=
  match Outbound.prepare provider request with
  | .error failure => { result := .error failure, call? := none, remote }
  | .ok outbound =>
    match outbound.fault? with
    | some failure => { result := .error failure, call? := none, remote }
    | none =>
      let (answer, remote) := remote.call outbound
      { result := answer.map (·.response request.method), call? := some outbound, remote }

/-- The response to the caller, whether relaying succeeded or not. -/
def Outcome.response (outcome : Outcome) : Response :=
  match outcome.result with
  | .ok response => response
  | .error failure => failure.response

end IdentityRelay.Relay
