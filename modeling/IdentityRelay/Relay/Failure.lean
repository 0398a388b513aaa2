import IdentityRelay.Http.Response

/-! Why a request was not relayed, and what the caller is told. -/
namespace IdentityRelay.Relay
open IdentityRelay.Http

inductive Failure where
  /-- The request cannot be sent as it is. -/
  | invalidRequest (detail : String)
  | timeout
  | transport
  /-- The provider answered, but not with a usable response. -/
  | protocol (detail : String)
  /-- There is no client to send with. -/
  | client
  deriving DecidableEq, Repr

namespace Failure

/-- The text of a failure. What the transport itself reports is left out. -/
def message : Failure → String
  | invalidRequest detail => "invalid outbound request: " ++ detail
  | timeout => "upstream timed out: "
  | transport => "upstream unreachable: "
  | protocol detail => "malformed upstream response: " ++ detail
  | client => "failed to build HTTP client: "

def status : Failure → Status
  | invalidRequest _ => .badRequest
  | timeout => .gatewayTimeout
  | transport | protocol _ => .badGateway
  | client => .internalServerError

/-- The response to the caller. Only a fault of the request itself is explained. -/
def response (failure : Failure) : Response :=
  match failure with
  | invalidRequest _ => .badRequest failure.message
  | timeout => .gatewayTimeout
  | transport | protocol _ => .badGateway
  | client => .failure .internalServerError "The relay could not process the request."

end Failure

end IdentityRelay.Relay
