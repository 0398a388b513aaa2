/-! Status codes, their reason phrases, and which of them go with a body. -/
namespace IdentityRelay.Http

/-- A status code of three digits. -/
structure Status where
  code : Nat
  threeDigits : 100 ≤ code ∧ code ≤ 999 := by decide
  deriving DecidableEq, Repr

namespace Status

def ofCode? (code : Nat) : Option Status :=
  if threeDigits : 100 ≤ code ∧ code ≤ 999 then some ⟨code, threeDigits⟩ else none

def badRequest : Status := ⟨400, by decide⟩
def methodNotAllowed : Status := ⟨405, by decide⟩
def headerFieldsTooLarge : Status := ⟨431, by decide⟩
def internalServerError : Status := ⟨500, by decide⟩
def badGateway : Status := ⟨502, by decide⟩
def gatewayTimeout : Status := ⟨504, by decide⟩

/-- The phrase behind the code on the status line; empty for codes without one. -/
def reason (status : Status) : String :=
  match status.code with
  | 100 => "Continue"
  | 101 => "Switching Protocols"
  | 200 => "OK"
  | 201 => "Created"
  | 202 => "Accepted"
  | 204 => "No Content"
  | 206 => "Partial Content"
  | 301 => "Moved Permanently"
  | 302 => "Found"
  | 303 => "See Other"
  | 304 => "Not Modified"
  | 307 => "Temporary Redirect"
  | 308 => "Permanent Redirect"
  | 400 => "Bad Request"
  | 401 => "Unauthorized"
  | 403 => "Forbidden"
  | 404 => "Not Found"
  | 405 => "Method Not Allowed"
  | 409 => "Conflict"
  | 410 => "Gone"
  | 415 => "Unsupported Media Type"
  | 422 => "Unprocessable Entity"
  | 429 => "Too Many Requests"
  | 431 => "Request Header Fields Too Large"
  | 500 => "Internal Server Error"
  | 501 => "Not Implemented"
  | 502 => "Bad Gateway"
  | 503 => "Service Unavailable"
  | 504 => "Gateway Timeout"
  | _ => ""

/-- Responses with a code below 200, with 204 or with 304 never have a body. -/
def allowsBody (status : Status) : Bool :=
  !(status.code < 200 || status.code == 204 || status.code == 304)

end Status

end IdentityRelay.Http
