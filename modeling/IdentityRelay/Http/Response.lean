import IdentityRelay.Http.Headers
import IdentityRelay.Http.Method
import IdentityRelay.Http.Status
import IdentityRelay.Text.Encoding

/-! Responses, the draft that derives their length, and the responses that the
relay gives on its own account. -/
namespace IdentityRelay.Http

structure Response where
  status : Status
  headers : Headers
  body : Bytes
  deriving DecidableEq, Repr

/-- A response whose length is not yet announced. -/
structure ResponseDraft where
  status : Status
  headers : Headers := .empty
  body : Bytes := []
  /-- The response answers a HEAD request, so its length says nothing about the body. -/
  answersHead : Bool := false

namespace ResponseDraft

def header (draft : ResponseDraft) (name value : String) : ResponseDraft :=
  { draft with headers := draft.headers.append name value }

/-- Whether the length of the body still has to be announced. -/
def lacksLength (draft : ResponseDraft) : Bool :=
  !draft.answersHead && draft.status.allowsBody && !draft.headers.contains "Content-Length"

/-- The finished response, with a Content-Length where one is due. -/
def build (draft : ResponseDraft) : Response where
  status := draft.status
  headers :=
    if draft.lacksLength then draft.headers.append "Content-Length" (toString draft.body.length)
    else draft.headers
  body := draft.body

end ResponseDraft

namespace Response

/-- The response, announced as the last one on its connection. -/
def closing (response : Response) : Response :=
  { response with headers := response.headers.set "Connection" "close" }

/-- A plain-text response: the code with its phrase, an empty line, then `detail`. -/
def failure (status : Status) (detail : String) : Response :=
  ResponseDraft.build {
    status
    headers := ⟨[⟨"Content-Type", "text/plain"⟩]⟩
    body := Utf8.encode
      (toString status.code ++ " " ++ status.reason ++ "\r\n\r\n" ++ detail) }

def badRequest (detail : String) : Response := failure .badRequest detail

/-- The answer to a method that is not relayed; it lists those that are. -/
def methodNotAllowed (allowed : List Method) : Response :=
  ResponseDraft.build {
    status := .methodNotAllowed
    headers := ⟨[⟨"Allow", String.intercalate ", " (allowed.map Method.name)⟩,
      ⟨"Content-Type", "text/plain"⟩]⟩
    body := Utf8.encode "405 Method Not Allowed" }

def badGateway : Response := failure .badGateway "Failed to reach the upstream server."

def gatewayTimeout : Response :=
  failure .gatewayTimeout "The upstream server did not respond in time."

end Response

end IdentityRelay.Http
