/-! Why bytes from a client are not, or not yet, a request. -/
namespace IdentityRelay.Http

inductive ParseError where
  | invalidRequest
  | invalidMethod
  | invalidVersion
  | invalidHeader
  | invalidContentLength
  | invalidChunk
  | headersTooLarge
  /-- More bytes are needed. -/
  | incomplete
  deriving DecidableEq, Repr

end IdentityRelay.Http
