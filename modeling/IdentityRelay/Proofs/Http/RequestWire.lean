import IdentityRelay.Http.Parse
import IdentityRelay.Proofs.Http.ChunkedWire
import IdentityRelay.Proofs.Http.FieldLine

/-! How a request is written, and which requests can be written so that they are
read back. -/
namespace IdentityRelay.Http.Request

def requestLine (request : Request) : Bytes :=
  Utf8.encode (request.method.name ++ " " ++ request.target ++ " " ++ request.version)

def wireHead (request : Request) : Bytes :=
  headOfLines request.requestLine (request.headers.toList.map Header.line)

def isChunked (request : Request) : Bool :=
  request.headers.hasToken "Transfer-Encoding" "chunked"

/-- The body as it is, or as a single chunk if it is to be chunked and not empty. -/
def wireBody (request : Request) : Bytes :=
  if request.isChunked then
    Chunked.encode (if request.body.isEmpty then [] else [request.body])
  else request.body

/-- The whole message: lines that end in CRLF, an empty line, and the body. -/
def wire (request : Request) : Bytes := request.wireHead ++ separator ++ request.wireBody

/-- All lengths that the fields give are the length of the body, which is empty
where they give none. -/
structure LengthAgrees (request : Request) : Prop where
  given : ∀ value ∈ request.headers.values "Content-Length",
    Text.readSize? 10 (Text.trim value.toList) = some request.body.length
  missing : request.headers.values "Content-Length" = [] → request.body = []

structure WellFormed (request : Request) : Prop where
  hasTarget : request.target ≠ ""
  visibleTarget : ∀ c ∈ request.target.toList, Text.isBlank c = false
  version : request.version = "HTTP/1.0" ∨ request.version = "HTTP/1.1"
  headers : ∀ header ∈ request.headers.toList, header.WellFormed
  framed : request.isChunked = true ∨ request.LengthAgrees

end IdentityRelay.Http.Request
