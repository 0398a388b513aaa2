import IdentityRelay.Relay.Gzip
import IdentityRelay.Relay.Remote

/-! A reply of the provider as it is sent, and what an HTTP client makes of it. -/
namespace IdentityRelay.Relay
open IdentityRelay.Http

/-- How a provider marks the end of a body. -/
inductive BodyMark where
  | length
  | chunks
  | close
  deriving DecidableEq, Repr

structure RawReply where
  status : Status
  /-- Names and values as they are sent, with blanks around the values. -/
  headers : Headers
  body : Bytes
  mark : BodyMark := .length
  /-- The connection ends after this many bytes of the body. -/
  cut? : Option Nat := none
  deriving DecidableEq, Repr

namespace RawReply

private def isGap (c : Char) : Bool := c == ' ' || c == '\t'

/-- A field with its name in lower case and without blanks around its value. -/
def normalised (header : Header) : Header :=
  ⟨Text.lower header.name, String.ofList (Text.strip isGap header.value.toList)⟩

/-- The fields with all values of one name together, in the order in which the
names first appear. -/
def grouped (headers : List Header) : List Header :=
  (headers.map Header.name).eraseDups.flatMap fun name =>
    headers.filter (fun header => header.name == name)

/-- The fields as a client holds them. -/
def clientHeaders (reply : RawReply) : Headers :=
  ⟨grouped (reply.headers.toList.map normalised)⟩

/-- The bytes of the body that arrive, and how they end. -/
def arriving (reply : RawReply) : BodyStream :=
  match reply.cut? with
  | none => ⟨[reply.body], .complete⟩
  | some count =>
    let isWhole : Bool := match reply.mark with
      | .length => decide (reply.body.length ≤ count)
      | .chunks => false
      | .close => true
    ⟨[reply.body.take count], if isWhole then .complete else .unreadable⟩

/-- The body as a client reads it: unpacked if it is packed. -/
def stream (reply : RawReply) : BodyStream :=
  let arriving := reply.arriving
  let bytes := arriving.pieces.flatten
  if reply.clientHeaders.value? "content-encoding" == some "gzip" && !bytes.isEmpty then
    Gzip.unpack bytes
  else arriving

def reply (raw : RawReply) : Reply := .answer raw.status raw.clientHeaders raw.stream

end RawReply

/-- A request as the provider receives it. -/
structure Received where
  method : Method
  target : String
  headers : Headers
  body : Bytes
  deriving DecidableEq, Repr

namespace Received

/-- The fields that an HTTP client sets by itself. -/
def isOfClient (header : Header) : Bool :=
  ["host", "content-length", "transfer-encoding", "connection"].contains header.name ||
    header == ⟨"accept", "*/*"⟩ || header == ⟨"accept-encoding", "gzip,deflate,br"⟩

/-- What arrives of a request that was sent, with the fields in the order of their
names and without those that are the client's own. -/
def ofOutbound (outbound : Outbound) : Received where
  method := outbound.method
  target := outbound.sentUrl.path ++ ((outbound.sentUrl.query?.map ("?" ++ ·)).getD "")
  headers :=
    let fields := (outbound.sentHeaders.toList.map RawReply.normalised).filter (!isOfClient ·)
    ⟨fields.mergeSort fun a b => a.name ≤ b.name⟩
  body := outbound.body

end Received

end IdentityRelay.Relay
