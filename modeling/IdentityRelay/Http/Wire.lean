import IdentityRelay.Http.Response

/-! The bytes of a response on the connection. -/
namespace IdentityRelay.Http

def crlf : Bytes := [13, 10]

/-- The end of the last line of a head, and the empty line behind it. -/
def separator : Bytes := crlf ++ crlf

namespace Header

/-- The bytes of a field value: one for each character where that is possible,
UTF-8 otherwise. -/
def valueBytes (value : String) : Bytes := (Latin1.encode? value).getD (Utf8.encode value)

def line (header : Header) : Bytes :=
  Utf8.encode header.name ++ Utf8.encode ": " ++ valueBytes header.value

def wire (header : Header) : Bytes := header.line ++ crlf

end Header

namespace Response

def statusLine (status : Status) : Bytes :=
  Utf8.encode ("HTTP/1.1 " ++ toString status.code ++ " " ++ status.reason)

/-- The status line, the header fields and the empty line behind them. -/
def wireHead (response : Response) : Bytes :=
  statusLine response.status ++ crlf ++ response.headers.toList.flatMap Header.wire ++ crlf

/-- The whole message. A status that never has a body leaves the body out. -/
def wire (response : Response) : Bytes :=
  response.wireHead ++ (if response.status.allowsBody then response.body else [])

/-- The message without the bytes of its body, for an answer to a HEAD request. -/
def wireOfHead (response : Response) : Bytes :=
  if response.status.allowsBody then
    response.wire.take (response.wire.length - response.body.length)
  else response.wire

end Response

end IdentityRelay.Http
