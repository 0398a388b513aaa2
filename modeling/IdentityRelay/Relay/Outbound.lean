import IdentityRelay.Config.Provider
import IdentityRelay.Http.Request
import IdentityRelay.Relay.Credentials
import IdentityRelay.Relay.Target

/-! The request that goes to the provider: the caller's, with the identity of the
configured user in place of any that the caller claims. -/
namespace IdentityRelay.Relay
open IdentityRelay.Http

structure Outbound where
  method : Method
  url : Url
  headers : Headers
  body : Bytes
  deriving DecidableEq, Repr

/-- A header field in the form in which it is sent. -/
structure Field where
  /-- In lower case. -/
  name : String
  value : Bytes
  deriving DecidableEq, Repr

def userIdHeader : String := "x-iowallet-user-id"

def appKeyHeader : String := "x-functions-key"

def authorizationHeader : String := "authorization"

/-- The longest URL in bytes that can be sent. -/
def urlLimit : Nat := 65534

namespace Outbound

/-- The caller's headers without `Host`, with the identity set over any value of theirs. -/
def identify (provider : Provider) (headers : Headers) : Headers :=
  let identified := (headers.erase "host").set userIdHeader provider.userId
  match provider.appKey? with
  | some appKey => identified.set appKeyHeader appKey
  | none => identified

def prepare (provider : Provider) (request : Request) : Except Failure Outbound := do
  return {
    method := request.method
    url := ← targetUrl provider.baseUrl request.target
    headers := identify provider request.headers
    body := request.body }

/-- Of the control bytes only the tab can stand in the value of a field. -/
def isValueByte (b : UInt8) : Bool := b == 9 || (32 ≤ b && b != 127)

/-- The field that carries a header, with one byte for each character of its value. -/
def fieldOf (header : Header) : Except Failure Field :=
  if !Text.isToken header.name then
    .error (.invalidRequest ("header name `" ++ header.name ++ "`"))
  else
    let name := Text.lower header.name
    match (Latin1.encode? header.value).filter (·.all isValueByte) with
    | some value => .ok { name, value }
    | none => .error (.invalidRequest ("value of header `" ++ name ++ "`"))

/-- The fields of a request, or the fault of the first header that no field can carry. -/
def fields (outbound : Outbound) : Except Failure (List Field) :=
  outbound.headers.toList.mapM fieldOf

/-- The fault of a request that cannot be put into the form in which it is sent. -/
def fault? (outbound : Outbound) : Option Failure :=
  match outbound.fields with
  | .ok _ => none
  | .error failure => some failure

/-- The URL as it is sent. -/
def sentUrl (outbound : Outbound) : Url := outbound.url.withoutCredentials

/-- Whether the URL is short enough to be sent. -/
def isWithinLimit (outbound : Outbound) : Bool :=
  (Utf8.encode outbound.sentUrl.text).length ≤ urlLimit

/-- The headers as they are sent. Credentials in the URL give way to those that the
caller sends. -/
def sentHeaders (outbound : Outbound) : Headers :=
  match outbound.url.credentials? with
  | some credentials =>
    if outbound.headers.contains authorizationHeader then outbound.headers
    else outbound.headers.append authorizationHeader credentials.fieldValue
  | none => outbound.headers

end Outbound

end IdentityRelay.Relay
