import IdentityRelay.Config.Fault
import IdentityRelay.Text.Blank
import IdentityRelay.Text.Quoted
import IdentityRelay.Url.Parse

/-! The provider to which requests are relayed, and the identity that goes with them. -/
namespace IdentityRelay

/-- A text, unless it is blank. -/
def nonBlank (value? : Option String) : Option String := value?.filter (fun s => !Text.allBlank s)

structure Provider where
  /-- Every request target is appended to this URL. -/
  baseUrl : Url
  userId : String
  appKey? : Option String
  deriving DecidableEq, Repr

namespace Provider

/-- Reads a base URL: an HTTP URL with a host and without query and fragment.
Blanks around it do not matter. International host names are left out: a host with
letters outside ASCII is refused, and labels that begin with `xn--` go unchecked. -/
def parseBaseUrl (value : String) : Except ConfigFault Url := do
  let invalid (fault : BaseUrlFault) := ConfigFault.invalidUrl value fault
  let url ← (Url.parse (Text.trimmed value)).mapError fun fault => invalid (.malformed fault)
  if url.scheme != "http" && url.scheme != "https" then throw (invalid .scheme)
  if (url.authority?.bind Url.Authority.host?).isNone then throw (invalid .host)
  if url.query?.isSome || url.fragment?.isSome then throw (invalid .queryOrFragment)
  return url

def ofTexts (baseUrl userId : String) : Except ConfigFault Provider := do
  if userId.isEmpty then throw (.missing .userId)
  return { baseUrl := ← parseBaseUrl baseUrl, userId, appKey? := none }

/-- The provider with this application key; a blank one counts as none. -/
def withAppKey (provider : Provider) (appKey : String) : Provider :=
  { provider with appKey? := nonBlank (some appKey) }

/-- A description for logs, which does not tell the application key. -/
def describe (provider : Provider) : String :=
  let appKey := match provider.appKey? with
    | some _ => "Some(" ++ Text.quoted "<redacted>" ++ ")"
    | none => "None"
  "UpstreamConfig \x7b base_url: " ++ Text.quoted provider.baseUrl.text ++
    ", user_id: " ++ Text.quoted provider.userId ++ ", app_key: " ++ appKey ++ " \x7d"

end Provider

end IdentityRelay
