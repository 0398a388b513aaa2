import IdentityRelay.Url.Host

/-! Absolute URLs as values, and their text. -/
namespace IdentityRelay

/-- What stands between the two slashes and the path of a URL. -/
structure Url.Authority where
  username : String := ""
  password : String := ""
  host? : Option Url.Host
  /-- The service number at the host, unless it is the default of the scheme. -/
  service? : Option Nat := none
  deriving DecidableEq, Repr

/-- An absolute URL. All texts are escaped as they are written. -/
structure Url where
  scheme : String
  authority? : Option Url.Authority
  path : String
  query? : Option String
  fragment? : Option String
  deriving DecidableEq, Repr

namespace Url

namespace Authority

def renderUserinfo (authority : Authority) : List Char :=
  if authority.username.isEmpty && authority.password.isEmpty then []
  else authority.username.toList ++
    (if authority.password.isEmpty then [] else ':' :: authority.password.toList) ++ ['@']

def render (authority : Authority) : List Char :=
  authority.renderUserinfo ++
    (authority.host?.map Host.render).getD [] ++
    (authority.service?.map fun number => ':' :: Nat.toDigits 10 number).getD []

end Authority

/-- The scheme and the authority. Without an authority, a path that starts with
two slashes is kept apart from it by a dot. -/
def renderFront (url : Url) : List Char :=
  url.scheme.toList ++ ':' :: match url.authority? with
    | some authority => '/' :: '/' :: authority.render
    | none => if ['/', '/'].isPrefixOf url.path.toList then ['/', '.'] else []

def renderBack (url : Url) : List Char :=
  (url.query?.map fun query => '?' :: query.toList).getD [] ++
    (url.fragment?.map fun fragment => '#' :: fragment.toList).getD []

def render (url : Url) : List Char := url.renderFront ++ url.path.toList ++ url.renderBack

def text (url : Url) : String := String.ofList url.render

end Url

end IdentityRelay
