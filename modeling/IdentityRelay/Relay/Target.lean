import IdentityRelay.Relay.Failure
import IdentityRelay.Url.Parse

/-! The URL to which a request goes: the path and the query of its target behind
the base URL. -/
namespace IdentityRelay.Relay

/-- The path and the query of a request target. The target is a path itself, or a
URL whose scheme and authority do not matter, or an asterisk. -/
def pathAndQuery? (target : List Char) : Option (List Char) :=
  match target with
  | '/' :: _ => some target
  | ['*'] => some []
  | _ => (Text.cut? [':', '/', '/'] target).map fun (_, rest) =>
    rest.dropWhile (fun c => c != '/' && c != '?')

/-- The text of the URL: the base without slashes at its end, then the path and
the query. A query alone goes to the root below the base. -/
def joined (base : Url) (pathAndQuery : List Char) : List Char :=
  let front := Text.stripEnd (· == '/') base.render
  match pathAndQuery with
  | '?' :: _ => front ++ '/' :: pathAndQuery
  | _ => front ++ pathAndQuery

def targetUrl (base : Url) (target : String) : Except Failure Url :=
  match pathAndQuery? target.toList with
  | none => .error (.invalidRequest ("unsupported request target `" ++ target ++ "`"))
  | some pathAndQuery =>
    let text := String.ofList (joined base pathAndQuery)
    (Url.parse text).mapError fun fault => .invalidRequest (text ++ ": " ++ fault.message)

end IdentityRelay.Relay
