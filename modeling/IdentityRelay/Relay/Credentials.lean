import IdentityRelay.Url.Basic

/-! The name and the password in a URL. An HTTP client does not send them there: it
takes them out and puts them into a field. -/
namespace IdentityRelay

namespace Base64

/-- The character for six bits. -/
def digit (n : Nat) : Char :=
  if n < 26 then Char.ofNat (65 + n)
  else if n < 52 then Char.ofNat (97 + (n - 26))
  else if n < 62 then Char.ofNat (48 + (n - 52))
  else if n = 62 then '+' else '/'

/-- Four characters for three bytes each; the last group is filled up. -/
def encode : Bytes → List Char
  | [] => []
  | [a] => [digit (a.toNat / 4), digit (a.toNat % 4 * 16), '=', '=']
  | [a, b] =>
    [digit (a.toNat / 4), digit (a.toNat % 4 * 16 + b.toNat / 16), digit (b.toNat % 16 * 4), '=']
  | a :: b :: c :: rest =>
    digit (a.toNat / 4) :: digit (a.toNat % 4 * 16 + b.toNat / 16) ::
      digit (b.toNat % 16 * 4 + c.toNat / 64) :: digit (c.toNat % 64) :: encode rest

end Base64

structure Url.Credentials where
  username : String
  password? : Option String
  deriving DecidableEq, Repr

namespace Url

/-- What a client takes out of a URL, without escapes. A name whose bytes are no text
stays where it is, with its password; a password that is no text is dropped. -/
def credentials? (url : Url) : Option Credentials := do
  let authority ← url.authority?
  if authority.username.isEmpty && authority.password.isEmpty then none
  else
    let username ← Utf8.decode? (Percent.decode authority.username.toList)
    let password? := if authority.password.isEmpty then none
      else Utf8.decode? (Percent.decode authority.password.toList)
    if username.isEmpty && password?.isNone then none else some { username, password? }

def withoutCredentials (url : Url) : Url :=
  match url.credentials? with
  | some _ =>
    { url with
      authority? := url.authority?.map fun authority =>
        { authority with username := "", password := "" } }
  | none => url

end Url

/-- The value of the field that carries credentials. -/
def Url.Credentials.fieldValue (credentials : Credentials) : String :=
  let text := credentials.username ++ ":" ++ credentials.password?.getD ""
  "Basic " ++ String.ofList (Base64.encode (Utf8.encode text))

end IdentityRelay
