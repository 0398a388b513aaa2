import IdentityRelay.Url.Ipv4
import IdentityRelay.Url.Ipv6
import IdentityRelay.Url.Percent

/-! Hosts. Behind a special scheme a host is a domain name in lower case or an
address; behind any other it is kept as it was written. -/
namespace IdentityRelay.Url

inductive Host where
  | name (text : String)
  | ipv4 (address : Ipv4)
  | ipv6 (address : Ipv6)
  deriving DecidableEq, Repr

namespace Host

def forbidden : List Char :=
  ['\x00', '\t', '\n', '\r', ' ', '#', '/', ':', '<', '>', '?', '@', '[', '\\', ']', '^', '|']

/-- The characters of a domain name. Other letters than those of ASCII are refused, where
a reader of international names would put a label that begins with `xn--` for them. -/
def isDomainChar (c : Char) : Bool :=
  0x20 < c.toNat && c.toNat < 0x7F && c != '%' && !forbidden.contains c

/-- The domain name that a text with percent escapes spells, in lower case. A label that
begins with `xn--` is taken like any other: whether it spells letters is not looked at. -/
def domain? (s : List Char) : Option (List Char) := do
  let name := (← Utf8.decode? (Percent.decode s)).toList
  if name.all isDomainChar then some (name.map Char.toLower) else none

/-- An address in brackets; the opening one is already taken off. -/
def bracketed (rest : List Char) : Except Fault Host :=
  if rest.getLast? == some ']' then (Ipv6.parse rest.dropLast).map .ipv6 else .error .ipv6

def parse : List Char → Except Fault Host
  | '[' :: rest => bracketed rest
  | s =>
    match domain? s with
    | none => .error .domainName
    | some [] => .error .emptyHost
    | some domain =>
      if Ipv4.isDue domain then (Ipv4.parse domain).map .ipv4
      else .ok (.name (String.ofList domain))

/-- A host behind a scheme that is not special; none if the text is empty. -/
def parseOpaque : List Char → Except Fault (Option Host)
  | [] => .ok none
  | '[' :: rest => (bracketed rest).map some
  | s =>
    if s.any forbidden.contains then .error .hostCharacter
    else .ok (some (.name (String.ofList (Percent.encode [] s))))

def render : Host → List Char
  | .name text => text.toList
  | .ipv4 address => address.render
  | .ipv6 address => '[' :: address.render ++ [']']

end Host

end IdentityRelay.Url
