import IdentityRelay.Url.Basic
import IdentityRelay.Url.Path

/-! Reading an absolute URL, forgivingly: surrounding blanks, tabs and line breaks
are ignored, and the special schemes take a backslash for a slash. -/
namespace IdentityRelay.Url

/-- How the text behind a scheme is read. -/
inductive SchemeKind where
  | special (defaultService : Nat)
  | file
  | other
  deriving DecidableEq, Repr

namespace SchemeKind

def ofScheme (scheme : String) : SchemeKind :=
  match scheme with
  | "http" | "ws" => .special 80
  | "https" | "wss" => .special 443
  | "ftp" => .special 21
  | "file" => .file
  | _ => .other

def isSpecial (kind : SchemeKind) : Bool := kind != .other

def isSlash (kind : SchemeKind) (c : Char) : Bool := c == '/' || (c == '\\' && kind.isSpecial)

end SchemeKind

/-- A text without the control characters and spaces at its ends and without any
tab or line break. -/
def clean (s : List Char) : List Char :=
  (Text.strip (fun c => c.toNat ≤ 0x20) s).filter (fun c => !(c == '\t' || c == '\n' || c == '\r'))

def cutScheme? (s : List Char) : Option (String × List Char) := do
  let (scheme, rest) ← Text.cut? [':'] s
  guard ((scheme.head?.any Char.isAlpha) &&
    scheme.all fun c => c.isAlphanum || ['+', '-', '.'].contains c)
  return (String.ofList (scheme.map Char.toLower), rest)

/-- The parts before and after the first `mark`; without one, all is before it. -/
def cutMark (mark : Char) (s : List Char) : List Char × Option (List Char) :=
  match Text.cut? [mark] s with
  | some (before, after) => (before, some after)
  | none => (s, none)

/-- The parts before and after the last at sign; without one, all is after it. -/
def cutUserinfo (s : List Char) : Option (List Char) × List Char :=
  match Text.cut? ['@'] s.reverse with
  | some (after, before) => (some before.reverse, after.reverse)
  | none => (none, s)

/-- The host, up to a colon outside brackets, and what follows it. -/
def cutHost (inBrackets : Bool) : List Char → List Char × List Char
  | [] => ([], [])
  | c :: rest =>
    if c == ':' && !inBrackets then ([], c :: rest)
    else
      let (host, after) := cutHost (c == '[' || (inBrackets && c != ']')) rest
      (c :: host, after)

/-- The service number behind a colon. Without digits there is none. -/
def serviceOfDigits (kind : SchemeKind) (digits : List Char) : Except Fault (Option Nat) :=
  let number := Text.ofDigits 10 (digits.filterMap (Text.digit? 10))
  if digits.isEmpty then .ok none
  else if 65535 < number then .error .serviceNumber
  else .ok (if kind == .special number then none else some number)

/-- The service number in what follows a host, and the start of a path that a
backslash makes behind a scheme that is not special. -/
def readService (kind : SchemeKind) (s : List Char) : Except Fault (Option Nat × List Char) := do
  let rest := s.drop 1
  let digits := rest.takeWhile Char.isDigit
  let after := rest.dropWhile Char.isDigit
  let service? ← serviceOfDigits kind digits
  if after.isEmpty || after.head? == some '\\' then return (service?, after)
  else throw .serviceNumber

def readUserinfo (s : List Char) : String × String :=
  let (username, password?) := cutMark ':' s
  let encode (part : List Char) := String.ofList (Percent.encode Percent.userinfo part)
  (encode username, encode (password?.getD []))

/-- The host, which only a scheme that is not special can do without. -/
def readHost (kind : SchemeKind) (host : List Char) : Except Fault (Option Host) :=
  match kind with
  | .special _ => if host.isEmpty then .error .emptyHost else (Host.parse host).map some
  | _ => Host.parseOpaque host

/-- The authority, and what was cut off it for the path. `atEnd` says whether the
URL ends with the authority. -/
def readAuthority (kind : SchemeKind) (atEnd : Bool) (s : List Char) :
    Except Fault (Authority × List Char) := do
  let (userinfo?, rest) := cutUserinfo s
  if userinfo? == some [] && rest.isEmpty && !atEnd then throw .emptyHost
  let (username, password) := readUserinfo (userinfo?.getD [])
  let (hostText, after) := cutHost false rest
  let host? ← readHost kind hostText
  if host?.isNone && !after.isEmpty then throw .emptyHost
  let (service?, leftover) ← readService kind after
  if host?.isNone && !(username.isEmpty && password.isEmpty) then throw .emptyHost
  return ({ username, password, host?, service? }, leftover)

/-- The path behind an authority. Only a scheme that is not special can do without. -/
def pathAfterAuthority (kind : SchemeKind) (s : List Char) : List Char :=
  match s with
  | [] => if kind.isSpecial then ['/'] else []
  | c :: rest => Path.absolute kind.isSlash (if kind.isSlash c then rest else c :: rest)

/-- The host of a file and the text of its path. A drive is not a host, and the
local host is left out. -/
def readFileHost (s : List Char) : Except Fault (Option Host × List Char) := do
  let host := s.takeWhile (fun c => !SchemeKind.file.isSlash c)
  let rest := s.dropWhile (fun c => !SchemeKind.file.isSlash c)
  if Path.isDrive host then return (none, s)
  if host.isEmpty then return (none, rest)
  match ← Host.parse host with
  | .name "localhost" => return (none, rest)
  | host => return (some host, rest)

/-- The path of a file: one leading slash, and drives with a colon. -/
def pathOfFile (s : List Char) : List Char :=
  let segments := Path.resolve (Text.splitWhere SchemeKind.file.isSlash s)
  let withColon (segment : List Char) :=
    if Path.isDrive segment then segment.take 1 ++ [':'] else segment
  '/' :: (Path.render (segments.map withColon)).dropWhile (· == '/')

/-- The authority and the path of a file. A drive in the path drops the host. -/
def readFile (s : List Char) : Except Fault (Option Authority × List Char) := do
  let (host?, path) ← match s with
    | a :: b :: rest =>
      if SchemeKind.file.isSlash a && SchemeKind.file.isSlash b then readFileHost rest
      else pure (none, s)
    | s => pure (none, s)
  let hasDrive := (Text.splitWhere SchemeKind.file.isSlash path).any Path.isDrive
  return (some { host? := if hasDrive then none else host? }, pathOfFile path)

/-- The authority and the path in what stands between the scheme and the query. -/
def readHierarchy (kind : SchemeKind) (atEnd : Bool) (s : List Char) :
    Except Fault (Option Authority × List Char) := do
  let authorityAndPath (s : List Char) := do
    let inAuthority (c : Char) := !kind.isSlash c
    let path := s.dropWhile inAuthority
    let (authority, leftover) ← readAuthority kind (atEnd && path.isEmpty) (s.takeWhile inAuthority)
    return (some authority, pathAfterAuthority kind (leftover ++ path))
  match kind, s with
  | .special _, s => authorityAndPath (s.dropWhile kind.isSlash)
  | .file, s => readFile s
  | .other, '/' :: '/' :: rest => authorityAndPath rest
  | .other, '/' :: rest => return (none, Path.absolute kind.isSlash rest)
  | .other, s => return (none, Percent.encode [] s)

def parse (s : String) : Except Fault Url := do
  let some (scheme, rest) := cutScheme? (clean s.toList) | throw .relative
  let kind := SchemeKind.ofScheme scheme
  let (rest, fragment?) := cutMark '#' rest
  let (hierarchy, query?) := cutMark '?' rest
  let (authority?, path) ← readHierarchy kind (query?.isNone && fragment?.isNone) hierarchy
  let queryEscapes := if kind.isSpecial then Percent.specialQuery else Percent.query
  return {
    scheme
    authority?
    path := String.ofList path
    query? := query?.map fun query => String.ofList (Percent.encode queryEscapes query)
    fragment? := fragment?.map fun fragment =>
      String.ofList (Percent.encode Percent.fragment fragment) }

end IdentityRelay.Url
