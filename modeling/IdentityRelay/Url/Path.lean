import IdentityRelay.Text.Ascii
import IdentityRelay.Text.Split
import IdentityRelay.Url.Percent

/-! Paths of segments, and the resolution of the segments that name the current
or the parent directory. -/
namespace IdentityRelay.Url.Path

/-- A segment that names the current directory, plain or escaped. -/
def isDot (segment : List Char) : Bool :=
  [['.'], ['%', '2', 'e']].contains (segment.map Char.toLower)

/-- A segment that names the parent directory, each dot plain or escaped. -/
def isDoubleDot (segment : List Char) : Bool :=
  [['.', '.'], ['.', '%', '2', 'e'], ['%', '2', 'e', '.'], ['%', '2', 'e', '%', '2', 'e']].contains
    (segment.map Char.toLower)

/-- A letter and a colon or a bar. -/
def isDrive : List Char → Bool
  | [letter, mark] => letter.isAlpha && (mark == ':' || mark == '|')
  | _ => false

/-- The directory above, given its segments from the innermost outwards. There is
none above the root or above a drive. -/
def parent : List (List Char) → List (List Char)
  | [] => []
  | segment :: outer => if isDrive segment then segment :: outer else outer

/-- Walks down from a directory, given by its segments from the innermost
outwards. A dot segment at the end leaves an empty last segment. -/
def walk (inner : List (List Char)) : List (List Char) → List (List Char)
  | [] => inner.reverse
  | [last] =>
    if isDoubleDot last then ([] :: parent inner).reverse
    else if isDot last then ([] :: inner).reverse
    else (last :: inner).reverse
  | segment :: rest =>
    if isDoubleDot segment then walk (parent inner) rest
    else if isDot segment then walk inner rest
    else walk (segment :: inner) rest

/-- The segments of a path without its leading slash, dot segments resolved. -/
def resolve (segments : List (List Char)) : List (List Char) := walk [] segments

def render (segments : List (List Char)) : List Char :=
  '/' :: ['/'].intercalate (segments.map (Percent.encode Percent.path))

/-- The absolute path of a text without its leading slash. -/
def absolute (isSlash : Char → Bool) (rest : List Char) : List Char :=
  render (resolve (Text.splitWhere isSlash rest))

end IdentityRelay.Url.Path
