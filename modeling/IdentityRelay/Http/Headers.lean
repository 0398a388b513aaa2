import IdentityRelay.Text.Ascii
import IdentityRelay.Text.Split

/-! An ordered list of header fields. Names keep their spelling and are compared
without regard to ASCII case, and one name may occur more than once. -/
namespace IdentityRelay.Http

structure Header where
  name : String
  value : String
  deriving DecidableEq, Repr

structure Headers where
  toList : List Header
  deriving DecidableEq, Repr

namespace Headers

def empty : Headers := ⟨[]⟩

/-- Whether a field is stored under `name`. -/
def isNamed (name : String) (header : Header) : Bool := Text.sameName header.name name

def values (headers : Headers) (name : String) : List String :=
  (headers.toList.filter (isNamed name)).map Header.value

def value? (headers : Headers) (name : String) : Option String := (headers.values name).head?

def contains (headers : Headers) (name : String) : Bool := headers.toList.any (isNamed name)

def count (headers : Headers) (name : String) : Nat := headers.toList.countP (isNamed name)

/-- Adds a field behind the others and keeps those of the same name. -/
def append (headers : Headers) (name value : String) : Headers :=
  ⟨headers.toList ++ [⟨name, value⟩]⟩

/-- Adds all fields of `more` behind the others. -/
def appendAll (headers more : Headers) : Headers := ⟨headers.toList ++ more.toList⟩

def filter (headers : Headers) (keep : Header → Bool) : Headers := ⟨headers.toList.filter keep⟩

def erase (headers : Headers) (name : String) : Headers :=
  headers.filter (fun header => !isNamed name header)

/-- Puts one field in the place of all those with its name, behind the others. -/
def set (headers : Headers) (name value : String) : Headers := (headers.erase name).append name value

/-- The comma-separated elements of a field value, without the blanks around them. -/
def elements (value : String) : List (List Char) :=
  (Text.splitWhere (· == ',') value.toList).map Text.trim

/-- Whether some field called `name` lists `token`; case does not matter. -/
def hasToken (headers : Headers) (name token : String) : Bool :=
  ((headers.values name).flatMap elements).any
    (fun element => Text.sameName (String.ofList element) token)

end Headers

end IdentityRelay.Http
