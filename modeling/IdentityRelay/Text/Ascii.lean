/-! Text compared without regard to the case of its ASCII letters, and the
character classes that stop at ASCII. -/
namespace IdentityRelay.Text

def lower (s : String) : String := String.ofList (s.toList.map Char.toLower)

/-- Equality up to the case of ASCII letters. -/
def sameName (a b : String) : Bool := a.toList.map Char.toLower == b.toList.map Char.toLower

def isAsciiSpace (b : UInt8) : Bool := b == 32 || b == 9 || b == 10 || b == 12 || b == 13

/-- The characters of which a header name is made. -/
def isTokenChar (c : Char) : Bool :=
  c.isAlphanum || "!#$%&'*+-.^_\x60|~".toList.contains c

def isToken (s : String) : Bool := !s.isEmpty && s.toList.all isTokenChar

/-- The value of a digit in a base of at most sixteen. -/
def digit? (base : Nat) (c : Char) : Option Nat :=
  let n := c.toNat
  let value? : Option Nat :=
    if 0x30 ≤ n && n ≤ 0x39 then some (n - 0x30)
    else if 0x41 ≤ n && n ≤ 0x46 then some (n - 0x37)
    else if 0x61 ≤ n && n ≤ 0x66 then some (n - 0x57)
    else none
  value?.filter (· < base)

/-- The number that a list of digits denotes, most significant digit first. -/
def ofDigits (base : Nat) (digits : List Nat) : Nat :=
  digits.foldl (fun value digit => value * base + digit) 0

/-- Sizes and lengths are numbers below this limit, those of 64 binary digits. -/
def wordLimit : Nat := 0x1_0000_0000_0000_0000

/-- Reads a size: digits of the base, at least one, after at most one plus sign,
denoting a number below `wordLimit`. -/
def readSize? (base : Nat) (s : List Char) : Option Nat :=
  let digits := match s with
    | '+' :: rest => rest
    | s => s
  if digits.isEmpty then none
  else ((digits.mapM (digit? base)).map (ofDigits base)).filter (· < wordLimit)

end IdentityRelay.Text
