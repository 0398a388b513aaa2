/-! Blank characters, as the Unicode property White_Space lists them, and the
removal of unwanted elements from the ends of a list. -/
namespace IdentityRelay.Text

/-- The characters with the Unicode property White_Space. -/
def isBlank (c : Char) : Bool :=
  let n := c.toNat
  (9 ≤ n && n ≤ 13) || n == 0x20 || n == 0x85 || n == 0xA0 || n == 0x1680 ||
    (0x2000 ≤ n && n ≤ 0x200A) || n == 0x2028 || n == 0x2029 || n == 0x202F ||
    n == 0x205F || n == 0x3000

def stripEnd {α : Type} (unwanted : α → Bool) (s : List α) : List α :=
  (s.reverse.dropWhile unwanted).reverse

def strip {α : Type} (unwanted : α → Bool) (s : List α) : List α :=
  stripEnd unwanted (s.dropWhile unwanted)

def trim (s : List Char) : List Char := strip isBlank s

def allBlank (s : String) : Bool := s.toList.all isBlank

def trimmed (s : String) : String := String.ofList (trim s.toList)

end IdentityRelay.Text
