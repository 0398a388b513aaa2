import IdentityRelay.Text.Unprintable

/-! Texts between double quotes, on one line. -/
namespace IdentityRelay.Text

/-- A character between the quotes: a backslash stands before a quote, a backslash
and the letter of a common control; other unprintable characters are given by
their number. -/
def quoteChar (c : Char) : List Char :=
  match c with
  | '"' | '\\' => ['\\', c]
  | '\x00' => ['\\', '0']
  | '\t' => ['\\', 't']
  | '\n' => ['\\', 'n']
  | '\r' => ['\\', 'r']
  | c =>
    if isUnprintable c then ['\\', 'u', '\x7b'] ++ Nat.toDigits 16 c.toNat ++ ['\x7d'] else [c]

def quoted (s : String) : String :=
  String.ofList ('"' :: s.toList.flatMap quoteChar ++ ['"'])

end IdentityRelay.Text
