import IdentityRelay.Text.Ascii
import IdentityRelay.Text.Encoding

/-! Percent escapes. Each component of a URL has its own list of ASCII
characters that are escaped; characters outside printable ASCII always are. -/
namespace IdentityRelay.Url.Percent

/-- A percent sign and the two hexadecimal digits of a byte. -/
def escapeByte (byte : UInt8) : List Char :=
  ['%', (Nat.digitChar (byte.toNat / 16)).toUpper, (Nat.digitChar (byte.toNat % 16)).toUpper]

/-- Whether a character stands for itself, given the printable ones that are escaped. -/
def isPlain (escaped : List Char) (c : Char) : Bool :=
  0x20 ≤ c.toNat && c.toNat < 0x7F && !escaped.contains c

/-- The text with an escape for every byte of the characters that are not plain. -/
def encode (escaped s : List Char) : List Char :=
  s.flatMap fun c =>
    if isPlain escaped c then [c] else (String.utf8EncodeChar c).flatMap escapeByte

/-- The bytes of a text in which escapes stand for bytes; a percent sign without
two hexadecimal digits behind it stands for itself. -/
def decode : List Char → Bytes
  | [] => []
  | c :: rest =>
    match c, rest with
    | '%', high :: low :: rest =>
      match Text.digit? 16 high, Text.digit? 16 low with
      | some h, some l => UInt8.ofNat (h * 16 + l) :: decode rest
      | _, _ => 37 :: decode (high :: low :: rest)
    | c, rest => String.utf8EncodeChar c ++ decode rest

def fragment : List Char := [' ', '"', '<', '>', '\x60']

def path : List Char := fragment ++ ['#', '?', '\x7b', '\x7d']

def userinfo : List Char := path ++ ['/', ':', ';', '=', '@', '[', '\\', ']', '^', '|']

def query : List Char := [' ', '"', '#', '<', '>']

def specialQuery : List Char := '\'' :: query

end IdentityRelay.Url.Percent
