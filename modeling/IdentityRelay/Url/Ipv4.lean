import IdentityRelay.Text.Ascii
import IdentityRelay.Text.Split
import IdentityRelay.Url.Fault

/-! IPv4 addresses: read with one to four numbers, in decimal, octal or
hexadecimal notation; written as four decimal numbers. -/
namespace IdentityRelay.Url

/-- An address as a number below 2^32. -/
structure Ipv4 where
  address : UInt32
  deriving DecidableEq, Repr

namespace Ipv4

/-- The number that a part denotes. A leading `0x` makes it hexadecimal, another
leading zero octal. -/
def numberOfPart? (part : List Char) : Option Nat :=
  let read (base : Nat) (digits : List Char) :=
    (digits.mapM (Text.digit? base)).map (Text.ofDigits base)
  match part with
  | [] => none
  | '0' :: 'x' :: digits | '0' :: 'X' :: digits => read 16 digits
  | '0' :: digit :: digits => read 8 (digit :: digits)
  | digits => read 10 digits

def parts (host : List Char) : List (List Char) :=
  let pieces := Text.splitWhere (· == '.') host
  if pieces.getLast? == some [] then pieces.dropLast else pieces

/-- Whether a host has to be an address because its last part is numeric. -/
def isDue (host : List Char) : Bool :=
  match (parts host).getLast? with
  | some part => (!part.isEmpty && part.all Char.isDigit) || (numberOfPart? part).isSome
  | none => false

/-- The address of at most four numbers: each but the last is one byte, and the
last fills the bytes that are left. -/
def ofNumbers? (numbers : List Nat) : Option Ipv4 := do
  let last ← numbers.getLast?
  let bytes := numbers.dropLast
  let room := Nat.pow 256 (4 - bytes.length)
  guard (bytes.length ≤ 3 && bytes.all (· < 256) && last < room)
  return ⟨UInt32.ofNat (Text.ofDigits 256 bytes * room + last)⟩

def parse (host : List Char) : Except Fault Ipv4 :=
  match ((parts host).mapM numberOfPart?).bind ofNumbers? with
  | some address => .ok address
  | none => .error .ipv4

def bytes (ip : Ipv4) : List Nat :=
  let n := ip.address.toNat
  [n / 0x1000000, n / 0x10000 % 256, n / 0x100 % 256, n % 256]

def render (ip : Ipv4) : List Char := ['.'].intercalate (ip.bytes.map (Nat.toDigits 10))

end Ipv4

end IdentityRelay.Url
