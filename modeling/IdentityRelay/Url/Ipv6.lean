import IdentityRelay.Text.Ascii
import IdentityRelay.Text.Split
import IdentityRelay.Url.Fault

/-! IPv6 addresses: eight groups of sixteen bits. A double colon stands for a run
of zero groups, and a dotted quad may stand for the last two groups. -/
namespace IdentityRelay.Url

structure Ipv6 where
  groups : List UInt16
  eight : groups.length = 8
  deriving DecidableEq, Repr

namespace Ipv6

/-- The value of one to four hexadecimal digits. -/
def group? (digits : List Char) : Option UInt16 := do
  guard (1 ≤ digits.length && digits.length ≤ 4)
  return UInt16.ofNat (Text.ofDigits 16 (← digits.mapM (Text.digit? 16)))

def octet? (digits : List Char) : Option Nat := do
  guard (!digits.isEmpty && (digits.length == 1 || digits.head? != some '0'))
  let values ← digits.mapM (Text.digit? 10)
  let value := Text.ofDigits 10 values
  if value < 256 then some value else none

def dottedQuad? (s : List Char) : Option (List UInt16) := do
  match ← (Text.splitWhere (· == '.') s).mapM octet? with
  | [a, b, c, d] => some [UInt16.ofNat (a * 256 + b), UInt16.ofNat (c * 256 + d)]
  | _ => none

/-- The groups of the parts between colons. Only the last part may be a dotted quad. -/
def groupsOfParts? : List (List Char) → Option (List UInt16)
  | [] => some []
  | [last] => if last.contains '.' then dottedQuad? last else (group? last).map ([·])
  | part :: rest => do return (← group? part) :: (← groupsOfParts? rest)

def groups? (s : List Char) : Option (List UInt16) :=
  if s.isEmpty then some [] else groupsOfParts? (Text.splitWhere (· == ':') s)

def ofGroups? (groups : List UInt16) : Option Ipv6 :=
  if eight : groups.length = 8 then some ⟨groups, eight⟩ else none

def ofText? (s : List Char) : Option Ipv6 :=
  match Text.cut? [':', ':'] s with
  | none => (groups? s).bind ofGroups?
  | some (before, after) => do
    let before ← (if before.contains '.' then none else groups? before)
    let after ← groups? after
    guard (before.length + after.length ≤ 7)
    ofGroups? (before ++ List.replicate (8 - before.length - after.length) 0 ++ after)

def parse (s : List Char) : Except Fault Ipv6 :=
  match ofText? s with
  | some address => .ok address
  | none => .error .ipv6

/-- The run of zero groups that is left out: the first of the longest, as the
index of its first group and its length. A single zero is written. -/
def zeroRun? (groups : List UInt16) : Option (Nat × Nat) :=
  let candidates := [8, 7, 6, 5, 4, 3, 2].flatMap fun length =>
    (List.range (9 - length)).map fun start => (start, length)
  candidates.find? fun (start, length) =>
    (groups.drop start).take length == List.replicate length 0

def renderGroups (groups : List UInt16) : List Char :=
  [':'].intercalate (groups.map fun group => Nat.toDigits 16 group.toNat)

def render (ip : Ipv6) : List Char :=
  match zeroRun? ip.groups with
  | none => renderGroups ip.groups
  | some (start, length) =>
    renderGroups (ip.groups.take start) ++ [':', ':'] ++ renderGroups (ip.groups.drop (start + length))

end Ipv6

end IdentityRelay.Url
