import IdentityRelay.Text.Split
import IdentityRelay.Url.Host

/-! The address on which clients are awaited: a host and a service number. -/
namespace IdentityRelay

inductive ListenFault where
  | address
  | serviceNumber
  /-- The host is a name, and nobody can be asked for its address. -/
  | unknownHost
  | notLocal
  deriving DecidableEq, Repr

def ListenFault.message : ListenFault → String
  | .address => "invalid socket address"
  | .serviceNumber => "invalid port value"
  | .unknownHost => "failed to lookup address information: Temporary failure in name resolution"
  | .notLocal => "Cannot assign requested address (os error 99)"

structure ListenAddress where
  host : Url.Host
  service : Nat
  deriving DecidableEq, Repr

namespace ListenAddress

/-- A service number: a decimal number below 65536, after at most one plus sign. -/
def service? (s : List Char) : Option Nat := (Text.readSize? 10 s).filter (· < 65536)

/-- The parts before and after the last colon. -/
def cutLast? (s : List Char) : Option (List Char × List Char) :=
  (Text.cut? [':'] s.reverse).map fun (after, before) => (before.reverse, after.reverse)

def loopback : Url.Ipv4 := ⟨0x7F000001⟩

/-- The host that a text stands for: an address, where an IPv6 address can be in
brackets, or the one name whose address is known without asking. -/
def host? (s : List Char) : Option Url.Host :=
  let unbracketed := match s with
    | '[' :: rest => if rest.getLast? == some ']' then rest.dropLast else s
    | s => s
  if s == "localhost".toList then some (.ipv4 loopback)
  else match Url.Ipv6.ofText? unbracketed with
    | some address => some (.ipv6 address)
    | none =>
      if s.getLast? == some '.' then none else (Url.Ipv4.parse s).toOption.map .ipv4

/-- Whether a host is this machine: the loopback addresses, and those that stand for
all of the machine's own. -/
def isLocal : Url.Host → Bool
  | .ipv4 ip => ip.address == 0 || ip.bytes.head? == some 127
  | .ipv6 ip => ip.groups.take 7 == List.replicate 7 0 && [[0], [1]].contains (ip.groups.drop 7)
  | .name _ => false

/-- Reads an address on which this machine can listen. -/
def parse (s : String) : Except ListenFault ListenAddress := do
  let some (host, service) := cutLast? s.toList | throw .address
  let some service := service? service | throw .serviceNumber
  let some host := host? host | throw .unknownHost
  if isLocal host then return { host, service } else throw .notLocal

def text (address : ListenAddress) : String :=
  String.ofList address.host.render ++ ":" ++ toString address.service

end ListenAddress

end IdentityRelay
