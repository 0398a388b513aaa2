/-! Why a text is not an absolute URL. -/
namespace IdentityRelay.Url

inductive Fault where
  | relative
  | emptyHost
  | serviceNumber
  | ipv4
  | ipv6
  /-- A character that a host of a scheme without domain names must not hold. -/
  | hostCharacter
  | domainName
  deriving DecidableEq, Repr

def Fault.message : Fault → String
  | .relative => "relative URL without a base"
  | .emptyHost => "empty host"
  | .serviceNumber => "invalid port number"
  | .ipv4 => "invalid IPv4 address"
  | .ipv6 => "invalid IPv6 address"
  | .hostCharacter => "invalid domain character"
  | .domainName => "invalid international domain name"

end IdentityRelay.Url
