/-! Texts and the bytes that carry them: Latin-1, where each byte is the
character of the same number, and UTF-8. -/
namespace IdentityRelay

/-- Bytes as they travel on a connection. -/
abbrev Bytes := List UInt8

namespace Latin1

def decode (bytes : Bytes) : String := String.ofList (bytes.map Char.ofUInt8)

/-- The bytes of a text, unless it holds a character above U+00FF. -/
def encode? (text : String) : Option Bytes :=
  text.toList.mapM fun c => if c.toNat < 256 then some c.toUInt8 else none

end Latin1

namespace Utf8

def encode (text : String) : Bytes := text.toUTF8.data.toList

def decode? (bytes : Bytes) : Option String := String.fromUTF8? ⟨bytes.toArray⟩

end Utf8

end IdentityRelay
