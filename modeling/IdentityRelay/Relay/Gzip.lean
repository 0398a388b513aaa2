import IdentityRelay.Relay.Answer

/-! Bodies in the gzip format. Only stored blocks are unpacked; a block that is
compressed counts as unreadable. -/
namespace IdentityRelay.Relay.Gzip

def skipText (bytes : Bytes) : Option Bytes := (Text.cut? [0] bytes).map Prod.snd

/-- What follows the header of a gzip body, if it has one. The flags tell which
optional fields the header has: extra data, a file name, a comment, a checksum. -/
def skipHeader (bytes : Bytes) : Option Bytes :=
  match bytes with
  | 0x1F :: 0x8B :: 8 :: flags :: rest => do
    guard (6 ≤ rest.length && flags < 0x20)
    let has (bit : UInt8) := flags &&& bit != 0
    let rest := rest.drop 6
    let rest ← (if has 4 then
      match rest with
      | low :: high :: rest =>
        let length := low.toNat + high.toNat * 256
        if length ≤ rest.length then some (rest.drop length) else none
      | _ => none
    else some rest)
    let rest ← (if has 8 then skipText rest else some rest)
    let rest ← (if has 16 then skipText rest else some rest)
    if has 2 then (if 2 ≤ rest.length then some (rest.drop 2) else none) else some rest
  | _ => none

/-- The data of the stored blocks, as far as it came, and what follows the last
block if that is complete. -/
def blocks (bytes : Bytes) : Bytes × Option Bytes :=
  match bytes with
  | kind :: a :: b :: c :: d :: rest =>
    let length := a.toNat + b.toNat * 256
    let check := c.toNat + d.toNat * 256
    if kind &&& 6 != 0 || length + check != 0xFFFF then ([], none)
    else if rest.length < length then (rest, none)
    else if kind &&& 1 == 1 then (rest.take length, some (rest.drop length))
    else
      let (data, after) := blocks (rest.drop length)
      (rest.take length ++ data, after)
  | _ => ([], none)
termination_by bytes.length
decreasing_by simp only [List.length_drop, List.length_cons]; omega

/-- Unpacks a body. The checksum behind the blocks is looked at only when there is
no data: a body that came stays. -/
def unpack (bytes : Bytes) : BodyStream :=
  match (skipHeader bytes).map blocks with
  | none => ⟨[], .unreadable⟩
  | some (data, none) => ⟨[data], .unreadable⟩
  | some (data, some trailer) =>
    if data.isEmpty && trailer.take 8 != List.replicate 8 0 then ⟨[], .unreadable⟩
    else ⟨[data], .complete⟩

end IdentityRelay.Relay.Gzip
