import IdentityRelay.Proofs.Http.Lines
import IdentityRelay.Proofs.Text.Ascii
import IdentityRelay.Proofs.Text.Encoding
import IdentityRelay.Proofs.Text.Strip

/-! Header fields as lines. A field whose name is a token and whose value neither
begins nor ends with a space is read back from its line, and whatever is read from
a line is such a field. -/
namespace IdentityRelay.Http

def isFieldSpace (c : Char) : Bool :=
  c == ' ' || c == '\t' || c == '\n' || c == '\x0c' || c == '\r'

/-- A field as it can be sent on one line and be read back. -/
structure Header.WellFormed (header : Header) : Prop where
  token : Text.isToken header.name = true
  latin1 : ∀ c ∈ header.value.toList, c.toNat < 256
  noLineFeed : '\n' ∉ header.value.toList
  firstVisible : ∀ c ∈ header.value.toList.head?, isFieldSpace c = false
  lastVisible : ∀ c ∈ header.value.toList.getLast?, isFieldSpace c = false

private theorem isAsciiSpace_toUInt8 {c : Char} (small : c.toNat < 256) :
    Text.isAsciiSpace c.toUInt8 = isFieldSpace c := by
  rw [Bool.eq_iff_iff]
  simp [Text.isAsciiSpace, isFieldSpace, ← UInt8.toNat_inj, ← Char.toNat_inj,
    Text.toNat_toUInt8 small]

private theorem isFieldSpace_ofUInt8 (b : UInt8) :
    isFieldSpace (Char.ofUInt8 b) = Text.isAsciiSpace b := by
  have small : (Char.ofUInt8 b).toNat < 256 := b.toNat_lt
  rw [← isAsciiSpace_toUInt8 small, toUInt8_ofUInt8]

namespace Header
variable {header : Header} {line : Bytes}

def nameBytes (header : Header) : Bytes := header.name.toList.map Char.toUInt8

def latin1Bytes (header : Header) : Bytes := header.value.toList.map Char.toUInt8

private theorem isTokenChar_of_mem (token : Text.isToken header.name = true) {c : Char}
    (member : c ∈ header.name.toList) : Text.isTokenChar c = true := by
  simp only [Text.isToken, Bool.and_eq_true, List.all_eq_true] at token
  exact token.2 c member

theorem line_eq (token : Text.isToken header.name = true)
    (latin1 : ∀ c ∈ header.value.toList, c.toNat < 256) :
    header.line = header.nameBytes ++ 58 :: 32 :: header.latin1Bytes := by
  have name : Utf8.encode header.name = header.nameBytes :=
    Utf8.encode_of_ascii fun c member => Text.toNat_lt_of_isTokenChar (isTokenChar_of_mem token member)
  have colon : Utf8.encode ": " = [58, 32] := by decide
  rw [line, name, colon, valueBytes, Latin1.encode?_of_forall_lt latin1]
  simp [latin1Bytes]

theorem mem_nameBytes (token : Text.isToken header.name = true) {b : UInt8}
    (member : b ∈ header.nameBytes) : Text.isAsciiSpace b = false ∧ b ≠ 58 := by
  obtain ⟨c, inName, rfl⟩ := List.mem_map.mp member
  exact Text.byte_of_isTokenChar (isTokenChar_of_mem token inName)

theorem cut?_line (token : Text.isToken header.name = true)
    (latin1 : ∀ c ∈ header.value.toList, c.toNat < 256) :
    Text.cut? [58] header.line = some (header.nameBytes, 32 :: header.latin1Bytes) := by
  rw [line_eq token latin1]
  exact Text.cut?_singleton (fun member => (mem_nameBytes token member).2 rfl) _

/-- A field takes one line if its value has no line feed and no carriage return at its end. -/
theorem isLine_line (token : Text.isToken header.name = true)
    (latin1 : ∀ c ∈ header.value.toList, c.toNat < 256) (noLineFeed : '\n' ∉ header.value.toList)
    (noReturn : header.value.toList.getLast? ≠ some '\r') : IsLine header.line := by
  have charOf : ∀ c ∈ header.value.toList, ∀ b, c.toUInt8 = b → c = Char.ofUInt8 b := by
    rintro c member b rfl
    exact (ofUInt8_toUInt8 (latin1 c member)).symm
  rw [line_eq token latin1]
  constructor
  · intro member
    rcases List.mem_append.mp member with inName | behind
    · exact absurd (mem_nameBytes token inName).1 (by decide)
    · have inValue : 10 ∈ header.latin1Bytes := by simpa using behind
      obtain ⟨c, member, same⟩ := List.mem_map.mp inValue
      have isLineFeed : c = '\n' := charOf c member 10 same
      exact noLineFeed (isLineFeed ▸ member)
  · intro last
    rw [List.getLast?_append, List.getLast?_cons_cons, List.getLast?_cons] at last
    cases found : header.value.toList.getLast? with
    | none => simp [latin1Bytes, List.getLast?_map, found] at last
    | some c =>
      have same : c.toUInt8 = 13 := by simpa [latin1Bytes, List.getLast?_map, found] using last
      have isReturn : c = '\r' := charOf c (List.mem_of_getLast? found) 13 same
      exact noReturn (isReturn ▸ found)

theorem line_ne_nil (token : Text.isToken header.name = true)
    (latin1 : ∀ c ∈ header.value.toList, c.toNat < 256) : header.line ≠ [] := by
  simp [line_eq token latin1]

theorem decode_nameBytes (token : Text.isToken header.name = true) :
    Latin1.decode header.nameBytes = header.name := by
  apply Latin1.decode_map_toUInt8
  intro c member
  have := Text.toNat_lt_of_isTokenChar (isTokenChar_of_mem token member)
  omega

theorem headerOfLine?_line (wellFormed : header.WellFormed) :
    RequestHead.headerOfLine? header.line = some header := by
  have first : ∀ b ∈ header.latin1Bytes.head?, Text.isAsciiSpace b = false := by
    intro b member
    rw [latin1Bytes, List.head?_map] at member
    obtain ⟨c, isFirst, rfl⟩ := Option.map_eq_some_iff.mp member
    have small := wellFormed.latin1 c (List.mem_of_mem_head? isFirst)
    rw [isAsciiSpace_toUInt8 small]
    exact wellFormed.firstVisible c isFirst
  have last : ∀ b ∈ header.latin1Bytes.getLast?, Text.isAsciiSpace b = false := by
    intro b member
    rw [latin1Bytes, List.getLast?_map] at member
    obtain ⟨c, isLast, rfl⟩ := Option.map_eq_some_iff.mp member
    have small := wellFormed.latin1 c (List.mem_of_mem_getLast? isLast)
    rw [isAsciiSpace_toUInt8 small]
    exact wellFormed.lastVisible c isLast
  have name : Text.strip Text.isAsciiSpace header.nameBytes = header.nameBytes :=
    Text.strip_eq_self_of_forall fun b member => (mem_nameBytes wellFormed.token member).1
  have value : Text.strip Text.isAsciiSpace (32 :: header.latin1Bytes) = header.latin1Bytes := by
    rw [Text.strip_cons_of_unwanted rfl, Text.strip_eq_self first last]
  have text : Latin1.decode header.latin1Bytes = header.value :=
    Latin1.decode_map_toUInt8 wellFormed.latin1
  simp [RequestHead.headerOfLine?, cut?_line wellFormed.token wellFormed.latin1, name, value, text,
    decode_nameBytes wellFormed.token, wellFormed.token]

private theorem wellFormed_of_strip {name : String} {value : Bytes}
    (token : Text.isToken name = true) (inValue : 10 ∉ value) :
    WellFormed ⟨name, Latin1.decode (Text.strip Text.isAsciiSpace value)⟩ where
  token := token
  latin1 := by
    intro c member
    simp only [Latin1.decode, String.toList_ofList, List.mem_map] at member
    obtain ⟨b, _, rfl⟩ := member
    exact b.toNat_lt
  noLineFeed := by
    intro member
    simp only [Latin1.decode, String.toList_ofList, List.mem_map] at member
    obtain ⟨b, kept, same⟩ := member
    have : b = 10 := by rw [← toUInt8_ofUInt8 b, same]; rfl
    exact inValue (this ▸ Text.mem_of_mem_strip kept)
  firstVisible := by
    intro c member
    simp only [Latin1.decode, String.toList_ofList, List.head?_map] at member
    obtain ⟨b, first, rfl⟩ := Option.map_eq_some_iff.mp member
    rw [isFieldSpace_ofUInt8]
    exact Text.not_unwanted_of_mem_head?_strip first
  lastVisible := by
    intro c member
    simp only [Latin1.decode, String.toList_ofList, List.getLast?_map] at member
    obtain ⟨b, last, rfl⟩ := Option.map_eq_some_iff.mp member
    rw [isFieldSpace_ofUInt8]
    exact Text.not_unwanted_of_mem_getLast?_strip last

/-- A field that is read from a line can be sent on a line. -/
theorem wellFormed_of_headerOfLine? (read : RequestHead.headerOfLine? line = some header)
    (inLine : 10 ∉ line) : header.WellFormed := by
  simp only [RequestHead.headerOfLine?, Option.bind_eq_bind, Option.bind_eq_some_iff] at read
  obtain ⟨⟨name, value⟩, found, read⟩ := read
  simp only at read
  split at read
  · rename_i token
    cases read
    exact wellFormed_of_strip token fun member => inLine (by simp [Text.append_of_cut? found, member])
  · cases read

end Header

end IdentityRelay.Http
