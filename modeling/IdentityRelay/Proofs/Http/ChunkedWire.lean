import IdentityRelay.Proofs.Http.ChunkedFormat
import IdentityRelay.Proofs.Text.Ascii
import IdentityRelay.Proofs.Text.Digits

/-! Writing a body in chunks, and reading it back from whatever stands before. How the
body is cut, what extensions the size lines have and which trailers follow makes no
difference to what is read. -/
namespace IdentityRelay.Http.Chunked
variable {offset size : Nat}

def sizeLine (size : Nat) : Bytes := Utf8.encode (String.ofList (Nat.toDigits 16 size))

def chunk (data : Bytes) : Bytes := sizeLine data.length ++ crlf ++ (data ++ crlf)

/-- A body that is cut into chunks, with the last chunk and no trailer behind them. -/
def encode (chunks : List Bytes) : Bytes := chunks.flatMap chunk ++ (sizeLine 0 ++ crlf ++ crlf)

def extendedLine (size : Nat) : Option String → Bytes
  | none => sizeLine size
  | some text => sizeLine size ++ Utf8.encode ";" ++ Utf8.encode text

def IsExtension (extension : Option String) : Prop :=
  ∀ text ∈ extension, Unbroken (Utf8.encode text)

/-- A body that is cut into pieces, each with the extensions of its chunk, with the
extensions of the last chunk and the trailer lines behind it. -/
def Layout.ofPieces (pieces : List (Bytes × Option String)) (ending : Option String)
    (trailers : List Bytes) : Layout where
  chunks := pieces.map fun (data, extension) => ⟨extendedLine data.length extension, data⟩
  last := extendedLine 0 ending
  trailers := trailers

private theorem isAlphanum_of_mem {c : Char} (member : c ∈ Nat.toDigits 16 size) :
    c.isAlphanum = true :=
  Text.isAlphanum_of_mem_toDigits (by decide) (by decide) member

private theorem not_mem_sizeLine {b : UInt8} (ascii : b.toNat < 128)
    (other : (Char.ofUInt8 b).isAlphanum = false) : b ∉ sizeLine size := by
  intro member
  have digit := Utf8.ofUInt8_mem_of_mem_encode member ascii
  rw [String.toList_ofList] at digit
  rw [isAlphanum_of_mem digit] at other
  contradiction

private theorem trim_digits (size : Nat) :
    Text.trim (Nat.toDigits 16 size) = Nat.toDigits 16 size := by
  apply Text.strip_eq_self_of_forall
  intro c member
  exact Text.not_isBlank_of_isTokenChar (Text.isTokenChar_of_isAlphanum (isAlphanum_of_mem member))

private theorem readSize?_sizeField (fits : size < Text.wordLimit) (more : List Char)
    (ends : ∀ c ∈ more.head?, c = ';') :
    Text.readSize? 16 (Text.trim (sizeField (String.ofList (Nat.toDigits 16 size ++ more)))) =
      some size := by
  have digits : ∀ c ∈ Nat.toDigits 16 size, (c != ';') = true := by
    intro c member
    rw [bne_iff_ne]
    rintro rfl
    exact absurd (isAlphanum_of_mem member) (by decide)
  have stops : more.takeWhile (· != ';') = [] := by
    cases more with
    | nil => rfl
    | cons c others => simp [ends c rfl]
  rw [sizeField, String.toList_ofList, List.takeWhile_append_of_pos digits, stops, List.append_nil,
    trim_digits, Text.readSize?_toDigits (by decide) (by decide) fits]

private theorem unbroken_append {front line : Bytes} (absent : 13 ∉ front)
    (unbroken : Unbroken line) : Unbroken (front ++ line) := by
  rw [Unbroken, ← Text.cut?_eq_none_iff] at unbroken ⊢
  rw [crlf] at unbroken ⊢
  rw [Text.cut?_append_of_not_mem absent, unbroken]
  rfl

theorem isSizeLine_extendedLine (fits : size < Text.wordLimit) {extension : Option String}
    (isExtension : IsExtension extension) : IsSizeLine (extendedLine size extension) size := by
  have noReturn : 13 ∉ sizeLine size := not_mem_sizeLine (by decide) (by decide)
  cases extension with
  | none =>
    have unbroken : Unbroken (sizeLine size ++ []) := unbroken_append noReturn unbroken_nil
    rw [List.append_nil] at unbroken
    exact ⟨unbroken, _, rfl, by simpa using readSize?_sizeField fits [] nofun⟩
  | some text =>
    have inFront : 13 ∉ sizeLine size ++ Utf8.encode ";" := by
      simpa [noReturn] using (by decide : 13 ∉ Utf8.encode ";")
    refine ⟨unbroken_append inFront (isExtension text rfl),
      String.ofList (Nat.toDigits 16 size ++ ';' :: text.toList), ?_, ?_⟩
    · have whole : String.ofList (Nat.toDigits 16 size ++ ';' :: text.toList) =
          String.ofList (Nat.toDigits 16 size) ++ ";" ++ text := by
        simp [← String.toList_inj]
      rw [whole, Utf8.encode_append, Utf8.encode_append]
      rfl
    · exact readSize?_sizeField fits _ (by simp)

namespace Layout
variable {pieces : List (Bytes × Option String)} {ending : Option String} {trailers : List Bytes}

theorem length_data_le {layout : Layout} {chunk : Chunk} (member : chunk ∈ layout.chunks) :
    chunk.data.length ≤ layout.wire.length := by
  obtain ⟨before, after, parts⟩ := List.append_of_mem member
  have own := chunk.length_wire
  simp only [wire, parts, List.flatMap_append, List.flatMap_cons, List.length_append]
  omega

theorem payload_ofPieces (pieces : List (Bytes × Option String)) (ending : Option String)
    (trailers : List Bytes) :
    (ofPieces pieces ending trailers).payload = (pieces.map Prod.fst).flatten := by
  rw [payload, ofPieces, List.flatMap_map, List.flatMap_def]

theorem wellFormed_ofPieces
    (isPiece : ∀ piece ∈ pieces, piece.1 ≠ [] ∧ IsExtension piece.2)
    (isEnding : IsExtension ending) (isTrailer : ∀ line ∈ trailers, IsTrailer line)
    (fits : (ofPieces pieces ending trailers).wire.length < Text.wordLimit) :
    (ofPieces pieces ending trailers).WellFormed := by
  refine ⟨?_, isSizeLine_extendedLine (by decide) isEnding, isTrailer⟩
  intro chunk member
  have within := Nat.lt_of_le_of_lt (length_data_le member) fits
  obtain ⟨⟨data, extension⟩, inPieces, rfl⟩ := List.mem_map.mp member
  obtain ⟨nonempty, isExtension⟩ := isPiece _ inPieces
  exact ⟨isSizeLine_extendedLine within isExtension, nonempty⟩

end Layout

private theorem encode_eq (chunks : List Bytes) :
    encode chunks = (Layout.ofPieces (chunks.map (·, none)) none []).wire := by
  simp [encode, Layout.ofPieces, Layout.wire, List.flatMap_map, extendedLine, trailerSection]
  rfl

/-- A body that is written in chunks is read back, and nothing behind it. -/
theorem decodeFrom_encode {chunks : List Bytes} (nonempty : ∀ data ∈ chunks, data ≠ [])
    (fits : offset + (encode chunks).length < Text.wordLimit) (rest : Bytes) :
    decodeFrom offset (encode chunks ++ rest) = .ok (chunks.flatten, (encode chunks).length) := by
  rw [encode_eq] at fits ⊢
  have isPiece : ∀ piece ∈ chunks.map (·, (none : Option String)),
      piece.1 ≠ [] ∧ IsExtension piece.2 := by
    intro piece member
    obtain ⟨data, inChunks, rfl⟩ := List.mem_map.mp member
    exact ⟨nonempty data inChunks, nofun⟩
  have wellFormed : (Layout.ofPieces (chunks.map (·, none)) none []).WellFormed :=
    Layout.wellFormed_ofPieces isPiece nofun nofun (by omega)
  rw [decodeFrom_wire wellFormed fits, Layout.payload_ofPieces]
  simp [Function.comp_def]

end IdentityRelay.Http.Chunked
