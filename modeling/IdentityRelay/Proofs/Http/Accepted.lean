import IdentityRelay.Proofs.Http.Parse
import IdentityRelay.Proofs.Http.RequestWire
import IdentityRelay.Proofs.Text.Words

/-! What the reader accepts: every request that comes out of it can be written, no
matter how its lines were ended, its words spaced or its fields indented. -/
namespace IdentityRelay.Http

namespace RequestHead
variable {head line : Bytes} {method : Method} {target version : String} {headers : Headers}

theorem lineFeed_not_mem_of_mem_lines (member : line ∈ lines head) : 10 ∉ line := by
  obtain ⟨piece, isPiece, rfl⟩ := List.mem_map.mp member
  intro inLine
  have inPiece : 10 ∈ piece := by
    unfold dropReturn at inLine
    split at inLine
    · exact List.dropLast_subset _ inLine
    · exact inLine
  exact absurd (Text.not_separator_of_mem_splitWhere isPiece inPiece) (by decide)

private theorem visible_of_ofRequestLine
    (read : ofRequestLine line = .ok (method, target, version)) :
    target ≠ "" ∧ (∀ c ∈ target.toList, Text.isBlank c = false) ∧
      (version = "HTTP/1.0" ∨ version = "HTTP/1.1") := by
  unfold ofRequestLine at read
  split at read
  · rename_i methodWord targetWord versionWord found
    obtain ⟨text, _, words⟩ := Option.map_eq_some_iff.mp found
    have isWord : targetWord ∈ Text.words text.toList := by simp [words]
    obtain ⟨nonempty, visible⟩ := Text.visible_of_mem_words isWord
    split at read
    · cases read
    · simp only at read
      split at read
      · rename_i known
        cases read
        refine ⟨?_, ?_, ?_⟩
        · simpa [← String.toList_eq_nil_iff] using nonempty
        · simpa using visible
        · simpa [or_comm] using known
      · cases read
  · cases read

private theorem wellFormed_of_headersOfLines {rest : List Bytes}
    (inLines : ∀ line ∈ rest, 10 ∉ line) (read : headersOfLines rest = .ok headers) :
    ∀ header ∈ headers.toList, header.WellFormed := by
  unfold headersOfLines at read
  split at read
  · rename_i fields found
    cases read
    intro header member
    have each := mapM_eq_some_iff.mp found
    have stored : some header ∈ (rest.filter fun line => !line.isEmpty).map headerOfLine? :=
      each ▸ List.mem_map_of_mem member
    obtain ⟨line, kept, readLine⟩ := List.mem_map.mp stored
    exact Header.wellFormed_of_headerOfLine? readLine (inLines line (List.mem_filter.mp kept).1)
  · cases read

end RequestHead

namespace Request
variable {buffer : Bytes} {request : Request} {taken : Nat}

private theorem framed_of_parse (parsed : parse buffer = .ok (request, taken)) :
    request.isChunked = true ∨ request.LengthAgrees := by
  obtain ⟨_, rest, length, _, _, _, sized⟩ := exists_body_of_parse parsed
  cases chunked : request.isChunked with
  | true => exact .inl rfl
  | false =>
    obtain ⟨given, enough, body⟩ := sized chunked
    have whole : request.body.length = length := by
      rw [body, List.length_take]
      omega
    have agrees := Framing.contentLength_eq_ok_iff.mp given
    rw [← whole] at agrees
    exact .inr ⟨agrees.1, fun none => List.length_eq_zero_iff.mp (agrees.2 none)⟩

/-- Every request that is read can be written. -/
theorem wellFormed_of_parse (parsed : parse buffer = .ok (request, taken)) :
    request.WellFormed := by
  obtain ⟨head, _, fields, _, _, _, _, framed, _, same, _⟩ :=
    exists_parts_of_parse parsed
  obtain ⟨requestLine, lines, split, readLine, readHeaders, _⟩ :=
    RequestHead.exists_lines_of_framed framed
  obtain ⟨hasTarget, visible, known⟩ := RequestHead.visible_of_ofRequestLine readLine
  have inLines : ∀ line ∈ lines, 10 ∉ line := by
    intro line member
    have isLine : line ∈ RequestHead.lines head := by simp [split, member]
    exact RequestHead.lineFeed_not_mem_of_mem_lines isLine
  have sameHeaders : request.headers = fields.headers := by rw [same]; rfl
  constructor
  · rw [same]
    exact hasTarget
  · rw [same]
    exact visible
  · rw [same]
    exact known
  · rw [sameHeaders]
    exact RequestHead.wellFormed_of_headersOfLines inLines readHeaders
  · exact framed_of_parse parsed

end Request

end IdentityRelay.Http
