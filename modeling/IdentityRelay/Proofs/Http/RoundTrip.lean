import IdentityRelay.Proofs.Http.Accepted

/-! Reading undoes writing: a request that can be written is read back from its
bytes, whatever follows them, and every request that is read can be written. -/
namespace IdentityRelay.Http
variable {request : Request}

namespace Request

private theorem visible_of_mem_name {method : Method} {c : Char} (member : c ∈ method.name.toList) :
    Text.isBlank c = false := by
  have visible : ∀ c ∈ method.name.toList, Text.isBlank c = false := by
    cases method <;> exact Text.forall_mem_of_all (by decide)
  exact visible c member

private theorem visible_of_mem_version (wellFormed : request.WellFormed) {c : Char}
    (member : c ∈ request.version.toList) : Text.isBlank c = false := by
  have visible : ∀ c ∈ request.version.toList, Text.isBlank c = false := by
    rcases wellFormed.version with same | same <;> rw [same] <;>
      exact Text.forall_mem_of_all (by decide)
  exact visible c member

private theorem visible_or_space_of_mem (wellFormed : request.WellFormed) {c : Char}
    (member : c ∈ (request.method.name ++ " " ++ request.target ++ " " ++ request.version).toList) :
    Text.isBlank c = false ∨ c = ' ' := by
  simp only [String.toList_append, List.mem_append] at member
  rcases member with (((inMethod | space) | inTarget) | space) | inVersion
  · exact .inl (visible_of_mem_name inMethod)
  · exact .inr (by simpa using space)
  · exact .inl (wellFormed.visibleTarget c inTarget)
  · exact .inr (by simpa using space)
  · exact .inl (visible_of_mem_version wellFormed inVersion)

/-- The request line is a line, since blank characters other than the space are kept out of it. -/
theorem isLine_requestLine (wellFormed : request.WellFormed) : IsLine request.requestLine := by
  have absent : ∀ b ∈ request.requestLine, b ≠ 10 ∧ b ≠ 13 := by
    rintro b member
    constructor
    · rintro rfl
      have := visible_or_space_of_mem wellFormed (Utf8.ofUInt8_mem_of_mem_encode member (by decide))
      exact absurd this (by decide)
    · rintro rfl
      have := visible_or_space_of_mem wellFormed (Utf8.ofUInt8_mem_of_mem_encode member (by decide))
      exact absurd this (by decide)
  exact ⟨fun member => (absent 10 member).1 rfl,
    fun last => (absent 13 (List.mem_of_getLast? last)).2 rfl⟩

theorem ofRequestLine_requestLine (wellFormed : request.WellFormed) :
    RequestHead.ofRequestLine request.requestLine =
      .ok (request.method, request.target, request.version) := by
  have words : Text.words
      (request.method.name ++ " " ++ request.target ++ " " ++ request.version).toList =
        [request.method.name.toList, request.target.toList, request.version.toList] := by
    have nonempty : request.method.name.toList ≠ [] := by cases request.method <;> decide
    have target : request.target.toList ≠ [] := by
      simpa [String.toList_eq_nil_iff] using wellFormed.hasTarget
    have version : request.version.toList ≠ [] := by
      rcases wellFormed.version with same | same <;> rw [same] <;> decide
    have parts : (request.method.name ++ " " ++ request.target ++ " " ++ request.version).toList =
        request.method.name.toList ++ ' ' :: (request.target.toList ++ ' ' ::
          request.version.toList) := by
      simp [String.toList_append]
    rw [parts, Text.words_append_blank (by decide), Text.words_append_blank (by decide),
      Text.words_of_visible nonempty fun c => visible_of_mem_name,
      Text.words_of_visible target wellFormed.visibleTarget,
      Text.words_of_visible version fun c => visible_of_mem_version wellFormed]
    rfl
  have known : (request.version == "HTTP/1.1" || request.version == "HTTP/1.0") = true := by
    rcases wellFormed.version with same | same <;> rw [same] <;> decide
  simp only [RequestHead.ofRequestLine, requestLine, Utf8.decode?_encode, Option.map_some, words,
    String.ofList_toList, Method.ofName?_name, known, ↓reduceIte]

theorem headersOfLines_line (wellFormed : request.WellFormed) :
    RequestHead.headersOfLines (request.headers.toList.map Header.line) = .ok request.headers := by
  have nonempty : ∀ line ∈ request.headers.toList.map Header.line, (!line.isEmpty) = true := by
    intro line member
    obtain ⟨header, stored, rfl⟩ := List.mem_map.mp member
    have field := wellFormed.headers header stored
    simpa using Header.line_ne_nil field.token field.latin1
  have read : (request.headers.toList.map Header.line).mapM RequestHead.headerOfLine? =
      some request.headers.toList := by
    rw [mapM_eq_some_iff, List.map_map]
    apply List.map_congr_left
    intro header stored
    exact Header.headerOfLine?_line (wellFormed.headers header stored)
  rw [RequestHead.headersOfLines, List.filter_eq_self.mpr nonempty, read]

theorem isLine_line {header : Header} (wellFormed : header.WellFormed) : IsLine header.line := by
  apply Header.isLine_line wellFormed.token wellFormed.latin1 wellFormed.noLineFeed
  intro last
  exact absurd (wellFormed.lastVisible '\r' last) (by decide)

theorem parse_wireHead (wellFormed : request.WellFormed) :
    RequestHead.parse request.wireHead = .ok {
      method := request.method
      target := request.target
      version := request.version
      headers := request.headers } := by
  have isField : ∀ line ∈ request.headers.toList.map Header.line, IsLine line := by
    intro line member
    obtain ⟨header, stored, rfl⟩ := List.mem_map.mp member
    exact isLine_line (wellFormed.headers header stored)
  rw [wireHead, RequestHead.parse_of_lines (lines_headOfLines (isLine_requestLine wellFormed) isField),
    ofRequestLine_requestLine wellFormed, headersOfLines_line wellFormed]
  rfl

private theorem readBody_wireBody (framed : request.isChunked = true ∨ request.LengthAgrees)
    (fits : request.wireBody.length < Text.wordLimit) (rest : Bytes) :
    ∃ framing, Framing.ofHeaders request.headers = .ok framing ∧
      framing.readBody (request.wireBody ++ rest) = .ok (request.body, request.wireBody.length) := by
  by_cases chunked : request.isChunked = true
  · refine ⟨.chunked, if_pos chunked, ?_⟩
    rw [wireBody, if_pos chunked] at fits ⊢
    have nonempty : ∀ data ∈ (if request.body.isEmpty then [] else [request.body]), data ≠ [] := by
      intro data member
      split at member
      · cases member
      · rename_i some
        rw [List.mem_singleton.mp member]
        simpa using some
    have whole : (if request.body.isEmpty then [] else [request.body]).flatten = request.body := by
      split
      · rename_i none
        simpa using (List.isEmpty_iff.mp none).symm
      · simp
    have decoded : Chunked.decodeFrom 0 (Chunked.encode _ ++ rest) = .ok (_, _) :=
      Chunked.decodeFrom_encode nonempty (by omega) rest
    rw [whole] at decoded
    exact decoded
  · obtain agrees := framed.resolve_left chunked
    have length : Framing.contentLength request.headers = .ok request.body.length :=
      Framing.contentLength_eq_ok_iff.mpr
        ⟨agrees.given, fun none => by simp [agrees.missing none]⟩
    refine ⟨.sized request.body.length, ?_, ?_⟩
    · rw [Framing.ofHeaders, ← isChunked, if_neg chunked, length]
      rfl
    · rw [wireBody, if_neg chunked, Framing.readBody_sized]
      simp

/-- A request that can be written is read back from its bytes, which are all that is taken. -/
theorem parse_wire (wellFormed : request.WellFormed)
    (within : request.wireHead.length ≤ headLimit)
    (fits : request.wireBody.length < Text.wordLimit) (rest : Bytes) :
    parse (request.wire ++ rest) = .ok (request, request.wire.length) := by
  have noLineFeed : ∀ line ∈ request.headers.toList.map Header.line, 10 ∉ line ∧ line ≠ [] := by
    intro line member
    obtain ⟨header, stored, rfl⟩ := List.mem_map.mp member
    have field := wellFormed.headers header stored
    exact ⟨(isLine_line field).noLineFeed, Header.line_ne_nil field.token field.latin1⟩
  have found : Text.cut? separator (request.wire ++ rest) =
      some (request.wireHead, request.wireBody ++ rest) := by
    rw [wire, List.append_assoc]
    exact cut?_headOfLines (isLine_requestLine wellFormed).noLineFeed noLineFeed _
  obtain ⟨framing, announced, read⟩ := readBody_wireBody wellFormed.framed fits rest
  rw [parse_of_some found, if_neg (Nat.not_lt_of_le within), RequestHead.framed,
    parse_wireHead wellFormed]
  simp only [Except.bind, announced, Except.map, read]
  simp [RequestHead.toRequest, wire, separator, crlf]
  omega

/-- What is written is read back, with no byte of what follows, and what is read can be
written. A machine word counts the bytes of every message that memory can hold. -/
theorem wire_round_trip :
    (∀ (request : Request) (rest : Bytes), request.WellFormed →
      request.wireHead.length ≤ headLimit → request.wire.length < Text.wordLimit →
        parse (request.wire ++ rest) = .ok (request, request.wire.length)) ∧
    ∀ (buffer : Bytes) (request : Request) (taken : Nat),
      parse buffer = .ok (request, taken) → request.WellFormed := by
  constructor
  · intro request rest wellFormed within fits
    have fitsBody : request.wireBody.length < Text.wordLimit := by
      rw [wire, List.length_append] at fits
      omega
    exact parse_wire wellFormed within fitsBody rest
  · intro buffer request taken parsed
    exact wellFormed_of_parse parsed

def chunkedPost : Request where
  method := .post
  target := "/chat/completions?v=1"
  version := "HTTP/1.1"
  headers := ⟨[⟨"X-Name", "caf\u00e9  \r and more"⟩, ⟨"Transfer-Encoding", "gzip, Chunked"⟩]⟩
  body := [13, 10, 13, 10]

theorem wire_round_trip_chunkedPost :
    chunkedPost.WellFormed ∧
      parse (chunkedPost.wire ++ chunkedPost.wire) = .ok (chunkedPost, chunkedPost.wire.length) := by
  have wellFormed : chunkedPost.WellFormed := by
    have isField : ∀ header ∈ chunkedPost.headers.toList, Text.isToken header.name = true ∧
        header.value.toList.all (fun c => c.toNat < 256) = true ∧ '\n' ∉ header.value.toList ∧
        header.value.toList.head?.all (fun c => !isFieldSpace c) = true ∧
        header.value.toList.getLast?.all (fun c => !isFieldSpace c) = true := by
      decide
    constructor
    · decide
    · exact Text.forall_mem_of_all (by decide)
    · exact .inr rfl
    · intro header member
      obtain ⟨token, latin1, noLineFeed, first, last⟩ := isField header member
      constructor
      · exact token
      · exact Text.forall_mem_of_all latin1
      · exact noLineFeed
      · intro c isFirst
        rw [Option.mem_def.mp isFirst] at first
        simpa using first
      · intro c isLast
        rw [Option.mem_def.mp isLast] at last
        simpa using last
    · exact .inl (by decide)
  have within : chunkedPost.wireHead.length ≤ headLimit := by decide +kernel
  have fits : chunkedPost.wire.length < Text.wordLimit := by decide +kernel
  have parsed := wire_round_trip.1 chunkedPost chunkedPost.wire wellFormed within fits
  exact ⟨wire_round_trip.2 _ _ _ parsed, parsed⟩

end Request

end IdentityRelay.Http
