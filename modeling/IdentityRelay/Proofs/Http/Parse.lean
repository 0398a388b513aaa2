import IdentityRelay.Http.Parse
import IdentityRelay.Proofs.Http.Framing

/-! Reading a request in three parts: where the head ends, what the head says, and
which bytes behind it are the body. Each part has its own faults. -/
namespace IdentityRelay.Http

namespace RequestHead

def toRequest (head : RequestHead) (body : Bytes) : Request where
  method := head.method
  target := head.target
  version := head.version
  headers := head.headers
  body := body

/-- What a head says, and the framing that it announces for the body. -/
def framed (head : Bytes) : Except ParseError (RequestHead × Framing) :=
  (RequestHead.parse head).bind fun fields =>
    (Framing.ofHeaders fields.headers).map fun framing => (fields, framing)

private theorem ofRequestLine_error {line : Bytes} {error : ParseError}
    (failed : ofRequestLine line = .error error) :
    error = .invalidRequest ∨ error = .invalidMethod ∨ error = .invalidVersion := by
  unfold ofRequestLine at failed
  split at failed
  · split at failed
    · exact .inr (.inl (Except.error.inj failed).symm)
    · simp only at failed
      split at failed
      · cases failed
      · exact .inr (.inr (Except.error.inj failed).symm)
  · exact .inl (Except.error.inj failed).symm

private theorem headersOfLines_error {lines : List Bytes} {error : ParseError}
    (failed : headersOfLines lines = .error error) : error = .invalidHeader := by
  unfold headersOfLines at failed
  split at failed
  · cases failed
  · exact (Except.error.inj failed).symm

theorem parse_of_lines {head requestLine : Bytes} {rest : List Bytes}
    (split : lines head = requestLine :: rest) :
    RequestHead.parse head =
      (ofRequestLine requestLine).bind fun (method, target, version) =>
        (headersOfLines rest).map fun headers => { method, target, version, headers } := by
  simp only [RequestHead.parse, split, bind]
  cases ofRequestLine requestLine <;> cases headersOfLines rest <;> rfl

theorem exists_lines (head : Bytes) : ∃ requestLine rest, lines head = requestLine :: rest := by
  apply List.exists_cons_of_ne_nil
  simp [lines, Text.splitWhere]

theorem exists_lines_of_framed {head : Bytes} {fields : RequestHead} {framing : Framing}
    (read : framed head = .ok (fields, framing)) :
    ∃ requestLine rest, lines head = requestLine :: rest ∧
      ofRequestLine requestLine = .ok (fields.method, fields.target, fields.version) ∧
      headersOfLines rest = .ok fields.headers ∧
      Framing.ofHeaders fields.headers = .ok framing := by
  obtain ⟨requestLine, rest, split⟩ := exists_lines head
  rw [framed, parse_of_lines split] at read
  obtain ⟨_, readHead, announced⟩ := bind_eq_ok_iff.mp read
  obtain ⟨_, announced, same⟩ := map_eq_ok_iff.mp announced
  cases same
  obtain ⟨_, readLine, readFields⟩ := bind_eq_ok_iff.mp readHead
  obtain ⟨_, readHeaders, rfl⟩ := map_eq_ok_iff.mp readFields
  exact ⟨requestLine, rest, split, readLine, readHeaders, announced⟩

/-- The faults of a head: the request line, the fields, or the length they give. -/
theorem framed_error {head : Bytes} {error : ParseError} (failed : framed head = .error error) :
    error ∈ [.invalidRequest, .invalidMethod, .invalidVersion, .invalidHeader,
      .invalidContentLength] := by
  obtain ⟨requestLine, rest, split⟩ := exists_lines head
  rw [framed, parse_of_lines split] at failed
  rcases bind_eq_error_iff.mp failed with early | ⟨fields, _, late⟩
  · rcases bind_eq_error_iff.mp early with line | ⟨_, _, field⟩
    · rcases ofRequestLine_error line with same | same | same <;> simp [same]
    · simp [headersOfLines_error (map_eq_error_iff.mp field)]
  · have same := Framing.ofHeaders_error (map_eq_error_iff.mp late)
    simp [same]

end RequestHead

namespace Request
variable {buffer head rest : Bytes} {request : Request} {taken : Nat} {error : ParseError}

theorem parse_of_none (missing : Text.cut? separator buffer = none) :
    parse buffer =
      if headLimit < buffer.length then .error .headersTooLarge else .error .incomplete := by
  simp only [parse, RequestHead.cut, missing, bind]
  split <;> rfl

/-- A whole head decides how the bytes behind it are read. -/
theorem parse_of_some (found : Text.cut? separator buffer = some (head, rest)) :
    parse buffer =
      if headLimit < head.length then .error .headersTooLarge
      else (RequestHead.framed head).bind fun (fields, framing) =>
        (framing.readBody rest).map fun (body, length) =>
          (fields.toRequest body, head.length + 4 + length) := by
  simp only [parse, RequestHead.cut, found, bind]
  split
  · rfl
  · simp only [Except.bind, RequestHead.framed]
    cases RequestHead.parse head with
    | error => rfl
    | ok fields =>
      simp only
      cases Framing.ofHeaders fields.headers with
      | error => rfl
      | ok framing =>
        simp only [Except.map]
        cases framing.readBody rest <;> rfl

private theorem length_head_separator (head : Bytes) :
    (head ++ separator).length = head.length + 4 := by
  simp [separator, crlf]

theorem take_behind_head (found : Text.cut? separator buffer = some (head, rest)) (length : Nat) :
    buffer.take (head.length + 4 + length) = head ++ separator ++ rest.take length := by
  rw [Text.append_of_cut? found, ← length_head_separator, List.take_length_add_append]

theorem drop_behind_head (found : Text.cut? separator buffer = some (head, rest)) (length : Nat) :
    buffer.drop (head.length + 4 + length) = rest.drop length := by
  rw [Text.append_of_cut? found, ← length_head_separator, List.drop_length_add_append]

section Framed
variable {fields : RequestHead} (found : Text.cut? separator buffer = some (head, rest))
  (within : head.length ≤ headLimit) (read : RequestHead.parse head = .ok fields)
include found within read

/-- The fields of a head alone decide how the bytes behind it are read. -/
theorem parse_of_head :
    parse buffer = ((Framing.ofHeaders fields.headers).bind fun framing =>
      framing.readBody rest).map fun (body, length) =>
        (fields.toRequest body, head.length + 4 + length) := by
  rw [parse_of_some found, if_neg (Nat.not_lt_of_le within), RequestHead.framed, read]
  simp only [Except.bind]
  cases Framing.ofHeaders fields.headers with
  | error => rfl
  | ok framing => rfl

theorem parse_of_chunked (listed : fields.headers.hasToken "Transfer-Encoding" "chunked" = true) :
    parse buffer = (Chunked.decode rest).map fun (body, length) =>
      (fields.toRequest body, head.length + 4 + length) := by
  rw [parse_of_some found, if_neg (Nat.not_lt_of_le within), RequestHead.framed, read]
  simp only [Except.bind, Framing.ofHeaders, listed, ↓reduceIte, Except.map]
  rfl

theorem parse_of_unchunked
    (unlisted : fields.headers.hasToken "Transfer-Encoding" "chunked" = false) :
    parse buffer = (Framing.contentLength fields.headers).bind fun length =>
      if rest.length < length then .error .incomplete
      else .ok (fields.toRequest (rest.take length), head.length + 4 + length) := by
  rw [parse_of_some found, if_neg (Nat.not_lt_of_le within), RequestHead.framed, read]
  simp only [Except.bind, Framing.ofHeaders, unlisted, Bool.false_eq_true, ↓reduceIte]
  cases Framing.contentLength fields.headers with
  | error => rfl
  | ok length =>
    by_cases short : rest.length < length <;>
      simp [Except.map, Framing.readBody_sized, short]

end Framed

/-- A request that was read has a whole head within the limit, and a body behind it. -/
theorem exists_parts_of_parse (parsed : parse buffer = .ok (request, taken)) :
    ∃ head rest fields framing length, Text.cut? separator buffer = some (head, rest) ∧
      head.length ≤ headLimit ∧ RequestHead.framed head = .ok (fields, framing) ∧
      framing.readBody rest = .ok (request.body, length) ∧
      request = fields.toRequest request.body ∧ taken = head.length + 4 + length := by
  cases found : Text.cut? separator buffer with
  | none =>
    rw [parse_of_none found] at parsed
    split at parsed <;> cases parsed
  | some parts =>
    obtain ⟨head, rest⟩ := parts
    rw [parse_of_some found] at parsed
    split at parsed
    · cases parsed
    · rename_i within
      obtain ⟨⟨fields, framing⟩, framed, read⟩ := bind_eq_ok_iff.mp parsed
      obtain ⟨⟨body, length⟩, readBody, same⟩ := map_eq_ok_iff.mp read
      cases same
      exact ⟨head, rest, fields, framing, length, rfl, Nat.le_of_not_lt within, framed, readBody,
        rfl, rfl⟩

/-- The fields of a request that was read tell how its body was found. -/
theorem exists_body_of_parse (parsed : parse buffer = .ok (request, taken)) :
    ∃ head rest length, Text.cut? separator buffer = some (head, rest) ∧
      taken = head.length + 4 + length ∧
      (request.headers.hasToken "Transfer-Encoding" "chunked" = true →
        Chunked.decode rest = .ok (request.body, length)) ∧
      (request.headers.hasToken "Transfer-Encoding" "chunked" = false →
        Framing.contentLength request.headers = .ok length ∧ length ≤ rest.length ∧
          request.body = rest.take length) := by
  obtain ⟨head, rest, fields, framing, length, found, _, framed, readBody, same, rfl⟩ :=
    exists_parts_of_parse parsed
  obtain ⟨_, _, _, _, _, announced⟩ := RequestHead.exists_lines_of_framed framed
  have sameHeaders : request.headers = fields.headers := by rw [same]; rfl
  rw [← sameHeaders, Framing.ofHeaders] at announced
  refine ⟨head, rest, length, found, rfl, ?_, ?_⟩
  · intro listed
    rw [if_pos listed] at announced
    cases announced
    exact readBody
  · intro unlisted
    rw [unlisted, if_neg Bool.false_ne_true] at announced
    obtain ⟨size, given, rfl⟩ := map_eq_ok_iff.mp announced
    rw [Framing.readBody_sized] at readBody
    split at readBody
    · cases readBody
    · rename_i enough
      obtain ⟨body, rfl⟩ := Prod.mk.inj (Except.ok.inj readBody)
      exact ⟨given, Nat.le_of_not_lt enough, body.symm⟩

theorem le_of_parse (parsed : parse buffer = .ok (request, taken)) : taken ≤ buffer.length := by
  obtain ⟨head, rest, fields, framing, length, found, _, _, read, _, rfl⟩ :=
    exists_parts_of_parse parsed
  have whole := Text.length_of_cut? found
  have bound := Framing.readBody_le read
  simp only [separator, crlf, List.length_append, List.length_cons, List.length_nil] at whole
  omega

/-- A request that is read or refused stays so, whatever follows, unless it is
refused for the length of its head. -/
theorem parse_append (settled : parse buffer ≠ .error .incomplete)
    (within : parse buffer ≠ .error .headersTooLarge) (more : Bytes) :
    parse (buffer ++ more) = parse buffer := by
  cases found : Text.cut? separator buffer with
  | none =>
    rw [parse_of_none found] at settled within
    by_cases long : headLimit < buffer.length
    · exact absurd (if_pos long) within
    · exact absurd (if_neg long) settled
  | some parts =>
    obtain ⟨head, rest⟩ := parts
    rw [parse_of_some found] at settled within ⊢
    rw [parse_of_some (Text.cut?_append found more)]
    split
    · rfl
    · rename_i short
      rw [if_neg short] at settled
      cases framed : RequestHead.framed head with
      | error => rfl
      | ok parts =>
        obtain ⟨fields, framing⟩ := parts
        have body : framing.readBody rest ≠ .error .incomplete := by
          intro missing
          simp [framed, missing, Except.bind, Except.map] at settled
        simp only [Except.bind, Framing.readBody_append body]

theorem parse_ne_headersTooLarge (found : Text.cut? separator buffer = some (head, rest))
    (within : head.length ≤ headLimit) : parse buffer ≠ .error .headersTooLarge := by
  intro failed
  rw [parse_of_some found, if_neg (Nat.not_lt_of_le within)] at failed
  rcases bind_eq_error_iff.mp failed with early | ⟨⟨fields, framing⟩, _, late⟩
  · have := RequestHead.framed_error early
    simp at this
  · rcases Framing.readBody_error (map_eq_error_iff.mp late) with same | same <;> cases same

/-- Nothing is refused for its length before it is longer than the limit. -/
theorem lt_length_of_parse (failed : parse buffer = .error .headersTooLarge) :
    headLimit < buffer.length := by
  apply Nat.lt_of_not_le
  intro within
  cases found : Text.cut? separator buffer with
  | none =>
    rw [parse_of_none found, if_neg (Nat.not_lt_of_le within)] at failed
    cases failed
  | some parts =>
    have whole := Text.length_of_cut? found
    exact parse_ne_headersTooLarge found (by omega) failed

end Request

end IdentityRelay.Http
