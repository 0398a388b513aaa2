import IdentityRelay.Proofs.Http.ChunkedRequest
import IdentityRelay.Proofs.Http.IndexedBody
import IdentityRelay.Proofs.Http.Progress

/-! Whole requests read by position: the head up to its end, the body behind it in either
framing. Within the bytes that memory can hold no slice and no sum goes wrong. -/
namespace IdentityRelay.Http.Indexed

def fieldAt (line : Bytes) : Except Stop Header := do
  let some colon := find? [58] line | throw (.fault .invalidHeader)
  let name := Latin1.decode (Text.strip Text.isAsciiSpace (← slice line 0 colon))
  if !Text.isToken name then throw (.fault .invalidHeader)
  let value ← slice line (← sum colon 1) line.length
  return ⟨name, Latin1.decode (Text.strip Text.isAsciiSpace value)⟩

def headAt (head : Bytes) : Except Stop RequestHead := do
  let requestLine :: rest := RequestHead.lines head | throw (.fault .invalidRequest)
  let (method, target, version) ← (RequestHead.ofRequestLine requestLine).mapError .fault
  let headers ← (rest.filter fun line => !line.isEmpty).mapM fieldAt
  return { method, target, version, headers := ⟨headers⟩ }

def bodyAt (framing : Framing) (rest : Bytes) : Except Stop (Bytes × Nat) :=
  match framing with
  | .chunked => decode rest
  | .sized length =>
    if rest.length < length then .error (.fault .incomplete)
    else (slice rest 0 length).map fun body => (body, length)

def parse (buffer : Bytes) : Except Stop (Request × Nat) := do
  let some headEnd := find? separator buffer
    | throw (.fault (if headLimit < buffer.length then .headersTooLarge else .incomplete))
  if headLimit < headEnd then throw (.fault .headersTooLarge)
  let head ← slice buffer 0 headEnd
  let bodyStart ← sum headEnd 4
  let rest ← slice buffer bodyStart buffer.length
  let fields ← headAt head
  let framing ← (Framing.ofHeaders fields.headers).mapError .fault
  let (body, length) ← bodyAt framing rest
  return (fields.toRequest body, ← sum bodyStart length)

variable {buffer line head rest : Bytes}

theorem fieldAt_eq (fits : line.length ≤ bufferLimit) :
    fieldAt line =
      (RequestHead.headerOfLine? line).elim (.error (.fault .invalidHeader)) .ok := by
  unfold fieldAt RequestHead.headerOfLine?
  cases found : Text.cut? [58] line with
  | none =>
    rw [find?_of_none found]
    rfl
  | some parts =>
    obtain ⟨before, after⟩ := parts
    have whole := Text.append_of_cut? found
    have sizes := Text.length_of_cut? found
    simp only [List.length_singleton] at sizes
    have small : line.length < Text.wordLimit := Nat.lt_of_le_of_lt fits (by decide)
    have name : slice line 0 before.length = .ok before := by
      rw [slice_of_le (by omega) (by omega), whole]
      simp
    have colon : sum before.length 1 = .ok (before.length + 1) := sum_of_lt (by omega)
    have value : slice line (before.length + 1) line.length = .ok after := by
      rw [slice_to_end (by omega), whole]
      simp
    simp only [find?_of_some found, name, colon, value, bind, Except.bind, Option.bind]
    split
    · rename_i other
      rw [Bool.not_eq_true'] at other
      rw [if_neg (by simp [other])]
      rfl
    · rename_i token
      rw [Bool.not_eq_true', Bool.not_eq_false] at token
      rw [if_pos token]
      rfl

theorem headAt_eq (fits : head.length ≤ bufferLimit) :
    headAt head = (RequestHead.parse head).mapError .fault := by
  obtain ⟨requestLine, rest, split⟩ := RequestHead.exists_lines head
  have fields : (rest.filter fun line => !line.isEmpty).mapM fieldAt =
      ((rest.filter fun line => !line.isEmpty).mapM RequestHead.headerOfLine?).elim
        (.error (.fault .invalidHeader)) .ok := by
    apply mapM_eq_elim
    intro line kept
    have isLine : line ∈ RequestHead.lines head := by simp [split, (List.mem_filter.mp kept).1]
    exact fieldAt_eq (Nat.le_trans (RequestHead.length_le_of_mem_lines isLine) fits)
  rw [RequestHead.parse_of_lines split, mapError_bind]
  simp only [headAt, split, fields, RequestHead.headersOfLines]
  cases RequestHead.ofRequestLine requestLine with
  | error error => rfl
  | ok parts =>
    cases (rest.filter fun line => !line.isEmpty).mapM RequestHead.headerOfLine? <;> rfl

theorem bodyAt_eq (framing : Framing) (fits : rest.length ≤ bufferLimit) :
    bodyAt framing rest = (framing.readBody rest).mapError .fault := by
  cases framing with
  | chunked => exact decode_eq fits
  | sized length =>
    rw [Framing.readBody_sized]
    simp only [bodyAt]
    split
    · rfl
    · rw [slice_of_le (Nat.zero_le _) (by omega)]
      rfl

/-- A buffer that memory can hold is read as a list is. -/
theorem parse_eq (fits : buffer.length ≤ bufferLimit) :
    parse buffer = (Request.parse buffer).mapError .fault := by
  unfold parse
  cases found : Text.cut? separator buffer with
  | none =>
    rw [find?_of_none found, Request.parse_of_none found]
    by_cases long : headLimit < buffer.length <;> simp only [long, if_true, if_false] <;> rfl
  | some parts =>
    obtain ⟨head, rest⟩ := parts
    have sizes := Text.length_of_cut? found
    simp only [separator, crlf, List.length_append, List.length_cons, List.length_nil] at sizes
    have headFits : head.length ≤ bufferLimit := by omega
    have restFits : rest.length ≤ bufferLimit := by omega
    have small : buffer.length < Text.wordLimit := Nat.lt_of_le_of_lt fits (by decide)
    have whole : slice buffer 0 head.length = .ok head := by
      rw [slice_of_le (Nat.zero_le _) (by omega), Text.append_of_cut? found]
      simp
    have bodyStart : sum head.length 4 = .ok (head.length + 4) := sum_of_lt (by omega)
    have behind : slice buffer (head.length + 4) buffer.length = .ok rest := by
      rw [slice_to_end (by omega)]
      exact congrArg Except.ok (Request.drop_behind_head found 0)
    simp only [find?_of_some found, Request.parse_of_some found, whole, bodyStart, behind, bind,
      Except.bind]
    split
    · rfl
    · rw [headAt_eq headFits, RequestHead.framed]
      cases RequestHead.parse head with
      | error error => rfl
      | ok fields =>
        simp only [mapError_ok, Except.bind]
        -- The framing may announce any length; only one that the bytes reach is added.
        cases Framing.ofHeaders fields.headers with
        | error error => rfl
        | ok framing =>
          simp only [mapError_ok, Except.map, bodyAt_eq framing restFits]
          cases read : framing.readBody rest with
          | error error => rfl
          | ok decoded =>
            have bound := Framing.readBody_le read
            have taken : sum (head.length + 4) decoded.2 = .ok (head.length + 4 + decoded.2) :=
              sum_of_lt (by omega)
            simp only [mapError_ok, taken]
            rfl

/-- Neither a slice nor a sum went wrong. -/
def Safe {α : Type} (outcome : Except Stop α) : Prop :=
  outcome ≠ .error .outOfBounds ∧ outcome ≠ .error .overflow

theorem safe_ok {α : Type} (value : α) : Safe (.ok value) := by simp [Safe]

theorem safe_mapError {α : Type} (outcome : Except ParseError α) :
    Safe (outcome.mapError .fault) := by
  cases outcome <;> simp [Safe, mapError_ok, mapError_error]

section Passes
variable {body : Bytes} {position : Nat} (fits : body.length ≤ bufferLimit)
  (within : position ≤ body.length)
include fits within

theorem safe_lineAt : Safe (lineAt body position) := by
  cases found : Text.cut? crlf (body.drop position) with
  | none =>
    rw [lineAt_of_none within found]
    exact safe_mapError (.error .incomplete)
  | some parts =>
    rw [lineAt_of_some fits within found]
    exact safe_ok _

theorem safe_partAt : Safe (partAt body position) := by
  cases found : Text.cut? crlf (body.drop position) with
  | none =>
    rw [partAt, lineAt_of_none within found]
    exact safe_mapError (.error .incomplete)
  | some parts =>
    obtain ⟨line, after⟩ := parts
    cases read : Chunked.sizeOfLine? line with
    | none =>
      rw [partAt_of_unsized fits within found read]
      exact safe_mapError (.error .invalidChunk)
    | some size =>
      rw [partAt_of_sized fits within found read]
      split
      · exact safe_ok _
      · rw [dataAt_eq (behind_line found).1]
        exact safe_mapError _

end Passes

/-- No buffer that memory can hold, and no size that a client writes into one, makes the
reader slice beyond the bytes or add beyond the machine words: what it reads is what is read
off a list. A pass of either loop, for a chunk or for a trailer line, goes forward and stays
within the bytes, so that there are no more passes than bytes. -/
theorem reading_in_bounds :
    (∀ buffer : Bytes, buffer.length ≤ bufferLimit →
      Safe (parse buffer) ∧ parse buffer = (Request.parse buffer).mapError .fault) ∧
    (∀ (body : Bytes) (position : Nat), body.length ≤ bufferLimit → position ≤ body.length →
      Safe (partAt body position) ∧ Safe (lineAt body position)) ∧
    (∀ (body : Bytes) (position next : Nat), Leads body position next →
      position < next ∧ next ≤ body.length) ∧
    ∀ (body : Bytes) (count position last : Nat), position ≤ body.length →
      Passes body count position last → position + count ≤ last ∧ last ≤ body.length := by
  refine ⟨?_, ?_, ?_, ?_⟩
  · intro buffer fits
    have same := parse_eq fits
    exact ⟨same ▸ safe_mapError _, same⟩
  · intro body position fits within
    exact ⟨safe_partAt fits within, safe_lineAt fits within⟩
  · intro body position next leads
    exact leads.forward
  · intro body count position last within passes
    exact passes.bounded within

def largestLength : Bytes :=
  Utf8.encode "POST / HTTP/1.1\r\nContent-Length: 18446744073709551615\r\n\r\n"

def largestChunk : Bytes := Utf8.encode "ffffffffffffffff\r\n"

theorem parse_largestChunk :
    Request.parse (Request.chunkedHead ++ separator ++ largestChunk) = .error .invalidChunk := by
  have found : Text.cut? separator (Request.chunkedHead ++ separator ++ largestChunk) =
      some (Request.chunkedHead, largestChunk) := by decide +kernel
  have line : Text.cut? crlf largestChunk = some (Utf8.encode "ffffffffffffffff", []) := by
    decide +kernel
  rw [Request.parse_of_chunked found (by decide) Request.parse_chunkedHead (by decide),
    Chunked.decode, Chunked.decodeFrom_of_some line]
  rfl

/-- A chunk of one byte, the last chunk, and the empty line. -/
def singleChunk : Bytes := Utf8.encode "1\r\na\r\n0\r\n\r\n"

theorem partAt_singleChunk : partAt singleChunk 0 = .ok (.chunk [97] 6) := by rfl

theorem passes_singleChunk : Passes singleChunk 3 0 11 := by
  have last : partAt singleChunk 6 = .ok (.last 9) := by rfl
  have empty : lineAt singleChunk 9 = .ok ([], 11) := by rfl
  exact .step (.part partAt_singleChunk) (.step (.part last) (.step (.trailer empty) .none))

theorem reading_in_bounds_of_largest :
    parse largestLength = .error (.fault .incomplete) ∧
      parse (Request.chunkedHead ++ separator ++ largestChunk) = .error (.fault .invalidChunk) ∧
      (Safe (partAt largestChunk 0) ∧ partAt largestChunk 0 = .error (.fault .invalidChunk)) ∧
      (0 < 6 ∧ 6 ≤ singleChunk.length) ∧ (0 + 3 ≤ 11 ∧ 11 ≤ singleChunk.length) := by
  obtain ⟨whole, pass, forward, all⟩ := reading_in_bounds
  refine ⟨?_, ?_, ?_, ?_, ?_⟩
  · rw [(whole largestLength (by decide)).2]
    rfl
  · rw [(whole _ (by decide +kernel)).2, parse_largestChunk]
    rfl
  · exact ⟨(pass largestChunk 0 (by decide) (by decide)).1, by rfl⟩
  · exact forward singleChunk 0 6 (.part partAt_singleChunk)
  · exact all singleChunk 3 0 11 (by decide) passes_singleChunk

end IdentityRelay.Http.Indexed
