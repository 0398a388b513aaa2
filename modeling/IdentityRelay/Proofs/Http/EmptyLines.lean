import IdentityRelay.Proofs.Http.Progress
import IdentityRelay.Proofs.Http.RawFields

/-! Empty lines within a head. The head ends at the first empty line that stands between
two CRLF. A line feed alone ends a line too, so that there can be empty lines before;
they are skipped, and the fields behind them count. -/
namespace IdentityRelay.Http

namespace RequestHead
variable {head other line back : Bytes}

theorem dropReturn_eq_nil_iff : dropReturn line = [] ↔ line = [] ∨ line = [13] := by
  unfold dropReturn
  split
  · rename_i last
    obtain ⟨front, rfl⟩ := List.getLast?_eq_some_iff.mp (eq_of_beq last)
    simp
  · rename_i last
    constructor
    · exact .inl
    · rintro (rfl | rfl)
      · rfl
      · exact absurd rfl last

/-- A line of a head is empty exactly where nothing, or a carriage return alone, stands
between two line feeds, one of which may be put before the head and one behind it. -/
theorem nil_mem_lines_iff :
    [] ∈ lines head ↔
      [10, 10] <:+: 10 :: (head ++ [10]) ∨ [10, 13, 10] <:+: 10 :: (head ++ [10]) := by
  have pieces : [] ∈ lines head ↔
      [] ∈ Text.splitWhere (· == 10) head ∨ [13] ∈ Text.splitWhere (· == 10) head := by
    rw [lines, List.mem_map]
    constructor
    · rintro ⟨piece, isPiece, empty⟩
      rcases dropReturn_eq_nil_iff.mp empty with rfl | rfl
      · exact .inl isPiece
      · exact .inr isPiece
    · rintro (isPiece | isPiece)
      · exact ⟨_, isPiece, rfl⟩
      · exact ⟨_, isPiece, rfl⟩
  rw [pieces, Text.mem_splitWhere_iff, Text.mem_splitWhere_iff]
  simp

theorem head?_lines_of_crlf (starts : head ++ crlf = crlf ++ back) :
    (lines head).head? = some [] := by
  match head, starts with
  | [], _ => rfl
  | [x], starts => simp [crlf] at starts
  | x :: y :: tail, starts =>
    obtain ⟨rfl, rfl, _⟩ : x = 13 ∧ y = 10 ∧ _ := by simpa [crlf] using starts
    simp [lines, Text.splitWhere, List.splitOnP_cons_eq_if_modifyHead, dropReturn]

/-- A head is read by its request line and by its other lines that are not empty. -/
theorem parse_congr (sameFirst : (lines other).head? = (lines head).head?)
    (sameFields : ((lines other).tail.filter fun line => !line.isEmpty) =
      (lines head).tail.filter fun line => !line.isEmpty) :
    RequestHead.parse other = RequestHead.parse head := by
  obtain ⟨requestLine, rest, split⟩ := exists_lines head
  obtain ⟨otherLine, others, otherSplit⟩ := exists_lines other
  rw [split, otherSplit, List.head?_cons, List.head?_cons, Option.some.injEq] at sameFirst
  rw [split, otherSplit, List.tail_cons, List.tail_cons] at sameFields
  rw [parse_of_lines split, parse_of_lines otherSplit, sameFirst, headersOfLines, headersOfLines,
    sameFields]

end RequestHead

namespace Request
variable {buffer head rest : Bytes} {request : Request} {taken : Nat}

/-- No line of a head that is read is empty where CRLF alone ends lines. -/
theorem not_separator_infix (found : Text.cut? separator buffer = some (head, rest))
    (nonempty : (RequestHead.lines head).head? ≠ some []) :
    ¬ separator <:+: crlf ++ head ++ crlf := by
  rintro ⟨front, back, whole⟩
  match front, whole with
  | [], whole =>
    have starts : head ++ crlf = crlf ++ back := by
      simpa [separator, crlf, eq_comm] using whole
    exact nonempty (RequestHead.head?_lines_of_crlf starts)
  | [x], whole => simp [separator, crlf] at whole
  | x :: y :: front, whole =>
    have inner : head ++ crlf = front ++ separator ++ back := by
      simp only [crlf, List.cons_append, List.nil_append, List.cons.injEq] at whole
      exact whole.2.2.symm
    have earlier : buffer = front ++ separator ++ (back ++ crlf ++ rest) := by
      calc buffer = head ++ crlf ++ (crlf ++ rest) := by
            simpa [separator] using Text.append_of_cut? found
        _ = front ++ separator ++ (back ++ crlf ++ rest) := by
            rw [inner]
            simp only [List.append_assoc]
    have bound := Text.length_le_of_cut? found earlier
    have sizes := congrArg List.length inner
    simp only [separator, crlf, List.length_append, List.length_cons, List.length_nil] at sizes
    omega

/-- The fields of a request do not depend on the bytes behind its head. -/
theorem headers_of_parse_append (found : Text.cut? separator buffer = some (head, rest))
    (parsed : parse buffer = .ok (request, taken)) {more : Bytes} {later : Request} {length : Nat}
    (parsedLater : parse (head ++ separator ++ more) = .ok (later, length)) :
    later.headers = request.headers := by
  have sameLines : fieldLines (head ++ separator ++ more) = fieldLines buffer := by
    rw [fieldLines_of_cut? found, fieldLines_of_cut? (Text.cut?_of_cut? found more)]
  have sameFields := (headers_of_parse parsedLater).trans
    ((congrArg (List.map headerOnLine) sameLines).trans (headers_of_parse parsed).symm)
  exact congrArg Headers.mk sameFields

/-- The head of a request that is read ends at the first two CRLF in a row, and no byte
behind them is read as part of a field. Between CRLF there is no empty line before. Where a
line feed alone ends a line there may be one: it is skipped, ends nothing, and the fields
are those on all the other lines, behind it too. -/
theorem empty_lines_skipped (parsed : parse buffer = .ok (request, taken)) :
    ∃ head rest, Text.cut? separator buffer = some (head, rest) ∧
      (∀ front back, buffer = front ++ separator ++ back → head.length ≤ front.length) ∧
      (∀ more later length, parse (head ++ separator ++ more) = .ok (later, length) →
        later.headers = request.headers) ∧
      ¬ separator <:+: crlf ++ head ++ crlf ∧
      ([] ∈ RequestHead.lines head ↔
        [10, 10] <:+: 10 :: (head ++ [10]) ∨ [10, 13, 10] <:+: 10 :: (head ++ [10])) ∧
      request.headers.toList =
        ((RequestHead.lines head).tail.filter fun line => !line.isEmpty).map headerOnLine ∧
      ∀ other, (RequestHead.lines other).head? = (RequestHead.lines head).head? →
        ((RequestHead.lines other).tail.filter fun line => !line.isEmpty) =
            (RequestHead.lines head).tail.filter (fun line => !line.isEmpty) →
          RequestHead.parse other = RequestHead.parse head := by
  obtain ⟨head, rest, fields, framing, length, found, _, framed, _, _, _⟩ :=
    exists_parts_of_parse parsed
  obtain ⟨requestLine, lines, split, readLine, _⟩ := RequestHead.exists_lines_of_framed framed
  have nonempty : (RequestHead.lines head).head? ≠ some [] := by
    have long := RequestHead.le_length_of_ofRequestLine readLine
    rw [split]
    rintro ⟨rfl⟩
    simp at long
  refine ⟨head, rest, found, ?_, ?_, not_separator_infix found nonempty,
    RequestHead.nil_mem_lines_iff, ?_, ?_⟩
  · intro front back whole
    exact Text.length_le_of_cut? found whole
  · intro more later length parsedLater
    exact headers_of_parse_append found parsed parsedLater
  · rw [headers_of_parse parsed]
    simp only [fieldLines, found]
  · intro other sameFirst sameFields
    exact RequestHead.parse_congr sameFirst sameFields

/-- A request with an empty line between its two fields, without a carriage return. -/
def gappedGet : Bytes := Utf8.encode "GET / HTTP/1.1\r\nA: b\n\nC: d\r\n\r\n"

def gappedRequest : Request where
  method := .get
  target := "/"
  version := "HTTP/1.1"
  headers := ⟨[⟨"A", "b"⟩, ⟨"C", "d"⟩]⟩
  body := []

theorem parse_gappedGet : parse gappedGet = .ok (gappedRequest, 30) := by rfl

/-- The field behind an empty line is read. A carriage return alone is an empty line too
where it stands at the end of the head. -/
theorem field_behind_empty_line :
    (parse gappedGet = .ok (gappedRequest, 30) ∧
      ∃ head, Text.cut? separator gappedGet = some (head, []) ∧ [] ∈ RequestHead.lines head) ∧
    (∃ request, parse (Utf8.encode "GET / HTTP/1.1\r\n\r\r\n\r\n") = .ok (request, 21) ∧
      [] ∈ RequestHead.lines (Utf8.encode "GET / HTTP/1.1\r\n\r")) := by
  refine ⟨⟨parse_gappedGet, Utf8.encode "GET / HTTP/1.1\r\nA: b\n\nC: d", by decide +kernel,
    by decide⟩, ?_⟩
  exact ⟨⟨.get, "/", "HTTP/1.1", .empty, []⟩, by rfl, by decide⟩

theorem empty_lines_skipped_of_gappedGet :
    parse gappedGet = .ok (gappedRequest, 30) ∧
      ∃ head rest, Text.cut? separator gappedGet = some (head, rest) ∧
        ¬ separator <:+: crlf ++ head ++ crlf ∧
        gappedRequest.headers.toList =
          ((RequestHead.lines head).tail.filter fun line => !line.isEmpty).map headerOnLine := by
  obtain ⟨head, rest, found, _, _, closed, _, fields, _⟩ := empty_lines_skipped parse_gappedGet
  exact ⟨parse_gappedGet, head, rest, found, closed, fields⟩

end Request

end IdentityRelay.Http
