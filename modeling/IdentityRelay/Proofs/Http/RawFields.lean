import IdentityRelay.Proofs.Http.Accepted

/-! The header fields of a request as they stand in the buffer, and what is read of
each of them: the name before the first colon of its line and the bytes behind it. -/
namespace IdentityRelay.Http

/-- The lines of a buffer that hold header fields: those of the head that are not empty,
behind the request line. -/
def fieldLines (buffer : Bytes) : List Bytes :=
  match Text.cut? separator buffer with
  | some (head, _) => (RequestHead.lines head).tail.filter fun line => !line.isEmpty
  | none => []

theorem fieldLines_of_cut? {buffer head rest : Bytes}
    (found : Text.cut? separator buffer = some (head, rest)) :
    fieldLines buffer = (RequestHead.lines head).tail.filter fun line => !line.isEmpty := by
  rw [fieldLines, found]

def nameOnLine (line : Bytes) : String :=
  Latin1.decode (Text.strip Text.isAsciiSpace (line.takeWhile (· != 58)))

def valueOnLine (line : Bytes) : Bytes :=
  Text.strip Text.isAsciiSpace ((line.dropWhile (· != 58)).drop 1)

def headerOnLine (line : Bytes) : Header := ⟨nameOnLine line, Latin1.decode (valueOnLine line)⟩

theorem RequestHead.eq_headerOnLine {line : Bytes} {header : Header}
    (read : headerOfLine? line = some header) : header = headerOnLine line := by
  simp only [headerOfLine?, Option.bind_eq_bind, Option.bind_eq_some_iff] at read
  obtain ⟨⟨name, value⟩, found, read⟩ := read
  obtain ⟨rfl, rfl⟩ := Text.parts_of_cut?_singleton found
  simp only at read
  split at read
  · cases read
    rfl
  · cases read

namespace Request
variable {buffer : Bytes} {request : Request} {taken : Nat}

/-- The fields of a request are those on the lines of its head, in their order. -/
theorem headers_of_parse (parsed : parse buffer = .ok (request, taken)) :
    request.headers.toList = (fieldLines buffer).map headerOnLine := by
  obtain ⟨head, rest, fields, framing, length, found, _, framed, _, same, _⟩ :=
    exists_parts_of_parse parsed
  obtain ⟨requestLine, lines, split, _, readHeaders, _⟩ :=
    RequestHead.exists_lines_of_framed framed
  have own : fieldLines buffer = lines.filter fun line => !line.isEmpty := by
    rw [fieldLines_of_cut? found, split, List.tail_cons]
  have sameHeaders : request.headers = fields.headers := by rw [same]; rfl
  rw [own, sameHeaders]
  unfold RequestHead.headersOfLines at readHeaders
  split at readHeaders
  · rename_i stored read
    rw [← Except.ok.inj readHeaders]
    exact eq_map_of_mapM_eq_some read fun line _ header => RequestHead.eq_headerOnLine
  · cases readHeaders

theorem values_of_parse (parsed : parse buffer = .ok (request, taken)) (name : String) :
    request.headers.values name =
      ((fieldLines buffer).filter fun line => Text.sameName (nameOnLine line) name).map
        fun line => Latin1.decode (valueOnLine line) := by
  rw [Headers.values, headers_of_parse parsed, List.filter_map, List.map_map]
  rfl

end Request

end IdentityRelay.Http
