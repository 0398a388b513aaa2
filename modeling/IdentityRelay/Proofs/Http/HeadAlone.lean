import IdentityRelay.Proofs.Http.ChunkedRequest
import IdentityRelay.Proofs.Http.RawFields

/-! What a head says whatever stands behind it. Its faults are found before a byte of the
body is looked at, and so are its fields and the way in which the body is read; the bytes
behind it decide only what the body is, and whether it is whole. -/
namespace IdentityRelay.Http

/-- The bytes up to the end of the first separator. -/
structure IsHead (head : Bytes) : Prop where
  ended : ∃ front, head = front ++ separator
  first : ∀ before after, head = before ++ separator ++ after → after = []

theorem isHead_iff {head : Bytes} :
    IsHead head ↔ ∃ front, Text.cut? separator head = some (front, []) := by
  constructor
  · rintro ⟨⟨front, whole⟩, first⟩
    obtain ⟨before, after, found, _⟩ := Text.cut?_of_append separator front []
    rw [List.append_nil, ← whole] at found
    obtain rfl := first before after (Text.append_of_cut? found)
    exact ⟨before, found⟩
  · rintro ⟨front, found⟩
    have whole := Text.append_of_cut? found
    rw [List.append_nil] at whole
    refine ⟨⟨front, whole⟩, ?_⟩
    intro before after other
    have bound := Text.length_le_of_cut? found other
    have sizes := congrArg List.length (whole.symm.trans other)
    simp only [List.length_append] at sizes
    exact List.length_eq_zero_iff.mp (by omega)

/-- The faults of a head. Only the bytes behind it can be missing, or be no chunks. -/
def headFaults : List ParseError :=
  [.invalidRequest, .invalidMethod, .invalidVersion, .invalidHeader, .invalidContentLength,
    .headersTooLarge]

/-- Two requests that say the same but for their bodies. -/
structure SameHead (request other : Request) : Prop where
  method : request.method = other.method
  target : request.target = other.target
  version : request.version = other.version
  headers : request.headers = other.headers

namespace RequestHead

/-- What a head within the limit says, and the framing that it announces for the body. -/
def announced (head : Bytes) : Except ParseError (RequestHead × Framing) :=
  if headLimit < head.length then .error .headersTooLarge else framed head

end RequestHead

namespace Request
variable {head front rest : Bytes} {error : ParseError} {request other : Request}
  {taken length : Nat}

section
variable (ends : Text.cut? separator head = some (front, []))
include ends

theorem length_of_ends : head.length = front.length + 4 := by
  have whole := Text.length_of_cut? ends
  simpa [separator, crlf] using whole

theorem cut?_behind (rest : Bytes) : Text.cut? separator (head ++ rest) = some (front, rest) :=
  Text.cut?_append ends rest

/-- What is behind a head is looked at once the head has been read, and as the body alone. -/
theorem parse_behind (rest : Bytes) :
    parse (head ++ rest) = (RequestHead.announced front).bind fun (fields, framing) =>
      (framing.readBody rest).map fun (body, length) =>
        (fields.toRequest body, head.length + length) := by
  rw [parse_of_some (cut?_behind ends rest), RequestHead.announced, length_of_ends ends]
  split <;> rfl

theorem announced_error (isOfHead : error ∈ headFaults)
    (failed : parse (head ++ rest) = .error error) : RequestHead.announced front = .error error := by
  rw [parse_behind ends] at failed
  rcases bind_eq_error_iff.mp failed with early | ⟨_, _, late⟩
  · exact early
  · rcases Framing.readBody_error (map_eq_error_iff.mp late) with rfl | rfl <;>
      simp [headFaults] at isOfHead

theorem headers_of_parse_behind (parsed : parse (head ++ rest) = .ok (request, taken)) :
    request.headers.toList = (fieldLines head).map headerOnLine := by
  have sameLines : fieldLines (head ++ rest) = fieldLines head := by
    rw [fieldLines_of_cut? ends, fieldLines_of_cut? (cut?_behind ends rest)]
  rw [headers_of_parse parsed, sameLines]

/-- The body of a request is in chunks, or as long as its head says. -/
theorem body_of_parse_behind (parsed : parse (head ++ rest) = .ok (request, taken)) :
    ∃ size, taken = head.length + size ∧
      (request.isChunked = true → Chunked.decode rest = .ok (request.body, size)) ∧
      (request.isChunked = false → Framing.contentLength request.headers = .ok size ∧
        request.body = rest.take size ∧ request.body.length = size) := by
  obtain ⟨_, _, size, found, taken_eq, chunked, sized⟩ := exists_body_of_parse parsed
  cases (cut?_behind ends rest).symm.trans found
  rw [← length_of_ends ends] at taken_eq
  refine ⟨size, taken_eq, chunked, ?_⟩
  intro unchunked
  obtain ⟨given, enough, body⟩ := sized unchunked
  exact ⟨given, body, by rw [body, List.length_take_of_le enough]⟩

section TwoBodies
variable {first second : Bytes} (parsed : parse (head ++ first) = .ok (request, taken))
  (parsedOther : parse (head ++ second) = .ok (other, length))
include parsed parsedOther

theorem sameHead_of_parse : SameHead request other := by
  rw [parse_behind ends] at parsed parsedOther
  obtain ⟨_, said, readFirst⟩ := bind_eq_ok_iff.mp parsed
  obtain ⟨_, saidAgain, readSecond⟩ := bind_eq_ok_iff.mp parsedOther
  cases said.symm.trans saidAgain
  obtain ⟨_, _, same⟩ := map_eq_ok_iff.mp readFirst
  obtain ⟨_, _, sameOther⟩ := map_eq_ok_iff.mp readSecond
  cases same
  cases sameOther
  exact ⟨rfl, rfl, rfl, rfl⟩

theorem sameFraming_of_parse :
    request.isChunked = true ∧ other.isChunked = true ∧
        Chunked.decode first = .ok (request.body, taken - head.length) ∧
        Chunked.decode second = .ok (other.body, length - head.length) ∨
      request.isChunked = false ∧ other.isChunked = false ∧
        request.body.length = other.body.length ∧ taken = length ∧
        request.body = first.take request.body.length ∧
        other.body = second.take other.body.length := by
  have sameHeaders := (sameHead_of_parse ends parsed parsedOther).headers
  have sameCoding : other.isChunked = request.isChunked := by
    rw [isChunked, ← sameHeaders, isChunked]
  obtain ⟨size, rfl, chunked, sized⟩ := body_of_parse_behind ends parsed
  obtain ⟨otherSize, rfl, otherChunked, otherSized⟩ := body_of_parse_behind ends parsedOther
  cases coding : request.isChunked with
  | true =>
    rw [Nat.add_sub_cancel_left, Nat.add_sub_cancel_left]
    exact .inl ⟨rfl, sameCoding.trans coding, chunked coding,
      otherChunked (sameCoding.trans coding)⟩
  | false =>
    obtain ⟨given, body, bodyLength⟩ := sized coding
    obtain ⟨otherGiven, otherBody, otherLength⟩ := otherSized (sameCoding.trans coding)
    rw [sameHeaders, otherGiven] at given
    cases given
    rw [bodyLength, otherLength]
    exact .inr ⟨rfl, sameCoding.trans coding, rfl, rfl, body, otherBody⟩

end TwoBodies

end

/-- The bytes behind a head have no part in what it says. Its faults are found whatever they
are. Of two requests that are read behind it both have its method, target, version and fields,
which stand on its own lines, and have their bodies in chunks or of one and the same length. -/
theorem head_read_alone (isHead : IsHead head) (first second : Bytes) :
    (∀ error ∈ headFaults,
      parse (head ++ first) = .error error → parse (head ++ second) = .error error) ∧
    ∀ request other taken length, parse (head ++ first) = .ok (request, taken) →
      parse (head ++ second) = .ok (other, length) →
        SameHead request other ∧
        request.headers.toList = (fieldLines head).map headerOnLine ∧
        (request.isChunked = true ∧ other.isChunked = true ∧
            Chunked.decode first = .ok (request.body, taken - head.length) ∧
            Chunked.decode second = .ok (other.body, length - head.length) ∨
          request.isChunked = false ∧ other.isChunked = false ∧
            request.body.length = other.body.length ∧ taken = length ∧
            request.body = first.take request.body.length ∧
            other.body = second.take other.body.length) := by
  obtain ⟨front, ends⟩ := isHead_iff.mp isHead
  constructor
  · intro error isOfHead failed
    rw [parse_behind ends, announced_error ends isOfHead failed]
    rfl
  · intro request other taken length parsed parsedOther
    exact ⟨sameHead_of_parse ends parsed parsedOther, headers_of_parse_behind ends parsed,
      sameFraming_of_parse ends parsed parsedOther⟩

/-- A body without data, and a trailer line that looks like a field for the head. -/
def trailedLayout : Chunked.Layout where
  chunks := []
  last := Utf8.encode "0;Host=evil"
  trailers := [Utf8.encode "Host: evil"]

theorem wellFormed_trailedLayout : trailedLayout.WellFormed where
  chunks := nofun
  last := ⟨by decide, "0;Host=evil", rfl, by decide⟩
  trailers := List.forall_mem_singleton.mpr ⟨by decide, by decide⟩

theorem cut?_chunkedHead : Text.cut? separator (chunkedHead ++ separator) = some (chunkedHead, []) := by
  decide +kernel

theorem parse_layout {layout : Chunked.Layout} (wellFormed : layout.WellFormed)
    (fits : layout.wire.length < Text.wordLimit) :
    parse (chunkedHead ++ separator ++ layout.wire) =
      .ok (chunkedFields.toRequest layout.payload, chunkedHead.length + 4 + layout.wire.length) :=
  (parse_eq_ok_iff_layout (cut?_behind cut?_chunkedHead layout.wire) (by decide) parse_chunkedHead
    (by decide) fits).mpr ⟨layout, [], wellFormed, (List.append_nil _).symm, rfl, rfl⟩

def unmeasuredHead : Bytes := Utf8.encode "PUT /a HTTP/1.0\r\nContent-Length: five\r\n\r\n"

/-- Two chunked bodies with trailers that look like fields, and a fault of the head that is
found with and without a body. -/
theorem head_read_alone_of_trailers :
    IsHead (chunkedHead ++ separator) ∧
      (∃ request other taken length,
        parse (chunkedHead ++ separator ++ deceptiveLayout.wire) = .ok (request, taken) ∧
        parse (chunkedHead ++ separator ++ trailedLayout.wire) = .ok (other, length) ∧
        request.body ≠ other.body ∧ SameHead request other) ∧
      IsHead unmeasuredHead ∧
      parse (unmeasuredHead ++ []) = .error .invalidContentLength ∧
      parse (unmeasuredHead ++ separator) = .error .invalidContentLength := by
  have isHead : IsHead (chunkedHead ++ separator) := isHead_iff.mpr ⟨_, cut?_chunkedHead⟩
  have parsed := parse_layout wellFormed_deceptiveLayout length_deceptiveLayout
  have parsedOther := parse_layout wellFormed_trailedLayout (by decide)
  have different : deceptiveLayout.payload ≠ trailedLayout.payload := by
    rw [payload_deceptiveLayout]
    decide
  have same := ((head_read_alone isHead deceptiveLayout.wire trailedLayout.wire).2 _ _ _ _ parsed
    parsedOther).1
  have isUnmeasured : IsHead unmeasuredHead :=
    isHead_iff.mpr ⟨Utf8.encode "PUT /a HTTP/1.0\r\nContent-Length: five", by decide +kernel⟩
  have failed : parse (unmeasuredHead ++ []) = .error .invalidContentLength := by rfl
  exact ⟨isHead, ⟨_, _, _, _, parsed, parsedOther, different, same⟩, isUnmeasured, failed,
    (head_read_alone isUnmeasured [] separator).1 _ (by decide) failed⟩

end Request

end IdentityRelay.Http
