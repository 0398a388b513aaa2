import IdentityRelay.Proofs.Http.Accepted
import IdentityRelay.Proofs.Http.ChunkedRequest
import IdentityRelay.Proofs.Text.Numeral

/-! How the numbers are spelled that say where a body ends: Content-Length values and the
sizes of chunks. What is read is digits, but for a plus sign in front and for blanks of any
kind around; any other spelling is refused. -/
namespace IdentityRelay.Http

theorem readLength?_eq_some_iff {s : List Char} {length : Nat} :
    Text.readSize? 10 (Text.trim s) = some length ↔
      Text.IsLenient Char.isDigit s ∧ Text.numberIn 10 (Text.trim s) = length ∧
        length < Text.wordLimit :=
  Text.readSize?_trim_eq_some_iff Text.isSome_digit?_ten

theorem readChunkSize?_eq_some_iff {s : List Char} {size : Nat} :
    Text.readSize? 16 (Text.trim s) = some size ↔
      Text.IsLenient Text.isHexDigit s ∧ Text.numberIn 16 (Text.trim s) = size ∧
        size < Text.wordLimit :=
  Text.readSize?_trim_eq_some_iff Text.isSome_digit?_sixteen

namespace Chunked
variable {line : Bytes}

/-- The size lines of a body, that of the last chunk included. -/
def Layout.sizeLines (layout : Layout) : List Bytes :=
  layout.chunks.map Chunk.line ++ [layout.last]

theorem Layout.WellFormed.isSizeLine {layout : Layout} (wellFormed : layout.WellFormed)
    (member : line ∈ layout.sizeLines) : ∃ size, IsSizeLine line size := by
  rcases List.mem_append.mp member with inChunks | isLast
  · obtain ⟨chunk, inLayout, rfl⟩ := List.mem_map.mp inChunks
    exact ⟨_, (wellFormed.chunks chunk inLayout).sized⟩
  · obtain rfl := List.mem_singleton.mp isLast
    exact ⟨0, wellFormed.last⟩

/-- A line with any other spelling where a chunk is due is refused, whatever follows. -/
theorem decode_of_misspelled {chunks : List Chunk} (each : ∀ chunk ∈ chunks, chunk.WellFormed)
    (fits : (chunks.flatMap Chunk.wire).length < Text.wordLimit) (unbroken : Unbroken line)
    (misspelled : ∀ text, line = Utf8.encode text →
      Text.IsLenient Text.isHexDigit (sizeField text) →
        Text.wordLimit ≤ Text.numberIn 16 (Text.trim (sizeField text)))
    (rest : Bytes) :
    decode (chunks.flatMap Chunk.wire ++ (line ++ crlf ++ rest)) = .error .invalidChunk := by
  have unread : sizeOfLine? line = none := by
    rw [Option.eq_none_iff_forall_ne_some]
    intro size read
    obtain ⟨text, same, read⟩ := (isSizeLine_iff.mpr ⟨unbroken, read⟩).reads
    obtain ⟨lenient, rfl, small⟩ := readChunkSize?_eq_some_iff.mp read
    exact absurd small (Nat.not_lt_of_le (misspelled text same lenient))
  have found : Text.cut? crlf (line ++ crlf ++ rest) = some (line, rest) :=
    cut?_crlf_eq_some_iff.mpr ⟨rfl, unbroken⟩
  rw [decode, decodeFrom_chunks each (by omega), decodeFrom_of_some found, decodeLine, unread]
  rfl

end Chunked

/-- The lengths are read exactly when all of them denote one number. -/
theorem Framing.exists_contentLength_iff {headers : Headers} :
    (∃ length, contentLength headers = .ok length) ↔
      ∃ length < Text.wordLimit, ∀ value ∈ headers.values "Content-Length",
        Text.IsLenient Char.isDigit value.toList ∧
          Text.numberIn 10 (Text.trim value.toList) = length := by
  simp only [contentLength_eq_ok_iff, readLength?_eq_some_iff]
  cases headers.values "Content-Length" with
  | nil => exact ⟨fun _ => ⟨0, by decide, nofun⟩, fun _ => ⟨0, nofun, fun _ => rfl⟩⟩
  | cons first others =>
    constructor
    · rintro ⟨length, each, _⟩
      refine ⟨length, (each first List.mem_cons_self).2.2, fun value member => ?_⟩
      exact ⟨(each value member).1, (each value member).2.1⟩
    · rintro ⟨length, small, each⟩
      refine ⟨length, fun value member => ?_, nofun⟩
      exact ⟨(each value member).1, (each value member).2, small⟩

namespace Request
open Chunked
variable {buffer head rest : Bytes} {fields : RequestHead} {request : Request} {taken : Nat}

theorem isLenient_of_parse (parsed : parse buffer = .ok (request, taken))
    (unchunked : request.isChunked = false) {value : String}
    (member : value ∈ request.headers.values "Content-Length") :
    Text.IsLenient Char.isDigit value.toList ∧
      Text.numberIn 10 (Text.trim value.toList) = request.body.length := by
  have agrees := (wellFormed_of_parse parsed).framed.resolve_left (by simp [unchunked])
  obtain ⟨lenient, number, _⟩ := readLength?_eq_some_iff.mp (agrees.given value member)
  exact ⟨lenient, number⟩

theorem invalidContentLength_iff (found : Text.cut? separator buffer = some (head, rest))
    (within : head.length ≤ headLimit) (read : RequestHead.parse head = .ok fields)
    (unlisted : fields.headers.hasToken "Transfer-Encoding" "chunked" = false) :
    parse buffer = .error .invalidContentLength ↔
      ¬ ∃ length < Text.wordLimit, ∀ value ∈ fields.headers.values "Content-Length",
        Text.IsLenient Char.isDigit value.toList ∧
          Text.numberIn 10 (Text.trim value.toList) = length := by
  rw [parse_of_unchunked found within read unlisted, ← Framing.exists_contentLength_iff]
  cases given : Framing.contentLength fields.headers with
  | error error => simp [Except.bind, Framing.contentLength_error given]
  | ok length =>
    simp only [Except.bind, Except.ok.injEq, exists_eq', not_true_eq_false, iff_false]
    split <;> exact nofun

/-- The numbers that delimit a body are digits, perhaps behind a plus sign and between blanks:
all lengths of a request that is read by its length, and the sizes of all chunks of one that
is read in chunks. Such a number is digits between spaces and tabs exactly where it has no
plus sign and no other blank. With any other spelling the request is refused: for its length
before a byte of the body is read, for the size of a chunk once its line is reached. -/
theorem delimiters_spelled (buffer : Bytes) :
    (∀ request taken, parse buffer = .ok (request, taken) → request.isChunked = false →
      ∀ value ∈ request.headers.values "Content-Length",
        Text.IsLenient Char.isDigit value.toList ∧
          Text.numberIn 10 (Text.trim value.toList) = request.body.length ∧
          (Text.IsStrict Char.isDigit value.toList ↔ Text.IsPlain value.toList)) ∧
    (∀ request taken, parse buffer = .ok (request, taken) → request.isChunked = true →
      ∃ (head : Bytes) (layout : Layout) (behind : Bytes),
        Text.cut? separator buffer = some (head, layout.wire ++ behind) ∧ layout.WellFormed ∧
          request.body = layout.payload ∧ taken = head.length + 4 + layout.wire.length ∧
          ∀ line ∈ layout.sizeLines, ∃ text, line = Utf8.encode text ∧
            Text.IsLenient Text.isHexDigit (sizeField text) ∧
              (Text.IsStrict Text.isHexDigit (sizeField text) ↔ Text.IsPlain (sizeField text))) ∧
    (∀ (head rest : Bytes) (fields : RequestHead),
      Text.cut? separator buffer = some (head, rest) → head.length ≤ headLimit →
        RequestHead.parse head = .ok fields →
        fields.headers.hasToken "Transfer-Encoding" "chunked" = false →
          (parse buffer = .error .invalidContentLength ↔
            ¬ ∃ length < Text.wordLimit, ∀ value ∈ fields.headers.values "Content-Length",
              Text.IsLenient Char.isDigit value.toList ∧
                Text.numberIn 10 (Text.trim value.toList) = length)) ∧
    ∀ (head line rest : Bytes) (fields : RequestHead) (chunks : List Chunk),
      Text.cut? separator buffer =
          some (head, chunks.flatMap Chunk.wire ++ (line ++ crlf ++ rest)) →
        head.length ≤ headLimit → RequestHead.parse head = .ok fields →
        fields.headers.hasToken "Transfer-Encoding" "chunked" = true →
        (∀ chunk ∈ chunks, chunk.WellFormed) →
        (chunks.flatMap Chunk.wire).length < Text.wordLimit → Unbroken line →
        (∀ text, line = Utf8.encode text → Text.IsLenient Text.isHexDigit (sizeField text) →
          Text.wordLimit ≤ Text.numberIn 16 (Text.trim (sizeField text))) →
          parse buffer = .error .invalidChunk := by
  refine ⟨?_, ?_, ?_, ?_⟩
  · intro request taken parsed unchunked value member
    obtain ⟨lenient, number⟩ := isLenient_of_parse parsed unchunked member
    have strict := Text.isStrict_iff (s := value.toList) fun _ => Text.isAlphanum_of_isDigit
    exact ⟨lenient, number, strict.trans (and_iff_right lenient)⟩
  · intro request taken parsed chunked
    obtain ⟨head, layout, behind, found, wellFormed, body, whole⟩ :=
      exists_layout_of_parse parsed chunked
    refine ⟨head, layout, behind, found, wellFormed, body, whole, ?_⟩
    intro line member
    obtain ⟨size, sized⟩ := wellFormed.isSizeLine member
    obtain ⟨text, same, read⟩ := sized.reads
    have lenient := (readChunkSize?_eq_some_iff.mp read).1
    have strict := Text.isStrict_iff (s := sizeField text) fun _ => Text.isAlphanum_of_isHexDigit
    exact ⟨text, same, lenient, strict.trans (and_iff_right lenient)⟩
  · intro head rest fields found within read unlisted
    exact invalidContentLength_iff found within read unlisted
  · intro head line rest fields chunks found within read listed each fits unbroken misspelled
    rw [parse_of_chunked found within read listed,
      decode_of_misspelled each fits unbroken misspelled rest]
    rfl

/-- A body of five bytes whose length is announced with a plus sign and a no-break space. -/
def signedLength : Bytes :=
  Utf8.encode "POST / HTTP/1.1\r\nContent-Length: +5" ++ [0xA0] ++ separator ++ Utf8.encode "hello"

def signedLengthRequest : Request where
  method := .post
  target := "/"
  version := "HTTP/1.1"
  headers := ⟨[⟨"Content-Length", "+5\u00A0"⟩]⟩
  body := Utf8.encode "hello"

def signedChunk : Layout where
  chunks := [⟨Utf8.encode "+5;x", Utf8.encode "hello"⟩]
  last := Utf8.encode "0"
  trailers := []

/-- Numbers that a strict reader refuses delimit bodies here; a minus sign is refused. -/
theorem delimiters_spelled_of_signs :
    (parse signedLength = .ok (signedLengthRequest, signedLength.length) ∧
      Text.IsLenient Char.isDigit "+5\u00A0".toList ∧
      ¬ Text.IsStrict Char.isDigit "+5\u00A0".toList) ∧
    (∃ request taken, parse (chunkedHead ++ separator ++ signedChunk.wire) = .ok (request, taken) ∧
      request.isChunked = true ∧
      ∃ (head : Bytes) (layout : Layout) (behind : Bytes),
        Text.cut? separator (chunkedHead ++ separator ++ signedChunk.wire) =
            some (head, layout.wire ++ behind) ∧ layout.WellFormed ∧
          request.body = layout.payload) ∧
    parse (Utf8.encode "POST / HTTP/1.1\r\nContent-Length: -5\r\n\r\nhello") =
      .error .invalidContentLength ∧
    parse (chunkedHead ++ separator ++ Utf8.encode "-5\r\nhello\r\n0\r\n\r\n") =
      .error .invalidChunk := by
  have minus : ¬ Text.IsLenient Char.isDigit "-5".toList := fun lenient =>
    absurd (readLength?_eq_some_iff.mpr ⟨lenient, rfl, by decide⟩) (by decide)
  have minusSize : ¬ Text.IsLenient Text.isHexDigit (sizeField "-5") := fun lenient =>
    absurd (readChunkSize?_eq_some_iff.mpr ⟨lenient, rfl, by decide⟩) (by decide)
  refine ⟨?_, ?_, ?_, ?_⟩
  · have parsed : parse signedLength = .ok (signedLengthRequest, signedLength.length) := by rfl
    obtain ⟨lenient, _, strict⟩ :=
      (delimiters_spelled signedLength).1 _ _ parsed (by decide) "+5\u00A0" (by decide)
    exact ⟨parsed, lenient, fun isStrict => absurd (strict.mp isStrict).unsigned (by decide)⟩
  · have sized : IsSizeLine (Utf8.encode "+5;x") 5 := ⟨by decide, "+5;x", rfl, by decide⟩
    have last : IsSizeLine (Utf8.encode "0") 0 := ⟨by decide, "0", rfl, by decide⟩
    have wellFormed : signedChunk.WellFormed :=
      ⟨List.forall_mem_singleton.mpr ⟨sized, by decide⟩, last, nofun⟩
    have found : Text.cut? separator (chunkedHead ++ separator ++ signedChunk.wire) =
        some (chunkedHead, signedChunk.wire) := by decide +kernel
    have parsed := (parse_eq_ok_iff_layout found (by decide) parse_chunkedHead (by decide)
      (by decide +kernel)).mpr ⟨signedChunk, [], wellFormed, (List.append_nil _).symm, rfl, rfl⟩
    have chunked : (chunkedFields.toRequest signedChunk.payload).isChunked = true := by decide
    obtain ⟨head, layout, behind, first, isLayout, body, _⟩ :=
      (delimiters_spelled _).2.1 _ _ parsed chunked
    exact ⟨_, _, parsed, chunked, head, layout, behind, first, isLayout, body⟩
  · have found : Text.cut? separator
        (Utf8.encode "POST / HTTP/1.1\r\nContent-Length: -5\r\n\r\nhello") =
        some (Utf8.encode "POST / HTTP/1.1\r\nContent-Length: -5", Utf8.encode "hello") := by
      decide +kernel
    have read : RequestHead.parse (Utf8.encode "POST / HTTP/1.1\r\nContent-Length: -5") =
        .ok ⟨.post, "/", "HTTP/1.1", ⟨[⟨"Content-Length", "-5"⟩]⟩⟩ := by rfl
    apply ((delimiters_spelled _).2.2.1 _ _ _ found (by decide) read (by decide)).mpr
    rintro ⟨_, _, each⟩
    exact minus (each "-5" (by decide)).1
  · have found : Text.cut? separator
        (chunkedHead ++ separator ++ Utf8.encode "-5\r\nhello\r\n0\r\n\r\n") =
        some (chunkedHead, [].flatMap Chunk.wire ++
          (Utf8.encode "-5" ++ crlf ++ Utf8.encode "hello\r\n0\r\n\r\n")) := by decide +kernel
    refine (delimiters_spelled _).2.2.2 _ _ _ chunkedFields [] found (by decide) parse_chunkedHead
      (by decide) nofun (by decide) (by decide) ?_
    intro text same lenient
    have own : text = "-5" := by
      have decoded := congrArg Utf8.decode? same
      rw [Utf8.decode?_encode, Utf8.decode?_encode] at decoded
      exact (Option.some.inj decoded).symm
    exact absurd (own ▸ lenient) minusSize

end Request

end IdentityRelay.Http
