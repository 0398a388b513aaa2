import IdentityRelay.Proofs.Http.ChunkedRequest
import IdentityRelay.Proofs.Http.Headers
import IdentityRelay.Proofs.Http.Progress

/-! What the transfer codings of a request decide. A body is read in chunks where the
chunked coding is listed, at whatever place of whichever field. All other codings are as
good as absent: the length alone then says where the body ends. -/
namespace IdentityRelay.Http

namespace Headers
variable {headers : Headers}

/-- The transfer codings in their order: the values of all fields, joined by commas and cut
at every comma. -/
def codings (headers : Headers) : List String :=
  let joined := [','].intercalate ((headers.values "Transfer-Encoding").map String.toList)
  (Text.splitWhere (· == ',') joined).map fun coding => String.ofList (Text.trim coding)

def ListsChunked (headers : Headers) : Prop :=
  ∃ coding ∈ headers.codings, Text.sameName coding "chunked" = true

def EndsChunked (headers : Headers) : Prop :=
  ∃ coding ∈ headers.codings.getLast?, Text.sameName coding "chunked" = true

instance (headers : Headers) : Decidable headers.ListsChunked :=
  inferInstanceAs (Decidable (∃ coding ∈ headers.codings, Text.sameName coding "chunked" = true))

instance (headers : Headers) : Decidable headers.EndsChunked :=
  inferInstanceAs
    (Decidable (∃ coding ∈ headers.codings.getLast?, Text.sameName coding "chunked" = true))

theorem EndsChunked.listsChunked (ends : headers.EndsChunked) : headers.ListsChunked := by
  obtain ⟨coding, last, chunked⟩ := ends
  exact ⟨coding, List.mem_of_getLast? last, chunked⟩

theorem codings_of_ne_nil (present : headers.values "Transfer-Encoding" ≠ []) :
    headers.codings =
      ((headers.values "Transfer-Encoding").flatMap elements).map String.ofList := by
  have nonempty : (headers.values "Transfer-Encoding").map String.toList ≠ [] := by
    simpa using present
  rw [codings, Text.splitWhere_intercalate (by simp) nonempty, List.flatMap_map, List.map_flatMap,
    List.map_flatMap]
  simp only [elements, List.map_map, Function.comp_def]

theorem hasToken_chunked_iff :
    headers.hasToken "Transfer-Encoding" "chunked" = true ↔ headers.ListsChunked := by
  by_cases absent : headers.values "Transfer-Encoding" = []
  · have none : ¬ headers.ListsChunked := by
      rw [ListsChunked, codings, absent]
      decide
    simp [hasToken, absent, none]
  · rw [ListsChunked, ← List.any_eq_true, codings_of_ne_nil absent, List.any_map]
    rfl

theorem hasToken_chunked_eq_false (unlisted : ¬ headers.ListsChunked) :
    headers.hasToken "Transfer-Encoding" "chunked" = false :=
  Bool.eq_false_iff.mpr (mt hasToken_chunked_iff.mp unlisted)

end Headers

/-- The fields of the codings have no part in the length. -/
theorem Framing.contentLength_erase_codings (headers : Headers) :
    contentLength (headers.erase "Transfer-Encoding") = contentLength headers := by
  rw [contentLength, contentLength, Headers.values_erase_of_ne (by decide)]

namespace Request

/-- The codings decide whether a body is read in chunks. Where chunked is one of them, and
so where it is the last of them, there is a chunked body or no request, whatever lengths are
given. Where it is none of them, the request is read as if it had no codings. -/
theorem codings_decide_body :
    (∀ (buffer : Bytes) (request : Request) (taken : Nat),
      parse buffer = .ok (request, taken) →
        ∃ head rest length, Text.cut? separator buffer = some (head, rest) ∧
          taken = head.length + 4 + length ∧ buffer.drop taken = rest.drop length ∧
          (request.headers.ListsChunked → Chunked.decode rest = .ok (request.body, length)) ∧
          (¬ request.headers.ListsChunked → Framing.contentLength request.headers = .ok length ∧
            length ≤ rest.length ∧ request.body = rest.take length)) ∧
    (∀ headers : Headers, headers.EndsChunked → headers.ListsChunked) ∧
    (∀ (buffer head rest : Bytes) (fields : RequestHead),
      Text.cut? separator buffer = some (head, rest) → head.length ≤ headLimit →
        RequestHead.parse head = .ok fields →
          (fields.headers.ListsChunked →
            parse buffer = (Chunked.decode rest).map fun (body, length) =>
              (fields.toRequest body, head.length + 4 + length)) ∧
          (¬ fields.headers.ListsChunked →
            parse buffer =
              (Framing.contentLength (fields.headers.erase "Transfer-Encoding")).bind
                fun length =>
                  if rest.length < length then .error .incomplete
                  else .ok (fields.toRequest (rest.take length), head.length + 4 + length))) := by
  refine ⟨?_, ?_, ?_⟩
  · intro buffer request taken parsed
    obtain ⟨head, rest, length, found, rfl, chunked, sized⟩ := exists_body_of_parse parsed
    exact ⟨head, rest, length, found, rfl, drop_behind_head found length,
      fun listed => chunked (Headers.hasToken_chunked_iff.mpr listed),
      fun unlisted => sized (Headers.hasToken_chunked_eq_false unlisted)⟩
  · intro headers ends
    exact ends.listsChunked
  · intro buffer head rest fields found within read
    constructor
    · intro listed
      exact parse_of_chunked found within read (Headers.hasToken_chunked_iff.mpr listed)
    · intro unlisted
      rw [Framing.contentLength_erase_codings]
      exact parse_of_unchunked found within read (Headers.hasToken_chunked_eq_false unlisted)

/-- A request whose only coding is not chunked, and another one behind it. -/
def gzipThenGet : Bytes :=
  Utf8.encode "POST / HTTP/1.1\r\nTransfer-Encoding: gzip\r\n\r\nGET /admin HTTP/1.1\r\n\r\n"

def gzipPost : Request where
  method := .post
  target := "/"
  version := "HTTP/1.1"
  headers := ⟨[⟨"Transfer-Encoding", "gzip"⟩]⟩
  body := []

def adminGet : Request where
  method := .get
  target := "/admin"
  version := "HTTP/1.1"
  headers := .empty
  body := []

theorem parse_gzipThenGet : parse gzipThenGet = .ok (gzipPost, 44) := by rfl

/-- A head whose chunked coding is not the last, and which gives a length besides. -/
def gzippedHead : Bytes :=
  Utf8.encode "POST / HTTP/1.1\r\nTransfer-Encoding: Chunked , gzip\r\nContent-Length: 1"

def gzippedFields : RequestHead where
  method := .post
  target := "/"
  version := "HTTP/1.1"
  headers := ⟨[⟨"Transfer-Encoding", "Chunked , gzip"⟩, ⟨"Content-Length", "1"⟩]⟩

theorem parse_gzippedHead : RequestHead.parse gzippedHead = .ok gzippedFields := by rfl

theorem cut?_gzippedHead :
    Text.cut? separator (gzippedHead ++ separator ++ deceptiveLayout.wire) =
      some (gzippedHead, deceptiveLayout.wire) := by
  decide +kernel

/-- Requests are read whose last coding is not chunked: one without a body, so that what
follows it is the next request, and one in chunks. -/
theorem last_coding_ignored :
    (gzipPost.headers.contains "Transfer-Encoding" = true ∧ ¬ gzipPost.headers.EndsChunked ∧
      Takes gzipThenGet [(gzipPost, 44), (adminGet, 23)] []) ∧
    (gzippedFields.headers.contains "Transfer-Encoding" = true ∧
      ¬ gzippedFields.headers.EndsChunked ∧
      parse (gzippedHead ++ separator ++ deceptiveLayout.wire) =
        .ok (gzippedFields.toRequest (Utf8.encode "0\r\n\r\n!"),
          gzippedHead.length + 4 + deceptiveLayout.wire.length)) := by
  refine ⟨⟨by decide, by decide, ?_⟩, by decide, by decide, ?_⟩
  · have next : parse (gzipThenGet.drop 44) = .ok (adminGet, 23) := by rfl
    exact .cons parse_gzipThenGet (.cons next .nil)
  · rw [← payload_deceptiveLayout]
    exact (parse_eq_ok_iff_layout cut?_gzippedHead (by decide) parse_gzippedHead (by decide)
      length_deceptiveLayout).mpr
      ⟨deceptiveLayout, [], wellFormed_deceptiveLayout, (List.append_nil _).symm, rfl, rfl⟩

theorem codings_decide_body_of_gzip :
    parse gzipThenGet = .ok (gzipPost, 44) ∧
      (∃ head rest length, Text.cut? separator gzipThenGet = some (head, rest) ∧
        gzipThenGet.drop 44 = rest.drop length ∧
        Framing.contentLength gzipPost.headers = .ok length ∧ gzipPost.body = rest.take length) ∧
      gzippedFields.headers.ListsChunked ∧
      parse (gzippedHead ++ separator ++ deceptiveLayout.wire) =
        (Chunked.decode deceptiveLayout.wire).map fun (body, length) =>
          (gzippedFields.toRequest body, gzippedHead.length + 4 + length) := by
  obtain ⟨head, rest, length, found, _, behind, _, unlisted⟩ :=
    codings_decide_body.1 _ _ _ parse_gzipThenGet
  obtain ⟨given, _, body⟩ := unlisted (by decide)
  have listed : gzippedFields.headers.ListsChunked := by decide
  have chunked := (codings_decide_body.2.2 _ _ _ _ cut?_gzippedHead (by decide)
    parse_gzippedHead).1 listed
  exact ⟨parse_gzipThenGet, ⟨head, rest, length, found, behind, given, body⟩, listed, chunked⟩

end Request

end IdentityRelay.Http
