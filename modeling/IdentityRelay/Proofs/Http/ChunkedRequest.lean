import IdentityRelay.Proofs.Http.ChunkedWire
import IdentityRelay.Proofs.Http.Parse
import IdentityRelay.Proofs.Http.RequestWire

/-! Requests with a chunked body: the head alone gives the fields, the chunks alone give
the body. Extensions and trailers take up bytes and leave no other trace. -/
namespace IdentityRelay.Http.Request
open Chunked
variable {buffer head rest : Bytes} {fields : RequestHead} {request : Request} {taken : Nat}

/-- A request whose head lists the chunked coding is read exactly when a body follows that
is laid out by the format. -/
theorem parse_eq_ok_iff_layout (found : Text.cut? separator buffer = some (head, rest))
    (within : head.length ≤ headLimit) (read : RequestHead.parse head = .ok fields)
    (listed : fields.headers.hasToken "Transfer-Encoding" "chunked" = true)
    (fits : rest.length < Text.wordLimit) :
    parse buffer = .ok (request, taken) ↔
      ∃ (layout : Layout) (behind : Bytes), layout.WellFormed ∧ rest = layout.wire ++ behind ∧
        request = fields.toRequest layout.payload ∧
        taken = head.length + 4 + layout.wire.length := by
  rw [parse_of_chunked found within read listed, map_eq_ok_iff]
  constructor
  · rintro ⟨⟨payload, length⟩, decoded, same⟩
    obtain ⟨layout, behind, wellFormed, whole, rfl, rfl⟩ := (decode_eq_ok_iff fits).mp decoded
    cases same
    exact ⟨layout, behind, wellFormed, whole, rfl, rfl⟩
  · rintro ⟨layout, behind, wellFormed, whole, rfl, rfl⟩
    exact ⟨(layout.payload, layout.wire.length),
      (decode_eq_ok_iff fits).mpr ⟨layout, behind, wellFormed, whole, rfl, rfl⟩, rfl⟩

theorem exists_layout_of_parse (parsed : parse buffer = .ok (request, taken))
    (chunked : request.isChunked = true) :
    ∃ (head : Bytes) (layout : Layout) (behind : Bytes),
      Text.cut? separator buffer = some (head, layout.wire ++ behind) ∧ layout.WellFormed ∧
        request.body = layout.payload ∧ taken = head.length + 4 + layout.wire.length := by
  obtain ⟨head, rest, length, found, rfl, decoded, _⟩ := exists_body_of_parse parsed
  obtain ⟨layout, behind, wellFormed, rfl, body, rfl⟩ := exists_layout (decoded chunked)
  exact ⟨head, layout, behind, found, wellFormed, body, rfl⟩

/-- The decoder takes exactly the chunked format: each way of cutting a body into chunks,
with any extensions and trailers, is undone, and nothing else is decoded. The fields of the
request are those of its head, whatever the trailers are. A machine word counts the bytes
of every body that memory can hold. -/
theorem chunked_format :
    (∀ (buffer payload : Bytes) (taken : Nat), buffer.length < Text.wordLimit →
      (decode buffer = .ok (payload, taken) ↔
        ∃ (layout : Layout) (behind : Bytes), layout.WellFormed ∧ buffer = layout.wire ++ behind ∧
          payload = layout.payload ∧ taken = layout.wire.length)) ∧
    (∀ (pieces : List (Bytes × Option String)) (ending : Option String) (trailers : List Bytes)
        (rest : Bytes),
      (∀ piece ∈ pieces, piece.1 ≠ [] ∧ IsExtension piece.2) → IsExtension ending →
        (∀ line ∈ trailers, IsTrailer line) →
        (Layout.ofPieces pieces ending trailers).wire.length < Text.wordLimit →
          decode ((Layout.ofPieces pieces ending trailers).wire ++ rest) =
            .ok ((pieces.map Prod.fst).flatten,
              (Layout.ofPieces pieces ending trailers).wire.length)) ∧
    ∀ (buffer head rest : Bytes) (fields : RequestHead) (request : Request) (taken : Nat),
      Text.cut? separator buffer = some (head, rest) → head.length ≤ headLimit →
        RequestHead.parse head = .ok fields →
        fields.headers.hasToken "Transfer-Encoding" "chunked" = true →
        rest.length < Text.wordLimit →
          (parse buffer = .ok (request, taken) ↔
            ∃ (layout : Layout) (behind : Bytes), layout.WellFormed ∧ rest = layout.wire ++ behind ∧
              request = fields.toRequest layout.payload ∧
              taken = head.length + 4 + layout.wire.length) := by
  refine ⟨?_, ?_, ?_⟩
  · intro buffer payload taken fits
    exact decode_eq_ok_iff fits
  · intro pieces ending trailers rest isPiece isEnding isTrailer fits
    have wellFormed := Layout.wellFormed_ofPieces isPiece isEnding isTrailer fits
    rw [← Layout.payload_ofPieces pieces ending trailers]
    exact decodeFrom_wire wellFormed (by omega) rest
  · intro buffer head rest fields request taken found within read listed fits
    exact parse_eq_ok_iff_layout found within read listed fits

/-- A body in two pieces. The first holds what could be taken for the end of a body, and
its size line has extensions. -/
def deceptivePieces : List (Bytes × Option String) :=
  [(Utf8.encode "0\r\n\r\n", some "name=\"a;b\""), (Utf8.encode "!", none)]

def deceptiveLayout : Layout :=
  .ofPieces deceptivePieces none [Utf8.encode "Transfer-Encoding: gzip"]

theorem isPiece_deceptivePieces :
    ∀ piece ∈ deceptivePieces, piece.1 ≠ [] ∧ IsExtension piece.2 := by
  intro piece member
  rcases List.mem_cons.mp member with rfl | last
  · exact ⟨by decide, by rintro _ ⟨rfl⟩; decide⟩
  · obtain rfl := List.mem_singleton.mp last
    exact ⟨by decide, nofun⟩

theorem isTrailer_gzip : ∀ line ∈ [Utf8.encode "Transfer-Encoding: gzip"], IsTrailer line :=
  List.forall_mem_singleton.mpr ⟨by decide, by decide⟩

theorem length_deceptiveLayout : deceptiveLayout.wire.length < Text.wordLimit := by
  decide +kernel

theorem wellFormed_deceptiveLayout : deceptiveLayout.WellFormed :=
  Layout.wellFormed_ofPieces isPiece_deceptivePieces nofun isTrailer_gzip
    length_deceptiveLayout

theorem payload_deceptiveLayout : deceptiveLayout.payload = Utf8.encode "0\r\n\r\n!" := by
  rw [deceptiveLayout, Layout.payload_ofPieces]
  decide

def chunkedHead : Bytes := Utf8.encode "POST / HTTP/1.1\r\nTransfer-Encoding: chunked"

def chunkedFields : RequestHead where
  method := .post
  target := "/"
  version := "HTTP/1.1"
  headers := ⟨[⟨"Transfer-Encoding", "chunked"⟩]⟩

theorem parse_chunkedHead : RequestHead.parse chunkedHead = .ok chunkedFields := by rfl

theorem chunked_format_of_deceptiveLayout :
    decode (deceptiveLayout.wire ++ separator) =
        .ok (Utf8.encode "0\r\n\r\n!", deceptiveLayout.wire.length) ∧
      (∃ (layout : Layout) (behind : Bytes), layout.WellFormed ∧
        deceptiveLayout.wire ++ separator = layout.wire ++ behind ∧
        Utf8.encode "0\r\n\r\n!" = layout.payload ∧
        deceptiveLayout.wire.length = layout.wire.length) ∧
      parse (chunkedHead ++ separator ++ deceptiveLayout.wire) =
        .ok (chunkedFields.toRequest (Utf8.encode "0\r\n\r\n!"),
          chunkedHead.length + 4 + deceptiveLayout.wire.length) := by
  have fits : (deceptiveLayout.wire ++ separator).length < Text.wordLimit := by decide +kernel
  have decoded := chunked_format.2.1 deceptivePieces none _ separator isPiece_deceptivePieces nofun
    isTrailer_gzip length_deceptiveLayout
  rw [← Layout.payload_ofPieces _ none [Utf8.encode "Transfer-Encoding: gzip"], ← deceptiveLayout,
    payload_deceptiveLayout] at decoded
  have laidOut := (chunked_format.1 _ _ _ fits).mp decoded
  have found : Text.cut? separator (chunkedHead ++ separator ++ deceptiveLayout.wire) =
      some (chunkedHead, deceptiveLayout.wire) := by decide +kernel
  have parsed := (chunked_format.2.2 _ _ _ _ (chunkedFields.toRequest deceptiveLayout.payload) _
    found (by decide) parse_chunkedHead (by decide) length_deceptiveLayout).mpr
    ⟨deceptiveLayout, [], wellFormed_deceptiveLayout, (List.append_nil _).symm, rfl, rfl⟩
  rw [payload_deceptiveLayout] at parsed
  exact ⟨decoded, laidOut, parsed⟩

end IdentityRelay.Http.Request
