import IdentityRelay.Proofs.Http.Chunked
import IdentityRelay.Proofs.Text.Encoding

/-! The format of a chunked body as a grammar, and that the decoder takes exactly what
the grammar describes. Only the sizes say where a chunk ends: its data may hold line
ends, size lines and even a whole chunked body. -/
namespace IdentityRelay.Http.Chunked
variable {offset size taken : Nat} {rest line after : Bytes}

/-- A line that can be ended by CRLF: there is none within it. -/
def Unbroken (line : Bytes) : Prop := ¬ crlf <:+: line

instance : Decidable (Unbroken line) := inferInstanceAs (Decidable ¬ crlf <:+: line)

theorem unbroken_nil : Unbroken [] := by decide

theorem length_line (line more : Bytes) :
    (line ++ crlf ++ more).length = line.length + 2 + more.length := by
  simp only [List.length_append]
  rfl

/-- A CRLF ends the line before it exactly when that line holds none. A carriage return
at the end of the line does no harm, since CRLF does not begin with a line feed. -/
theorem cut?_crlf_eq_some_iff :
    Text.cut? crlf rest = some (line, after) ↔ rest = line ++ crlf ++ after ∧ Unbroken line := by
  constructor
  · intro found
    exact ⟨Text.append_of_cut? found, Text.not_infix_of_cut? (by decide) found⟩
  · rintro ⟨rfl, unbroken⟩
    obtain ⟨front, behind, found, bound⟩ := Text.cut?_of_append crlf line after
    have whole := Text.append_of_cut? found
    rw [List.append_assoc, List.append_assoc] at whole
    -- The first CRLF is the one behind the line or begins within the line.
    obtain ⟨middle, rfl⟩ : front <+: line :=
      List.prefix_of_prefix_length_le ⟨_, whole.symm⟩ (List.prefix_append _ _) bound
    rw [List.append_assoc, List.append_cancel_left_eq] at whole
    match middle with
    | [] =>
      rw [List.nil_append, List.append_cancel_left_eq] at whole
      rw [found, List.append_nil, whole]
    | [_] => simp [crlf] at whole
    | first :: second :: others =>
      obtain ⟨rfl, rfl, _⟩ : first = 13 ∧ second = 10 ∧ _ := by simpa [crlf] using whole
      exact absurd ⟨front, others, by simp [crlf]⟩ unbroken

def sizeField (text : String) : List Char := text.toList.takeWhile (· != ';')

/-- A line that gives the size of a chunk: a text in UTF-8 with a hexadecimal number before
its first semicolon, blanks around that number aside. -/
structure IsSizeLine (line : Bytes) (size : Nat) : Prop where
  unbroken : Unbroken line
  reads : ∃ text, line = Utf8.encode text ∧
    Text.readSize? 16 (Text.trim (sizeField text)) = some size

theorem isSizeLine_iff :
    IsSizeLine line size ↔ Unbroken line ∧ sizeOfLine? line = some size := by
  simp only [sizeOfLine?, Option.bind_eq_bind, Option.bind_eq_some_iff]
  constructor
  · rintro ⟨unbroken, text, rfl, read⟩
    exact ⟨unbroken, text, Utf8.decode?_encode text, read⟩
  · rintro ⟨unbroken, text, decoded, read⟩
    exact ⟨unbroken, text, (Utf8.encode_of_decode? decoded).symm, read⟩

/-- A chunk: its size line, with whatever extensions it has, and its data. -/
structure Chunk where
  line : Bytes
  data : Bytes
  deriving DecidableEq, Repr

namespace Chunk

def wire (chunk : Chunk) : Bytes := chunk.line ++ crlf ++ (chunk.data ++ crlf)

structure WellFormed (chunk : Chunk) : Prop where
  sized : IsSizeLine chunk.line chunk.data.length
  nonempty : chunk.data ≠ []

theorem length_wire (chunk : Chunk) :
    chunk.wire.length = chunk.line.length + 2 + chunk.data.length + 2 := by
  rw [wire, length_line, List.length_append]
  rfl

end Chunk

/-- A line of the trailer section, which an empty line ends. -/
structure IsTrailer (line : Bytes) : Prop where
  nonempty : line ≠ []
  unbroken : Unbroken line

def trailerSection (trailers : List Bytes) : Bytes := trailers.flatMap (· ++ crlf) ++ crlf

theorem trailerSection_cons (line : Bytes) (trailers : List Bytes) :
    trailerSection (line :: trailers) = line ++ crlf ++ trailerSection trailers := by
  simp [trailerSection]

/-- A chunked body in its parts: chunks, the line of the last chunk, trailer lines. -/
structure Layout where
  chunks : List Chunk
  last : Bytes
  trailers : List Bytes
  deriving DecidableEq, Repr

namespace Layout

def wire (layout : Layout) : Bytes :=
  layout.chunks.flatMap Chunk.wire ++ (layout.last ++ crlf ++ trailerSection layout.trailers)

def payload (layout : Layout) : Bytes := layout.chunks.flatMap Chunk.data

structure WellFormed (layout : Layout) : Prop where
  chunks : ∀ chunk ∈ layout.chunks, chunk.WellFormed
  last : IsSizeLine layout.last 0
  trailers : ∀ line ∈ layout.trailers, IsTrailer line

def cons (chunk : Chunk) (layout : Layout) : Layout :=
  { layout with chunks := chunk :: layout.chunks }

theorem wire_cons (chunk : Chunk) (layout : Layout) :
    (cons chunk layout).wire = chunk.wire ++ layout.wire := by
  simp [cons, wire]

theorem payload_cons (chunk : Chunk) (layout : Layout) :
    (cons chunk layout).payload = chunk.data ++ layout.payload := rfl

theorem wellFormed_cons_iff {chunk : Chunk} {layout : Layout} :
    (cons chunk layout).WellFormed ↔ chunk.WellFormed ∧ layout.WellFormed := by
  constructor
  · rintro ⟨chunks, last, trailers⟩
    obtain ⟨first, others⟩ := List.forall_mem_cons.mp chunks
    exact ⟨first, others, last, trailers⟩
  · rintro ⟨first, others, last, trailers⟩
    exact ⟨List.forall_mem_cons.mpr ⟨first, others⟩, last, trailers⟩

end Layout

private theorem trailerLength_section {trailers : List Bytes}
    (each : ∀ line ∈ trailers, IsTrailer line) (rest : Bytes) :
    trailerLength (trailerSection trailers ++ rest) = .ok (trailerSection trailers).length := by
  induction trailers with
  | nil =>
    have empty : Text.cut? crlf (trailerSection [] ++ rest) = some ([], rest) :=
      cut?_crlf_eq_some_iff.mpr ⟨rfl, unbroken_nil⟩
    rw [trailerLength_of_some empty]
    rfl
  | cons line trailers ih =>
    obtain ⟨isTrailer, others⟩ := List.forall_mem_cons.mp each
    have found : Text.cut? crlf (trailerSection (line :: trailers) ++ rest) =
        some (line, trailerSection trailers ++ rest) :=
      cut?_crlf_eq_some_iff.mpr ⟨by simp [trailerSection_cons], isTrailer.unbroken⟩
    have nonempty : ¬ line.isEmpty = true := by simpa using isTrailer.nonempty
    rw [trailerLength_of_some found, if_neg nonempty, ih others, trailerSection_cons, length_line]
    rfl

private theorem exists_trailers (ended : trailerLength rest = .ok taken) :
    ∃ trailers behind, (∀ line ∈ trailers, IsTrailer line) ∧
      rest = trailerSection trailers ++ behind ∧ taken = (trailerSection trailers).length := by
  induction same : rest.length using Nat.strongRecOn generalizing rest taken with
  | ind size ih =>
    cases found : Text.cut? crlf rest with
    | none => simp [trailerLength_of_none found] at ended
    | some parts =>
      obtain ⟨line, after⟩ := parts
      obtain ⟨rfl, unbroken⟩ := cut?_crlf_eq_some_iff.mp found
      rw [trailerLength_of_some found] at ended
      split at ended
      · rename_i empty
        cases ended
        obtain rfl := List.isEmpty_iff.mp empty
        exact ⟨[], after, nofun, rfl, rfl⟩
      · rename_i nonempty
        obtain ⟨inner, endedInner, rfl⟩ := map_eq_ok_iff.mp ended
        have shorter : after.length < size := by
          rw [← same, length_line]
          omega
        obtain ⟨trailers, behind, others, rfl, rfl⟩ := ih after.length shorter endedInner rfl
        have isTrailer : IsTrailer line := ⟨by simpa using nonempty, unbroken⟩
        refine ⟨line :: trailers, behind, List.forall_mem_cons.mpr ⟨isTrailer, others⟩, ?_, ?_⟩
        · simp [trailerSection_cons]
        · rw [trailerSection_cons, length_line]

/-- The last chunk ends the body; its trailer section is taken as well. -/
private theorem decodeFrom_last {last : Bytes} {trailers : List Bytes}
    (zero : IsSizeLine last 0) (each : ∀ line ∈ trailers, IsTrailer line) (rest : Bytes) :
    decodeFrom offset (last ++ crlf ++ trailerSection trailers ++ rest) =
      .ok ([], (last ++ crlf ++ trailerSection trailers).length) := by
  obtain ⟨unbroken, read⟩ := isSizeLine_iff.mp zero
  have found : Text.cut? crlf (last ++ crlf ++ trailerSection trailers ++ rest) =
      some (last, trailerSection trailers ++ rest) :=
    cut?_crlf_eq_some_iff.mpr ⟨by simp, unbroken⟩
  rw [decodeFrom_of_some found, decodeLine, read, length_line]
  simp only [trailerLength_section each, Except.map]

private theorem decodeFrom_chunk {chunk : Chunk} (isChunk : chunk.WellFormed)
    (fits : offset + chunk.wire.length < Text.wordLimit) (rest : Bytes) :
    decodeFrom offset (chunk.wire ++ rest) =
      (decodeFrom (offset + chunk.wire.length) rest).map fun (payload, taken) =>
        (chunk.data ++ payload, chunk.wire.length + taken) := by
  obtain ⟨unbroken, read⟩ := isSizeLine_iff.mp isChunk.sized
  have found : Text.cut? crlf (chunk.wire ++ rest) =
      some (chunk.line, chunk.data ++ (crlf ++ rest)) :=
    cut?_crlf_eq_some_iff.mpr ⟨by simp [Chunk.wire], unbroken⟩
  have ends : chunkEnd ((chunk.data ++ (crlf ++ rest)).drop chunk.data.length) = .ok rest := by
    rw [List.drop_left]
    rfl
  have behind : offset + chunk.wire.length =
      offset + chunk.line.length + 2 + chunk.data.length + 2 := by
    rw [chunk.length_wire]
    omega
  rw [behind] at fits ⊢
  rw [decodeFrom_of_some found,
    decodeLine_of_chunk read (List.length_pos_iff.mpr isChunk.nonempty) fits ends, List.take_left,
    chunk.length_wire]

/-- Whole chunks in front are decoded to their data, whatever becomes of the bytes behind. -/
theorem decodeFrom_chunks {chunks : List Chunk} (each : ∀ chunk ∈ chunks, chunk.WellFormed)
    (fits : offset + (chunks.flatMap Chunk.wire).length < Text.wordLimit) (rest : Bytes) :
    decodeFrom offset (chunks.flatMap Chunk.wire ++ rest) =
      (decodeFrom (offset + (chunks.flatMap Chunk.wire).length) rest).map fun (payload, taken) =>
        (chunks.flatMap Chunk.data ++ payload, (chunks.flatMap Chunk.wire).length + taken) := by
  induction chunks generalizing offset with
  | nil => cases same : decodeFrom offset rest <;> simp [same, Except.map]
  | cons chunk chunks ih =>
    obtain ⟨isChunk, others⟩ := List.forall_mem_cons.mp each
    simp only [List.flatMap_cons, List.length_append, List.append_assoc] at fits ⊢
    rw [decodeFrom_chunk isChunk (by omega), ih others (by omega), ← Nat.add_assoc]
    cases decodeFrom _ rest with
    | error => rfl
    | ok => simp only [Except.map, Nat.add_assoc]

/-- A body that is laid out by the format is decoded to its payload, whatever follows. -/
theorem decodeFrom_wire {layout : Layout} (wellFormed : layout.WellFormed)
    (fits : offset + layout.wire.length < Text.wordLimit) (rest : Bytes) :
    decodeFrom offset (layout.wire ++ rest) = .ok (layout.payload, layout.wire.length) := by
  rw [Layout.wire, List.length_append] at fits
  rw [Layout.wire, List.append_assoc, decodeFrom_chunks wellFormed.chunks (by omega),
    decodeFrom_last wellFormed.last wellFormed.trailers]
  simp only [Except.map, List.append_nil, List.length_append]
  rfl

private theorem eq_of_ends {next : Bytes} (ends : chunkEnd (after.drop size) = .ok next) :
    ∃ data, data.length = size ∧ after = data ++ (crlf ++ next) := by
  have fits : size ≤ after.length := fits_of_chunkEnd (by rw [ends]; exact nofun)
  refine ⟨after.take size, List.length_take_of_le fits, ?_⟩
  rw [← eq_of_chunkEnd ends, List.take_append_drop]

/-- Whatever is decoded was laid out by the format. -/
theorem exists_layout {payload : Bytes} (decoded : decodeFrom offset rest = .ok (payload, taken)) :
    ∃ (layout : Layout) (behind : Bytes), layout.WellFormed ∧ rest = layout.wire ++ behind ∧
      payload = layout.payload ∧ taken = layout.wire.length := by
  have went := decodes offset rest
  rw [decoded] at went
  generalize result : Except.ok (payload, taken) = outcome at went
  clear decoded
  induction went generalizing payload taken with
  | @last _ _ line after found zero =>
    obtain ⟨rfl, unbroken⟩ := cut?_crlf_eq_some_iff.mp found
    obtain ⟨inner, ended, sum⟩ := map_eq_ok_iff.mp result.symm
    obtain ⟨trailers, behind, each, rfl, rfl⟩ := exists_trailers ended
    cases sum
    have isLast : IsSizeLine line 0 := isSizeLine_iff.mpr ⟨unbroken, zero⟩
    refine ⟨⟨[], line, trailers⟩, behind, ⟨nofun, isLast, each⟩, ?_, rfl, ?_⟩
    · simp [Layout.wire]
    · exact (length_line _ _).symm
  | @chunk _ size _ line after next outcome found read positive small ends inner ih =>
    obtain ⟨rfl, unbroken⟩ := cut?_crlf_eq_some_iff.mp found
    obtain ⟨data, rfl, rfl⟩ := eq_of_ends ends
    obtain ⟨⟨_, _⟩, rfl, sum⟩ := map_eq_ok_iff.mp result.symm
    obtain ⟨layout, behind, others, rfl, rfl, rfl⟩ := ih rfl
    cases sum
    have isChunk : Chunk.WellFormed ⟨line, data⟩ :=
      ⟨isSizeLine_iff.mpr ⟨unbroken, read⟩, List.length_pos_iff.mp positive⟩
    refine ⟨layout.cons ⟨line, data⟩, behind, Layout.wellFormed_cons_iff.mpr ⟨isChunk, others⟩,
      ?_, ?_, ?_⟩
    · simp [Layout.wire_cons, Chunk.wire]
    · rw [Layout.payload_cons, List.take_left]
    · rw [Layout.wire_cons, List.length_append, Chunk.length_wire]
  | _ => cases result

/-- The decoder takes exactly what the format describes. A machine word counts the bytes
of every body that memory can hold. -/
theorem decode_eq_ok_iff {buffer payload : Bytes} (fits : buffer.length < Text.wordLimit) :
    decode buffer = .ok (payload, taken) ↔
      ∃ (layout : Layout) (behind : Bytes), layout.WellFormed ∧ buffer = layout.wire ++ behind ∧
        payload = layout.payload ∧ taken = layout.wire.length := by
  constructor
  · exact exists_layout
  · rintro ⟨layout, behind, wellFormed, rfl, rfl, rfl⟩
    rw [List.length_append] at fits
    exact decodeFrom_wire wellFormed (by omega) behind

end IdentityRelay.Http.Chunked
