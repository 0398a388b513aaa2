import IdentityRelay.Proofs.Http.ResponseWire

/-! Responses taken apart again without regard to their framing: at the empty line, then into
the lines of the head, then each field at its first colon with a space behind it. Nothing
that fits on its line is lost or added, the spaces around a value included. -/
namespace IdentityRelay.Http

/-- A field whose name is a token, and whose value has one byte for each character and none
that ends a line. -/
structure Header.OneLine (header : Header) : Prop where
  token : Text.isToken header.name = true
  latin1 : ∀ c ∈ header.value.toList, c.toNat ≤ 0xFF
  noLineEnd : ∀ c ∈ header.value.toList, c ≠ '\n' ∧ c ≠ '\r'

namespace Header
variable {header : Header}

instance (header : Header) : Decidable header.OneLine :=
  decidable_of_iff
    (Text.isToken header.name &&
      header.value.toList.all fun c => c.toNat ≤ 0xFF && (c != '\n' && c != '\r')) <| by
    simp only [Bool.and_eq_true, List.all_eq_true, decide_eq_true_eq, bne_iff_ne]
    constructor
    · rintro ⟨token, plain⟩
      exact ⟨token, fun c member => (plain c member).1, fun c member => (plain c member).2⟩
    · rintro ⟨token, latin1, noLineEnd⟩
      exact ⟨token, fun c member => ⟨latin1 c member, noLineEnd c member⟩⟩

theorem OneLine.byte (oneLine : header.OneLine) : ∀ c ∈ header.value.toList, c.toNat < 256 :=
  fun c member => Nat.lt_succ_of_le (oneLine.latin1 c member)

theorem OneLine.fits (oneLine : header.OneLine) : IsLine header.line ∧ header.line ≠ [] := by
  refine ⟨isLine_line oneLine.token oneLine.byte ?_ ?_, line_ne_nil oneLine.token oneLine.byte⟩
  · exact fun member => (oneLine.noLineEnd _ member).1 rfl
  · exact fun last => (oneLine.noLineEnd _ (List.mem_of_getLast? last)).2 rfl

theorem OneLine.cut?_line (oneLine : header.OneLine) :
    Text.cut? [58, 32] header.line = some (header.nameBytes, header.latin1Bytes) := by
  have colon : 58 ∉ header.nameBytes := fun member => (mem_nameBytes oneLine.token member).2 rfl
  rw [line_eq oneLine.token oneLine.byte, Text.cut?_append_of_not_mem colon, Text.cut?_cons]
  simp

theorem Printable.oneLine (printable : header.Printable) : header.OneLine where
  token := printable.token
  latin1 := fun c member => Nat.le_of_lt_succ (printable.latin1 c member)
  noLineEnd := by
    intro c member
    constructor <;> rintro rfl
    · exact absurd (printable.printable _ member) (by decide)
    · exact absurd (printable.printable _ member) (by decide)

end Header

namespace Reader

/-- The field on a line, with the characters of its bytes on both sides. -/
def fieldOnLine? (line : Bytes) : Option Header :=
  (Text.cut? [58, 32] line).map fun (name, value) => ⟨Latin1.decode name, Latin1.decode value⟩

def read? (bytes : Bytes) : Option (Nat × Headers × Bytes) :=
  (Text.cut? separator bytes).bind fun (head, rest) =>
    match RequestHead.lines head with
    | [] => none
    | statusLine :: lines =>
      (Client.codeOfLine? statusLine).bind fun code =>
        (lines.mapM fieldOnLine?).map fun headers => (code, ⟨headers⟩, rest)

theorem fieldOnLine?_line {header : Header} (oneLine : header.OneLine) :
    fieldOnLine? header.line = some header := by
  have value : Latin1.decode header.latin1Bytes = header.value :=
    Latin1.decode_map_toUInt8 oneLine.byte
  rw [fieldOnLine?, oneLine.cut?_line, Option.map_some]
  simp only [Header.decode_nameBytes oneLine.token, value]

/-- A response whose fields fit on their lines is read back as it was, but for the body that
its status does not allow. -/
theorem read?_wire {response : Response}
    (oneLine : ∀ header ∈ response.headers.toList, header.OneLine) :
    read? response.wire = some (response.status.code, response.headers,
      if response.status.allowsBody then response.body else []) := by
  have fits : ∀ header ∈ response.headers.toList, IsLine header.line ∧ header.line ≠ [] :=
    fun header stored => (oneLine header stored).fits
  have read : (response.headers.toList.map Header.line).mapM fieldOnLine? =
      some response.headers.toList := by
    rw [mapM_eq_some_iff, List.map_map]
    exact List.map_congr_left fun header stored => fieldOnLine?_line (oneLine header stored)
  rw [read?, Response.wire, Response.cut?_wireHead fits]
  simp only [Response.lines_lines fits, Response.codeOfLine?_statusLine, read, Option.bind_some,
    Option.map_some]

end Reader

end IdentityRelay.Http
