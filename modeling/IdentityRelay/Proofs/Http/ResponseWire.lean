import IdentityRelay.Proofs.Http.Client
import IdentityRelay.Proofs.Http.FieldLine
import IdentityRelay.Proofs.Http.Headers
import IdentityRelay.Proofs.Outcome
import IdentityRelay.Proofs.Text.Digits

/-! Responses on the wire. A response that is delimited, so that its length can be
told from its head, is read back by a client together with what follows it. -/
namespace IdentityRelay.Http

/-- A field whose name is a token, and whose value has one byte for each character
and of the control characters below the space only the tab. -/
structure Header.Printable (header : Header) : Prop where
  token : Text.isToken header.name = true
  printable : ∀ c ∈ header.value.toList, c = '\t' ∨ 0x20 ≤ c.toNat ∧ c.toNat < 0x100

namespace Header
variable {header : Header}

theorem Printable.latin1 (printable : header.Printable) :
    ∀ c ∈ header.value.toList, c.toNat < 256 := by
  intro c member
  rcases printable.printable c member with rfl | ⟨_, small⟩
  · decide
  · exact small

private theorem Printable.not_mem (printable : header.Printable) {c : Char}
    (control : c ≠ '\t' ∧ c.toNat < 0x20) : c ∉ header.value.toList := by
  intro member
  rcases printable.printable c member with same | ⟨large, _⟩
  · exact control.1 same
  · omega

theorem Printable.isLine_line (printable : header.Printable) : IsLine header.line := by
  apply Header.isLine_line printable.token printable.latin1 (printable.not_mem (by decide))
  intro last
  exact printable.not_mem (by decide) (List.mem_of_getLast? last)

def stripped (header : Header) : Header :=
  ⟨header.name, Latin1.decode (Text.strip Text.isAsciiSpace header.latin1Bytes)⟩

end Header

theorem isAlphanum_of_mem_toString {n : Nat} {c : Char} (member : c ∈ (toString n).toList) :
    c.isAlphanum = true := by
  apply @Text.isAlphanum_of_mem_toDigits 10 n (by decide) (by decide)
  simpa using member

namespace Client

theorem decimal?_toString (n : Nat) : decimal? (toString n) = some n := by
  obtain ⟨digits, read, value⟩ := Text.mapM_digit?_toDigits (by decide : 1 < 10) (by decide) n
  simp [decimal?, read, value]

theorem headerOfLine?_line {header : Header} (printable : header.Printable) :
    headerOfLine? header.line = some header.stripped := by
  rw [headerOfLine?, Header.cut?_line printable.token printable.latin1, Option.map_some]
  simp only [Header.decode_nameBytes printable.token]
  rfl

end Client

namespace Response
variable {response : Response}

private theorem noLineEnd_of_mem_reason {status : Status} {c : Char}
    (member : c ∈ status.reason.toList) : c ≠ '\n' ∧ c ≠ '\r' := by
  have plain : ∀ c ∈ status.reason.toList, c ≠ '\n' ∧ c ≠ '\r' := by
    unfold Status.reason
    split <;> exact Text.forall_mem_of_all (by decide)
  exact plain c member

private theorem noLineEnd_of_mem_statusText {status : Status} {c : Char}
    (member : c ∈ ("HTTP/1.1 " ++ toString status.code ++ " " ++ status.reason).toList) :
    c ≠ '\n' ∧ c ≠ '\r' := by
  rw [String.toList_append, String.toList_append, String.toList_append] at member
  simp only [List.mem_append] at member
  rcases member with ((version | digit) | space) | inReason
  · have plain : ∀ c ∈ "HTTP/1.1 ".toList, c ≠ '\n' ∧ c ≠ '\r' :=
      Text.forall_mem_of_all (by decide)
    exact plain c version
  · have plain := isAlphanum_of_mem_toString digit
    constructor <;> rintro rfl <;> exact absurd plain (by decide)
  · have plain : ∀ c ∈ " ".toList, c ≠ '\n' ∧ c ≠ '\r' := Text.forall_mem_of_all (by decide)
    exact plain c space
  · exact noLineEnd_of_mem_reason inReason

theorem isLine_statusLine (status : Status) : IsLine (statusLine status) := by
  constructor
  · intro member
    have inText := Utf8.ofUInt8_mem_of_mem_encode member (by decide)
    exact (noLineEnd_of_mem_statusText inText).1 rfl
  · intro last
    have inText := Utf8.ofUInt8_mem_of_mem_encode (List.mem_of_getLast? last) (by decide)
    exact (noLineEnd_of_mem_statusText inText).2 rfl

theorem codeOfLine?_statusLine (status : Status) :
    Client.codeOfLine? (statusLine status) = some status.code := by
  have ascii : ∀ c ∈ (toString status.code).toList, c.toNat < 128 :=
    fun c member => Text.toNat_lt_of_isAlphanum (isAlphanum_of_mem_toString member)
  have space : Utf8.encode " " = [32] := by decide
  have version : Utf8.encode "HTTP/1.1 " = Utf8.encode "HTTP/1.1" ++ [32] := by decide
  have line : statusLine status = Utf8.encode "HTTP/1.1" ++
      32 :: (Utf8.encode (toString status.code) ++ 32 :: Utf8.encode status.reason) := by
    simp only [statusLine, Utf8.encode_append, space, version, List.append_assoc]
    rfl
  have noSpace : 32 ∉ Utf8.encode (toString status.code) := by
    intro member
    have digit := Utf8.ofUInt8_mem_of_mem_encode member (by decide)
    exact absurd (isAlphanum_of_mem_toString digit) (by decide)
  have code : Latin1.decode (Utf8.encode (toString status.code)) = toString status.code := by
    rw [Utf8.encode_of_ascii ascii, Latin1.decode_map_toUInt8]
    intro c member
    have := ascii c member
    omega
  rw [Client.codeOfLine?, line, Text.cut?_singleton (by decide)]
  simp only [Option.bind_some, Text.cut?_singleton noSpace, ↓reduceIte, code,
    Client.decimal?_toString]

def lines (response : Response) : Bytes :=
  headOfLines (statusLine response.status) (response.headers.toList.map Header.line)

theorem wireHead_eq (response : Response) : response.wireHead = response.lines ++ separator := by
  have whole := flatMap_append_crlf (statusLine response.status)
    (response.headers.toList.map Header.line)
  rw [List.flatMap_cons, List.flatMap_map] at whole
  have fields : response.headers.toList.flatMap Header.wire =
      response.headers.toList.flatMap fun header => header.line ++ crlf := rfl
  rw [wireHead, fields, whole, separator, ← List.append_assoc]
  rfl

section Fits
variable (fits : ∀ header ∈ response.headers.toList, IsLine header.line ∧ header.line ≠ [])
include fits

theorem lines_lines : RequestHead.lines response.lines =
    statusLine response.status :: response.headers.toList.map Header.line := by
  apply lines_headOfLines (isLine_statusLine _)
  intro line member
  obtain ⟨header, stored, rfl⟩ := List.mem_map.mp member
  exact (fits header stored).1

/-- A message is cut behind its head, whatever the bytes of its body are. -/
theorem cut?_wireHead (rest : Bytes) :
    Text.cut? separator (response.wireHead ++ rest) = some (response.lines, rest) := by
  rw [wireHead_eq]
  apply cut?_headOfLines (isLine_statusLine _).noLineFeed
  intro line member
  obtain ⟨header, stored, rfl⟩ := List.mem_map.mp member
  obtain ⟨isLine, nonempty⟩ := fits header stored
  exact ⟨isLine.noLineFeed, nonempty⟩

end Fits

theorem wireOfHead_eq (response : Response) : response.wireOfHead = response.wireHead := by
  unfold wireOfHead wire
  split <;> simp

/-- A response that a client can tell from what follows it. One that may have a body
gives its length once, unless it answers a request for the head alone. -/
structure Delimited (response : Response) (headOnly : Bool) : Prop where
  printable : ∀ header ∈ response.headers.toList, header.Printable
  unchunked : response.headers.values "Transfer-Encoding" = []
  length : headOnly = false → response.status.allowsBody = true →
    response.headers.values "Content-Length" = [toString response.body.length]

theorem Delimited.fits {headOnly : Bool} (delimited : response.Delimited headOnly) :
    ∀ header ∈ response.headers.toList, IsLine header.line ∧ header.line ≠ [] := by
  intro header stored
  have printable := delimited.printable header stored
  exact ⟨printable.isLine_line, Header.line_ne_nil printable.token printable.latin1⟩

def sendsBody (response : Response) (headOnly : Bool) : Bool :=
  !headOnly && response.status.allowsBody

def message (response : Response) (headOnly : Bool) : Message where
  code := response.status.code
  headers := ⟨response.headers.toList.map Header.stripped⟩
  body := if response.sendsBody headOnly then response.body else []

theorem values_message (response : Response) (headOnly : Bool) (name : String) :
    (response.message headOnly).headers.values name =
      (response.headers.toList.filter (Headers.isNamed name)).map (·.stripped.value) := by
  have sameName : Headers.isNamed name ∘ Header.stripped = Headers.isNamed name := rfl
  simp only [message, Headers.values, List.filter_map, sameName, List.map_map]
  rfl

theorem values_message_eq_nil {name : String} (missing : response.headers.values name = [])
    (headOnly : Bool) : (response.message headOnly).headers.values name = [] := by
  rw [Headers.values, List.map_eq_nil_iff] at missing
  rw [values_message, missing]
  rfl

private theorem stripped_toString {header : Header} {n : Nat} (isNumber : header.value = toString n) :
    header.stripped.value = toString n := by
  have plain : ∀ c ∈ header.value.toList, Text.isTokenChar c = true := by
    rw [isNumber]
    exact fun c member => Text.isTokenChar_of_isAlphanum (isAlphanum_of_mem_toString member)
  have kept : Text.strip Text.isAsciiSpace header.latin1Bytes = header.latin1Bytes := by
    apply Text.strip_eq_self_of_forall
    intro b member
    obtain ⟨c, inValue, rfl⟩ := List.mem_map.mp member
    exact (Text.byte_of_isTokenChar (plain c inValue)).1
  rw [Header.stripped, kept, ← isNumber]
  apply Latin1.decode_map_toUInt8
  intro c member
  have := Text.toNat_lt_of_isTokenChar (plain c member)
  omega

theorem values_message_length {name : String} {n : Nat}
    (given : response.headers.values name = [toString n]) (headOnly : Bool) :
    (response.message headOnly).headers.values name = [toString n] := by
  rw [Headers.values, List.map_eq_singleton_iff] at given
  obtain ⟨header, only, isNumber⟩ := given
  rw [values_message, only, List.map_singleton, stripped_toString isNumber]

theorem Delimited.contains_message {headOnly : Bool} (delimited : response.Delimited headOnly) :
    (response.message headOnly).headers.contains "Transfer-Encoding" = false :=
  Headers.contains_eq_false_iff.mpr (values_message_eq_nil delimited.unchunked headOnly)

theorem Delimited.count_message {headOnly : Bool} (delimited : response.Delimited headOnly)
    (sends : response.sendsBody headOnly = true) :
    (response.message headOnly).headers.count "Content-Length" = 1 := by
  obtain ⟨wanted, allowed⟩ : headOnly = false ∧ response.status.allowsBody = true := by
    simpa [sendsBody] using sends
  rw [← Headers.length_values, values_message_length (delimited.length wanted allowed)]
  rfl

theorem readHead?_lines {headOnly : Bool} (delimited : response.Delimited headOnly) :
    Client.readHead? response.lines =
      some (response.status.code, (response.message headOnly).headers) := by
  have read : (response.headers.toList.map Header.line).mapM Client.headerOfLine? =
      some (response.headers.toList.map Header.stripped) := by
    rw [mapM_eq_some_iff, List.map_map, List.map_map]
    apply List.map_congr_left
    intro header stored
    exact Client.headerOfLine?_line (delimited.printable header stored)
  rw [Client.readHead?, lines_lines delimited.fits]
  simp only [codeOfLine?_statusLine, read, Option.bind_some, Option.map_some]
  rfl

theorem bodyLength?_message {headOnly : Bool} (delimited : response.Delimited headOnly) :
    Client.bodyLength? headOnly response.status.code (response.message headOnly).headers =
      some (response.message headOnly).body.length := by
  have same : response.status.allowsBody = !Client.isBodiless response.status.code := rfl
  cases sends : response.sendsBody headOnly with
  | false =>
    have bodiless : (headOnly || Client.isBodiless response.status.code) = true := by
      rw [sendsBody, same, ← Bool.not_or, Bool.not_eq_false'] at sends
      exact sends
    simp [Client.bodyLength?, bodiless, message, sends]
  | true =>
    obtain ⟨wanted, allowed⟩ : headOnly = false ∧ response.status.allowsBody = true := by
      simpa [sendsBody] using sends
    have expected : (headOnly || Client.isBodiless response.status.code) = false := by
      rw [sendsBody, same, ← Bool.not_or, Bool.not_eq_true'] at sends
      exact sends
    have given := values_message_length (delimited.length wanted allowed) headOnly
    have body : (response.message headOnly).body = response.body := if_pos sends
    rw [Client.bodyLength?, expected, given, body]
    exact Client.decimal?_toString _

/-- A delimited response is read back, and nothing that follows it. -/
theorem read?_message {headOnly : Bool} (delimited : response.Delimited headOnly) (rest : Bytes) :
    Client.read? headOnly (response.wireHead ++ (response.message headOnly).body ++ rest) =
      some (response.message headOnly, rest) := by
  have found : Text.cut? separator
      (response.wireHead ++ (response.message headOnly).body ++ rest) =
        some (response.lines, (response.message headOnly).body ++ rest) := by
    rw [List.append_assoc, cut?_wireHead delimited.fits]
  simp only [Client.read?, found, Option.bind_some, readHead?_lines delimited,
    bodyLength?_message delimited]
  rw [if_neg (by simp)]
  simp [message]

end Response

end IdentityRelay.Http
