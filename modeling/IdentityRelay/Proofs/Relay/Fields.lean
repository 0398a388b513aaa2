import IdentityRelay.Proofs.Http.RawFields
import IdentityRelay.Proofs.Relay.Identity

/-! The form in which a request is sent, byte for byte: what the caller sent under a name
stands in the fields of that name, and only control characters keep a request from being
put into this form. -/
namespace IdentityRelay.Relay
open IdentityRelay.Http
variable {header : Header} {headers : List Header} {outbound : Outbound} {fields : List Field}

/-- Whether no field can carry the character of this number: all controls but the tab. -/
def isControl (n : Nat) : Bool := (n < 0x20 && n != 0x09) || n == 0x7F

/-- A text that a field can carry, one byte for each character. -/
def IsSendable (text : String) : Prop :=
  ∀ c ∈ text.toList, c.toNat ≤ 0xFF ∧ isControl c.toNat = false

instance (text : String) : Decidable (IsSendable text) :=
  decidable_of_iff (text.toList.all fun c => c.toNat ≤ 0xFF && isControl c.toNat == false)
    (by simp [IsSendable])

def Field.values (fields : List Field) (name : String) : List Bytes :=
  (fields.filter fun field => Text.sameName field.name name).map Field.value

def Field.ofHeader (header : Header) : Field := ⟨Text.lower header.name, header.latin1Bytes⟩

/-- Names that differ in case alone are one name. -/
theorem Field.values_map_ofHeader (headers : Headers) (name : String) :
    Field.values (headers.toList.map Field.ofHeader) name =
      (headers.values name).map fun value => value.toList.map Char.toUInt8 := by
  have sameFields : (headers.toList.filter fun header =>
      Text.sameName (Field.ofHeader header).name name) =
        headers.toList.filter (Headers.isNamed name) := by
    apply List.filter_congr
    intro header _
    exact Text.sameName_lower header.name name
  simp only [Field.values, Headers.values, List.filter_map, Function.comp_def, sameFields,
    List.map_map]
  rfl

namespace Outbound

private theorem isValueByte_eq (b : UInt8) : isValueByte b = !isControl b.toNat := by
  rw [Bool.eq_iff_iff]
  simp [isValueByte, isControl, ← UInt8.toNat_inj, UInt8.le_iff_toNat_le]
  omega

private theorem carried_iff {text : String} {value : Bytes} :
    (Latin1.encode? text).filter (·.all isValueByte) = some value ↔
      IsSendable text ∧ value = text.toList.map Char.toUInt8 := by
  have eachByte (small : ∀ c ∈ text.toList, c.toNat < 256) :
      (text.toList.map Char.toUInt8).all isValueByte = true ↔
        ∀ c ∈ text.toList, isControl c.toNat = false := by
    rw [List.all_map, List.all_eq_true]
    apply forall_congr'
    intro c
    apply forall_congr'
    intro member
    simp [isValueByte_eq, Text.toNat_toUInt8 (small c member)]
  rw [Option.filter_eq_some_iff, Latin1.encode?_eq_some_iff]
  constructor
  · rintro ⟨⟨small, rfl⟩, plain⟩
    have noControl := (eachByte small).mp plain
    exact ⟨fun c member => ⟨Nat.le_of_lt_succ (small c member), noControl c member⟩, rfl⟩
  · rintro ⟨sendable, rfl⟩
    have small : ∀ c ∈ text.toList, c.toNat < 256 :=
      fun c member => Nat.lt_succ_of_le (sendable c member).1
    exact ⟨⟨small, rfl⟩, (eachByte small).mpr fun c member => (sendable c member).2⟩

/-- A header whose name is a token is carried as it is, or its value is at fault. -/
theorem fieldOf_cases (token : Text.isToken header.name = true) :
    IsSendable header.value ∧ fieldOf header = .ok (.ofHeader header) ∨
      ¬ IsSendable header.value ∧ fieldOf header =
        .error (.invalidRequest ("value of header `" ++ Text.lower header.name ++ "`")) := by
  simp only [fieldOf, token, Bool.not_true, Bool.false_eq_true, ↓reduceIte]
  split
  · rename_i value carried
    obtain ⟨sendable, rfl⟩ := carried_iff.mp carried
    exact .inl ⟨sendable, rfl⟩
  · rename_i refused
    refine .inr ⟨fun sendable => ?_, rfl⟩
    rw [carried_iff.mpr ⟨sendable, rfl⟩] at refused
    cases refused

theorem fields_eq_ok_iff
    (tokens : ∀ header ∈ outbound.headers.toList, Text.isToken header.name = true) :
    outbound.fields = .ok fields ↔ (∀ header ∈ outbound.headers.toList, IsSendable header.value) ∧
      fields = outbound.headers.toList.map Field.ofHeader := by
  have carried (sendable : ∀ header ∈ outbound.headers.toList, IsSendable header.value) :
      outbound.fields = .ok (outbound.headers.toList.map Field.ofHeader) := by
    refine mapM_eq_ok_iff.mpr ?_
    rw [List.map_map]
    apply List.map_congr_left
    intro header member
    rcases fieldOf_cases (tokens header member) with ⟨_, same⟩ | ⟨unsendable, _⟩
    · exact same
    · exact absurd (sendable header member) unsendable
  constructor
  · intro made
    have sendable : ∀ header ∈ outbound.headers.toList, IsSendable header.value := by
      intro header member
      obtain ⟨field, found⟩ := exists_mapM_eq_ok_iff.mp ⟨fields, made⟩ header member
      rcases fieldOf_cases (tokens header member) with ⟨sendable, _⟩ | ⟨_, refused⟩
      · exact sendable
      · cases refused.symm.trans found
    exact ⟨sendable, Except.ok.inj (made.symm.trans (carried sendable))⟩
  · rintro ⟨sendable, rfl⟩
    exact carried sendable

theorem exists_of_fields_eq_error {failure : Failure}
    (tokens : ∀ header ∈ outbound.headers.toList, Text.isToken header.name = true)
    (failed : outbound.fields = .error failure) :
    ∃ header ∈ outbound.headers.toList, ¬ IsSendable header.value ∧
      failure = .invalidRequest ("value of header `" ++ Text.lower header.name ++ "`") := by
  obtain ⟨header, member, refused⟩ := exists_of_mapM_eq_error failed
  rcases fieldOf_cases (tokens header member) with ⟨_, carried⟩ | ⟨unsendable, same⟩
  · cases carried.symm.trans refused
  · exact ⟨header, member, unsendable, (Except.error.inj (same.symm.trans refused)).symm⟩

end Outbound

section
variable {buffer : Bytes} {request : Request} {taken : Nat} {provider : Provider}

theorem isSendable_decode_iff (bytes : Bytes) :
    IsSendable (Latin1.decode bytes) ↔ ∀ b ∈ bytes, isControl b.toNat = false := by
  rw [IsSendable, Latin1.decode, String.toList_ofList]
  constructor
  · intro sendable b member
    exact (sendable (Char.ofUInt8 b) (List.mem_map_of_mem member)).2
  · intro plain c member
    obtain ⟨b, stored, rfl⟩ := List.mem_map.mp member
    exact ⟨Nat.le_of_lt_succ b.toNat_lt, plain b stored⟩

/-- Fields are named by tokens, those that were read and those that are configured. -/
theorem tokens_of_parse (parsed : Request.parse buffer = .ok (request, taken))
    (prepared : Outbound.prepare provider request = .ok outbound) :
    ∀ header ∈ outbound.headers.toList, Text.isToken header.name = true := by
  simp only [Outbound.headers_of_prepare prepared, Outbound.toList_identify, List.forall_mem_append]
  constructor
  · intro header kept
    exact ((Request.wellFormed_of_parse parsed).headers header (List.mem_filter.mp kept).1).token
  · have user : Text.isToken userIdHeader = true := by decide
    have key : Text.isToken appKeyHeader = true := by decide
    exact Outbound.forall_mem_identity_iff.mpr ⟨user, fun _ _ => key⟩

/-- The values that are sent are the caller's own, where the name is left to the caller, and
the configured ones. -/
theorem forall_sendable_iff (parsed : Request.parse buffer = .ok (request, taken))
    (prepared : Outbound.prepare provider request = .ok outbound) :
    (∀ header ∈ outbound.headers.toList, IsSendable header.value) ↔
      (∀ line ∈ fieldLines buffer, Outbound.overrides provider (nameOnLine line) = false →
        ∀ b ∈ valueOnLine line, isControl b.toNat = false) ∧
      IsSendable provider.userId ∧ ∀ appKey ∈ provider.appKey?, IsSendable appKey := by
  simp only [Outbound.headers_of_prepare prepared, Outbound.toList_identify,
    Request.headers_of_parse parsed, List.forall_mem_append, Outbound.forall_mem_identity_iff]
  refine and_congr_left fun _ => ?_
  simp [headerOnLine, isSendable_decode_iff]

theorem values_map_ofHeader_of_parse (parsed : Request.parse buffer = .ok (request, taken))
    (prepared : Outbound.prepare provider request = .ok outbound) {name : String}
    (kept : Outbound.overrides provider name = false) :
    Field.values (outbound.headers.toList.map Field.ofHeader) name =
      ((fieldLines buffer).filter fun line => Text.sameName (nameOnLine line) name).map
        valueOnLine := by
  have bytes : ∀ line, (Latin1.decode (valueOnLine line)).toList.map Char.toUInt8 =
      valueOnLine line :=
    fun line => (Latin1.encode?_eq_some_iff.mp (Latin1.encode?_decode _)).2.symm
  rw [Outbound.headers_of_prepare prepared, Field.values_map_ofHeader,
    Outbound.values_identify kept, Request.values_of_parse parsed,
    List.map_map]
  exact List.map_congr_left fun line _ => bytes line

/-- What the caller sent reaches the provider byte for byte. It is kept back by a control
character in a value that is sent, or by an identity that no field can carry, and never by
the name of a field. -/
theorem fields_of_parse (parsed : Request.parse buffer = .ok (request, taken))
    (prepared : Outbound.prepare provider request = .ok outbound) :
    ((∃ fields, outbound.fields = .ok fields) ↔
        (∀ line ∈ fieldLines buffer, Outbound.overrides provider (nameOnLine line) = false →
          ∀ b ∈ valueOnLine line, isControl b.toNat = false) ∧
        IsSendable provider.userId ∧ ∀ appKey ∈ provider.appKey?, IsSendable appKey) ∧
      (∀ failure, outbound.fields = .error failure →
        ∃ header ∈ outbound.headers.toList, Text.isToken header.name = true ∧
          ¬ IsSendable header.value ∧
          failure = .invalidRequest ("value of header `" ++ Text.lower header.name ++ "`")) ∧
      ∀ fields, outbound.fields = .ok fields →
        ∀ name, Outbound.overrides provider name = false →
          Field.values fields name =
            ((fieldLines buffer).filter fun line => Text.sameName (nameOnLine line) name).map
              valueOnLine := by
  have tokens := tokens_of_parse parsed prepared
  refine ⟨?_, ?_, ?_⟩
  · rw [← forall_sendable_iff parsed prepared]
    simp [Outbound.fields_eq_ok_iff tokens]
  · intro failure failed
    obtain ⟨header, member, unsendable, same⟩ := Outbound.exists_of_fields_eq_error tokens failed
    exact ⟨header, member, tokens header member, unsendable, same⟩
  · intro fields carried name kept
    obtain ⟨_, rfl⟩ := (Outbound.fields_eq_ok_iff tokens).mp carried
    exact values_map_ofHeader_of_parse parsed prepared kept

end

def loopback : Provider where
  baseUrl := {
    scheme := "http"
    authority? := some { host? := some (.name "localhost") }
    path := "/"
    query? := none
    fragment? := none }
  userId := "zo\xeb"
  appKey? := some "a\tb"

/-- A request that repeats a field, and claims a host and a key that cannot be sent. -/
def notedBuffer : Bytes :=
  ("GET / HTTP/1.1\nX-Note:caf\xe9 \r\nHost: \x01\r\nx-functions-KEY: \x7f\r\n" ++
    "\tx-nOTE\t:\x80:\xff\r\n\r\n").toList.map Char.toUInt8

def notedRequest : Request where
  method := .get
  target := "/"
  version := "HTTP/1.1"
  headers := ⟨[⟨"X-Note", "caf\xe9"⟩, ⟨"Host", "\x01"⟩, ⟨"x-functions-KEY", "\x7f"⟩,
    ⟨"x-nOTE", "\x80:\xff"⟩]⟩
  body := []

theorem fields_of_parse_of_notes :
    ∃ outbound fields, Request.parse notedBuffer = .ok (notedRequest, 74) ∧
      Outbound.prepare loopback notedRequest = .ok outbound ∧ outbound.fields = .ok fields ∧
      Field.values fields "X-NOTE" = [[0x63, 0x61, 0x66, 0xe9], [0x80, 0x3a, 0xff]] := by
  have parsed : Request.parse notedBuffer = .ok (notedRequest, 74) := by rfl
  have succeeds : (Outbound.prepare loopback notedRequest).isOk = true := by decide +kernel
  obtain ⟨outbound, prepared⟩ := exists_of_isOk succeeds
  obtain ⟨carried, _, values⟩ := fields_of_parse parsed prepared
  have plain : ∀ line ∈ fieldLines notedBuffer,
      Outbound.overrides loopback (nameOnLine line) = false →
        ∀ b ∈ valueOnLine line, isControl b.toNat = false := by decide +kernel
  have user : IsSendable loopback.userId := by decide
  have key : ∀ appKey ∈ loopback.appKey?, IsSendable appKey := by decide
  obtain ⟨fields, made⟩ := carried.mpr ⟨plain, user, key⟩
  exact ⟨outbound, fields, parsed, prepared, made, values fields made "X-NOTE" (by decide)⟩

end IdentityRelay.Relay
