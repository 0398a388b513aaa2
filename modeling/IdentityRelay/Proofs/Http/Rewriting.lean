import Mathlib.Logic.Relation
import IdentityRelay.Proofs.Http.Headers
import IdentityRelay.Proofs.Http.Parse
import IdentityRelay.Proofs.Text.CommaList

/-! Fields whose values are lists. One list can be written in one field or in several, in
any place among the fields of other names, in any case and with any blanks and empty elements
between the commas. However it is written it lists the same tokens, and so it says the same of
the connection and of the body. -/
namespace IdentityRelay.Http

namespace Headers
variable {headers other : Headers} {name asked : String} {names : List String}

/-! ### Ways to write a list -/

def joined (parts : List Header) : String :=
  String.ofList ([','].intercalate (parts.map fun part => part.value.toList))

/-- One change to the way in which the list under a name is written. -/
inductive Rewriting (name : String) : Headers → Headers → Prop where
  /-- Fields that stand together become one. -/
  | join (before parts after : List Header) {spelling : String}
      (named : ∀ part ∈ parts, Text.sameName part.name name = true)
      (spelled : Text.sameName spelling name = true) :
      Rewriting name ⟨before ++ parts ++ after⟩ ⟨before ++ [⟨spelling, joined parts⟩] ++ after⟩
  /-- The fields of the name are put in any places and in any order. The fields of other names
  keep their order. -/
  | reorder {fields moved : List Header}
      (own : (moved.filter (isNamed name)).Perm (fields.filter (isNamed name)))
      (others : (moved.filter fun header => !isNamed name header) =
        fields.filter fun header => !isNamed name header) :
      Rewriting name ⟨fields⟩ ⟨moved⟩
  /-- The name of a field takes another case, or its value is another writing of its list. -/
  | respell (before after : List Header) {field spelled : Header}
      (named : Text.sameName field.name name = true)
      (sameName : Text.sameName spelled.name name = true)
      (sameList : Text.Respelled field.value.toList spelled.value.toList) :
      Rewriting name ⟨before ++ [field] ++ after⟩ ⟨before ++ [spelled] ++ after⟩

/-- The lists under these names are written anew, by any changes one after the other. A change
can be undone: fields that are joined can be split again at any comma, and blanks and empty
elements can be left out. -/
def Rewritten (names : List String) : Headers → Headers → Prop :=
  Relation.EqvGen fun headers other => ∃ name ∈ names, Rewriting name headers other

/-! ### What is listed -/

def listedBy (name : String) (header : Header) : List (List Char) :=
  if isNamed name header then Text.listing (header.value.toList.map Char.toLower) else []

def listed (headers : Headers) (name : String) : List (List Char) :=
  headers.toList.flatMap (listedBy name)

theorem hasToken_iff_listed {token : String} (nonempty : token ≠ "") :
    headers.hasToken name token = true ↔ token.toList.map Char.toLower ∈ headers.listed name := by
  have filled : token.toList.map Char.toLower ≠ [] := by
    simpa [← String.toList_eq_nil_iff] using nonempty
  have inField (header : Header) :
      (∃ element ∈ elements header.value, Text.sameName (String.ofList element) token = true) ↔
        token.toList.map Char.toLower ∈ Text.listing (header.value.toList.map Char.toLower) := by
    rw [Text.mem_listing_map_toLower filled, elements]
    simp only [Text.sameName, String.toList_ofList, beq_iff_eq]
    constructor
    · rintro ⟨_, isElement, same⟩
      obtain ⟨piece, isPiece, rfl⟩ := List.mem_map.mp isElement
      exact ⟨piece, isPiece, same⟩
    · rintro ⟨piece, isPiece, same⟩
      exact ⟨_, List.mem_map_of_mem isPiece, same⟩
  simp only [hasToken_iff, inField, listed, List.mem_flatMap, listedBy, isNamed]
  apply exists_congr
  intro header
  by_cases named : Text.sameName header.name name = true
  · simp only [named, true_and, if_true]
  · simp [named]

/-- The list in a field that is joined is made of the lists in its parts. -/
theorem listedBy_joined {parts : List Header} {spelling : String}
    (named : ∀ part ∈ parts, Text.sameName part.name name = true)
    (spelled : Text.sameName spelling name = true) (asked : String) :
    listedBy asked ⟨spelling, joined parts⟩ = parts.flatMap (listedBy asked) := by
  have sameName : ∀ part ∈ parts, isNamed asked part = isNamed asked ⟨spelling, joined parts⟩ := by
    intro part member
    rw [isNamed_eq, isNamed_eq, Text.sameName_iff.mp (named part member),
      Text.sameName_iff.mp spelled]
  have each : ∀ part ∈ parts, listedBy asked part =
      if isNamed asked ⟨spelling, joined parts⟩ then
        Text.listing (part.value.toList.map Char.toLower) else [] :=
    fun part member => by rw [listedBy, sameName part member]
  rw [List.flatMap_def, List.map_congr_left each, ← List.flatMap_def, listedBy]
  split
  · rw [joined, String.toList_ofList, Text.map_toLower_intercalate, Text.listing_intercalate,
      List.map_map, List.flatMap_map]
    rfl
  · simp

/-- A rewritten list has the same elements, each as often as before, in whatever order. -/
theorem Rewriting.listed_perm (rewriting : Rewriting name headers other) (asked : String) :
    (other.listed asked).Perm (headers.listed asked) := by
  cases rewriting with
  | join before parts after named spelled =>
    simp only [listed, List.flatMap_append, List.flatMap_singleton, listedBy_joined named spelled]
    exact .refl _
  | @reorder fields moved own others =>
    have toParts := (List.filter_append_perm (isNamed name) moved).symm
    have sameParts := own.append (.of_eq others)
    have whole := (toParts.trans sameParts).trans (List.filter_append_perm (isNamed name) fields)
    exact whole.flatMap_right _
  | respell before after named sameName sameList =>
    rw [Text.sameName_iff] at named sameName
    simp only [listed, List.flatMap_append, List.flatMap_singleton, listedBy,
      isNamed_eq, named, sameName, sameList.listing_eq]
    exact .refl _

theorem Rewriting.values_eq (rewriting : Rewriting name headers other)
    (different : Text.sameName name asked = false) : other.values asked = headers.values asked := by
  have unasked {header : Header} (named : isNamed name header = true) :
      isNamed asked header = false := not_isNamed_of_ne different named
  unfold values
  congr 1
  cases rewriting with
  | @join before parts after spelling named spelled =>
    have noPart : parts.filter (isNamed asked) = [] := by
      rw [List.filter_eq_nil_iff]
      intro part member
      rw [unasked (named part member)]
      exact Bool.false_ne_true
    have notJoined : isNamed asked ⟨spelling, joined parts⟩ = false := unasked spelled
    simp only [List.filter_append, noPart, List.filter_cons, notJoined, List.filter_nil,
      Bool.false_eq_true, if_false]
  | @reorder fields moved own others =>
    have amongOthers (fields : List Header) : fields.filter (isNamed asked) =
        (fields.filter fun header => !isNamed name header).filter (isNamed asked) := by
      rw [List.filter_filter]
      apply List.filter_congr
      intro header _
      cases named : isNamed name header with
      | true => rw [unasked named, Bool.false_and]
      | false => rw [Bool.not_false, Bool.and_true]
    rw [amongOthers, amongOthers fields, others]
  | @respell before after field spelled named sameName sameList =>
    have notField : isNamed asked field = false := unasked named
    have notSpelled : isNamed asked spelled = false := unasked sameName
    simp only [List.filter_append, List.filter_cons, notField, notSpelled, List.filter_nil,
      Bool.false_eq_true, if_false]

namespace Rewritten

theorem of_rewriting (isOne : name ∈ names) (rewriting : Rewriting name headers other) :
    Rewritten names headers other := .rel _ _ ⟨name, isOne, rewriting⟩

theorem trans {later : Headers} (first : Rewritten names headers other)
    (second : Rewritten names other later) : Rewritten names headers later :=
  Relation.EqvGen.trans _ _ _ first second

/-- A field is split at one of its commas. -/
theorem split (isOne : name ∈ names) (before after : List Header) {spelling : String}
    (spelled : Text.sameName spelling name = true) (front back : List Char) :
    Rewritten names
      ⟨before ++ [⟨spelling, String.ofList (front ++ ',' :: back)⟩] ++ after⟩
      ⟨before ++ [⟨spelling, String.ofList front⟩, ⟨spelling, String.ofList back⟩] ++ after⟩ := by
  have whole : joined [⟨spelling, String.ofList front⟩, ⟨spelling, String.ofList back⟩] =
      String.ofList (front ++ ',' :: back) := by
    simp [joined]
  rw [← whole]
  exact .symm _ _ (of_rewriting isOne (.join before _ after (by simp [spelled]) spelled))

theorem listed_perm (rewritten : Rewritten names headers other) (asked : String) :
    (other.listed asked).Perm (headers.listed asked) := by
  induction rewritten with
  | rel _ _ changed =>
    obtain ⟨_, _, rewriting⟩ := changed
    exact rewriting.listed_perm asked
  | refl _ => exact .refl _
  | symm _ _ _ back => exact back.symm
  | trans _ _ _ _ _ first second => exact second.trans first

theorem values_eq (rewritten : Rewritten names headers other)
    (different : ∀ name ∈ names, Text.sameName name asked = false) :
    other.values asked = headers.values asked := by
  induction rewritten with
  | rel _ _ changed =>
    obtain ⟨name, isOne, rewriting⟩ := changed
    exact rewriting.values_eq (different name isOne)
  | refl _ => rfl
  | symm _ _ _ back => exact back.symm
  | trans _ _ _ _ _ first second => exact second.trans first

theorem hasToken_eq (rewritten : Rewritten names headers other) {token : String}
    (nonempty : token ≠ "") (name : String) :
    other.hasToken name token = headers.hasToken name token := by
  rw [Bool.eq_iff_iff, hasToken_iff_listed nonempty, hasToken_iff_listed nonempty]
  exact (rewritten.listed_perm name).mem_iff

/-- Where no length is rewritten, the end of a body is found in the same way. -/
theorem framing_eq (rewritten : Rewritten names headers other)
    (noLength : ∀ name ∈ names, Text.sameName name "Content-Length" = false) :
    Framing.ofHeaders other = Framing.ofHeaders headers := by
  rw [Framing.ofHeaders, Framing.ofHeaders, rewritten.hasToken_eq (by decide),
    Framing.contentLength, Framing.contentLength, rewritten.values_eq noLength]

end Rewritten

theorem hasToken_congr {token spelled : String} (sameName : Text.sameName asked name = true)
    (sameToken : Text.sameName spelled token = true) (headers : Headers) :
    headers.hasToken asked spelled = headers.hasToken name token := by
  rw [Text.sameName, beq_iff_eq] at sameToken
  have named : isNamed asked = isNamed name := by
    funext header
    rw [isNamed_eq, isNamed_eq, Text.sameName_iff.mp sameName]
  simp only [hasToken, values, named, Text.sameName, sameToken]

end Headers

namespace Request
open Headers

/-- A list says the same however it is written. The same tokens are found under every name, in
whatever case they are asked for; so a request says the same of its connection. Where no length
is rewritten its body is found in the same way, and behind two heads that differ in how their
lists are written the same bytes are read as the same body, or refused for the same fault. -/
theorem lists_read_alike {names : List String} :
    (∀ headers other : Headers, Rewritten names headers other →
      ∀ name asked token spelled : String, token ≠ "" → Text.sameName asked name = true →
        Text.sameName spelled token = true →
          other.hasToken asked spelled = headers.hasToken name token) ∧
    (∀ request other : Request, Rewritten names request.headers other.headers →
      other.version = request.version → other.keepAlive = request.keepAlive) ∧
    ((∀ name ∈ names, Text.sameName name "Content-Length" = false) →
      (∀ headers other : Headers, Rewritten names headers other →
        Framing.ofHeaders other = Framing.ofHeaders headers) ∧
      ∀ (buffer otherBuffer head otherHead rest : Bytes) (fields otherFields : RequestHead),
        Text.cut? separator buffer = some (head, rest) →
        Text.cut? separator otherBuffer = some (otherHead, rest) →
        head.length ≤ headLimit → otherHead.length ≤ headLimit →
        RequestHead.parse head = .ok fields → RequestHead.parse otherHead = .ok otherFields →
        Rewritten names fields.headers otherFields.headers →
          ∃ outcome : Except ParseError (Bytes × Nat),
            parse buffer = (outcome.map fun (body, length) =>
              (fields.toRequest body, head.length + 4 + length)) ∧
            parse otherBuffer = outcome.map fun (body, length) =>
              (otherFields.toRequest body, otherHead.length + 4 + length)) := by
  refine ⟨?_, ?_, ?_⟩
  · intro headers other rewritten name asked token spelled nonempty sameName sameToken
    rw [hasToken_congr sameName sameToken, rewritten.hasToken_eq nonempty]
  · intro request other rewritten sameVersion
    rw [keepAlive, keepAlive, rewritten.hasToken_eq (by decide), rewritten.hasToken_eq (by decide),
      sameVersion]
  · intro noLength
    refine ⟨fun _ _ rewritten => rewritten.framing_eq noLength, ?_⟩
    intro buffer otherBuffer head otherHead rest fields otherFields found otherFound within
      otherWithin read otherRead rewritten
    refine ⟨_, parse_of_head found within read, ?_⟩
    rw [parse_of_head otherFound otherWithin otherRead, rewritten.framing_eq noLength]

/-- A head with one list of codings in two fields, and the tokens of the connection in one. -/
def scatteredHead : Bytes :=
  Utf8.encode ("POST / HTTP/1.1\r\nConnection: close,te\r\nHost: h\r\n" ++
    "Transfer-Encoding: gzip\r\nTRANSFER-ENCODING: Chunked")

def scatteredFields : RequestHead where
  method := .post
  target := "/"
  version := "HTTP/1.1"
  headers := ⟨[⟨"Connection", "close,te"⟩, ⟨"Host", "h"⟩, ⟨"Transfer-Encoding", "gzip"⟩,
    ⟨"TRANSFER-ENCODING", "Chunked"⟩]⟩

def gatheredHead : Bytes :=
  Utf8.encode ("POST / HTTP/1.1\r\nTransfer-Encoding: GZIP , ,\tchunked\r\nConnection: te\r\n" ++
    "Host: h\r\nConnection: close")

def gatheredFields : RequestHead where
  method := .post
  target := "/"
  version := "HTTP/1.1"
  headers := ⟨[⟨"Transfer-Encoding", "GZIP , ,\tchunked"⟩, ⟨"Connection", "te"⟩, ⟨"Host", "h"⟩,
    ⟨"Connection", "close"⟩]⟩

def emptyChunks : Bytes := Utf8.encode "0\r\n\r\n"

theorem parse_scatteredHead : RequestHead.parse scatteredHead = .ok scatteredFields := by rfl

theorem parse_gatheredHead : RequestHead.parse gatheredHead = .ok gatheredFields := by rfl

theorem cut?_scatteredHead :
    Text.cut? separator (scatteredHead ++ separator ++ emptyChunks) =
      some (scatteredHead, emptyChunks) := by
  decide +kernel

theorem cut?_gatheredHead :
    Text.cut? separator (gatheredHead ++ separator ++ emptyChunks) =
      some (gatheredHead, emptyChunks) := by
  decide +kernel

/-- The codings are joined, spaced, put into another case and moved to the front; the tokens of
the connection are split and moved apart. -/
theorem rewritten_scatteredFields :
    Rewritten ["Connection", "Transfer-Encoding"] scatteredFields.headers
      gatheredFields.headers := by
  have joinCodings : Rewriting "Transfer-Encoding" scatteredFields.headers
      ⟨[⟨"Connection", "close,te"⟩, ⟨"Host", "h"⟩, ⟨"Transfer-Encoding", "gzip,Chunked"⟩]⟩ :=
    .join [⟨"Connection", "close,te"⟩, ⟨"Host", "h"⟩]
      [⟨"Transfer-Encoding", "gzip"⟩, ⟨"TRANSFER-ENCODING", "Chunked"⟩] [] (by decide) (by decide)
  have spaceCodings : Rewriting "Transfer-Encoding"
      ⟨[⟨"Connection", "close,te"⟩, ⟨"Host", "h"⟩, ⟨"Transfer-Encoding", "gzip,Chunked"⟩]⟩
      ⟨[⟨"Connection", "close,te"⟩, ⟨"Host", "h"⟩, ⟨"Transfer-Encoding", "gzip , ,\tChunked"⟩]⟩ :=
    .respell [⟨"Connection", "close,te"⟩, ⟨"Host", "h"⟩] [] (by decide) (by decide)
      (@Text.Respelled.spread "gzip".toList "Chunked".toList " , ,\t".toList (by decide)
        (by decide))
  have recaseCodings : Rewriting "Transfer-Encoding"
      ⟨[⟨"Connection", "close,te"⟩, ⟨"Host", "h"⟩, ⟨"Transfer-Encoding", "gzip , ,\tChunked"⟩]⟩
      ⟨[⟨"Connection", "close,te"⟩, ⟨"Host", "h"⟩, ⟨"Transfer-Encoding", "GZIP , ,\tchunked"⟩]⟩ :=
    .respell [⟨"Connection", "close,te"⟩, ⟨"Host", "h"⟩] [] (by decide) (by decide)
      (.recase (by decide))
  have splitTokens : Rewritten ["Connection", "Transfer-Encoding"]
      ⟨[⟨"Connection", "close,te"⟩, ⟨"Host", "h"⟩, ⟨"Transfer-Encoding", "GZIP , ,\tchunked"⟩]⟩
      ⟨[⟨"Connection", "close"⟩, ⟨"Connection", "te"⟩, ⟨"Host", "h"⟩,
        ⟨"Transfer-Encoding", "GZIP , ,\tchunked"⟩]⟩ :=
    @Rewritten.split "Connection" _ (by decide) [] _ "Connection" (by decide) "close".toList
      "te".toList
  have moveCodings : Rewriting "Transfer-Encoding"
      ⟨[⟨"Connection", "close"⟩, ⟨"Connection", "te"⟩, ⟨"Host", "h"⟩,
        ⟨"Transfer-Encoding", "GZIP , ,\tchunked"⟩]⟩
      ⟨[⟨"Transfer-Encoding", "GZIP , ,\tchunked"⟩, ⟨"Connection", "close"⟩, ⟨"Connection", "te"⟩,
        ⟨"Host", "h"⟩]⟩ :=
    .reorder (by decide) (by decide)
  have moveTokens : Rewriting "Connection"
      ⟨[⟨"Transfer-Encoding", "GZIP , ,\tchunked"⟩, ⟨"Connection", "close"⟩, ⟨"Connection", "te"⟩,
        ⟨"Host", "h"⟩]⟩
      gatheredFields.headers :=
    .reorder (by decide) (by decide)
  have codings : "Transfer-Encoding" ∈ ["Connection", "Transfer-Encoding"] := by decide
  have tokens : "Connection" ∈ ["Connection", "Transfer-Encoding"] := by decide
  have joined := Rewritten.of_rewriting codings joinCodings
  have spaced := joined.trans (.of_rewriting codings spaceCodings)
  have recased := spaced.trans (.of_rewriting codings recaseCodings)
  have moved := (recased.trans splitTokens).trans (.of_rewriting codings moveCodings)
  exact moved.trans (.of_rewriting tokens moveTokens)

theorem lists_read_alike_of_scattered :
    Rewritten ["Connection", "Transfer-Encoding"] scatteredFields.headers
        gatheredFields.headers ∧
      gatheredFields.headers.hasToken "connection" "Close" =
        scatteredFields.headers.hasToken "Connection" "close" ∧
      (gatheredFields.toRequest []).keepAlive = (scatteredFields.toRequest []).keepAlive ∧
      Framing.ofHeaders gatheredFields.headers = Framing.ofHeaders scatteredFields.headers ∧
      ∃ outcome : Except ParseError (Bytes × Nat),
        parse (scatteredHead ++ separator ++ emptyChunks) =
          (outcome.map fun (body, length) =>
            (scatteredFields.toRequest body, scatteredHead.length + 4 + length)) ∧
        parse (gatheredHead ++ separator ++ emptyChunks) =
          outcome.map fun (body, length) =>
            (gatheredFields.toRequest body, gatheredHead.length + 4 + length) := by
  have rewritten := rewritten_scatteredFields
  obtain ⟨tokens, connection, framing⟩ :=
    @lists_read_alike ["Connection", "Transfer-Encoding"]
  obtain ⟨sameFraming, sameBody⟩ := framing (by decide)
  refine ⟨rewritten, ?_, ?_, ?_, ?_⟩
  · exact tokens _ _ rewritten _ _ _ _ (by decide) (by decide) (by decide)
  · exact connection (scatteredFields.toRequest []) (gatheredFields.toRequest []) rewritten rfl
  · exact sameFraming _ _ rewritten
  · exact sameBody _ _ _ _ _ _ _ cut?_scatteredHead cut?_gatheredHead (by decide) (by decide)
      parse_scatteredHead parse_gatheredHead rewritten

end Request

end IdentityRelay.Http
