import IdentityRelay.Http.Request
import IdentityRelay.Proofs.Text.Cut
import IdentityRelay.Proofs.Text.Strip
import Mathlib.Data.Set.List

/-! Cookies as they are written into header fields. However they are spread over fields, with
blanks around them and other text between them, the same cookies are read; and every list of
header fields is such a writing of the cookies that are read from it. -/
namespace IdentityRelay.Http
variable {s : List Char}

/-! ### Writing -/

/-- A text that can be the name or the value of a cookie: no semicolon stands in it and no
blank at its ends. -/
structure IsCookieText (s : List Char) : Prop where
  unbroken : ';' ∉ s
  first : ∀ c ∈ s.head?, Text.isBlank c = false
  last : ∀ c ∈ s.getLast?, Text.isBlank c = false

structure Cookie where
  name : String
  value : String
  isName : IsCookieText name.toList
  isValue : IsCookieText value.toList
  /-- The first equals sign ends the name; the value can hold more of them. -/
  noEquals : '=' ∉ name.toList

abbrev Blanks := { s : List Char // ∀ c ∈ s, Text.isBlank c = true }

/-- What stands between two semicolons of a field: a cookie with blanks around its name and
its value, or a text that is no cookie. -/
inductive CookiePiece where
  | pair (cookie : Cookie) (beforeName afterName beforeValue afterValue : Blanks)
  | other (text : List Char) (unbroken : ';' ∉ text) (noEquals : '=' ∉ text)

/-- One of the fields of a request: pieces under some spelling of the name `Cookie`, or
anything under another name. -/
inductive CookieField where
  | cookies (name : String) (named : Text.sameName name "Cookie" = true)
      (pieces : List CookiePiece)
  | other (header : Header) (unnamed : Text.sameName header.name "Cookie" = false)

namespace CookiePiece

def text : CookiePiece → List Char
  | pair cookie beforeName afterName beforeValue afterValue =>
    (beforeName.val ++ cookie.name.toList ++ afterName.val) ++
      '=' :: (beforeValue.val ++ cookie.value.toList ++ afterValue.val)
  | other text _ _ => text

def cookie? : CookiePiece → Option Cookie
  | pair cookie _ _ _ _ => some cookie
  | other _ _ _ => none

end CookiePiece

namespace CookieField

def header : CookieField → Header
  | cookies name _ pieces => ⟨name, String.ofList ([';'].intercalate (pieces.map CookiePiece.text))⟩
  | other header _ => header

def carried : CookieField → List Cookie
  | cookies _ _ pieces => pieces.filterMap CookiePiece.cookie?
  | other _ _ => []

end CookieField

namespace Cookie

def pair (cookie : Cookie) : String × String := (cookie.name, cookie.value)

/-- The cookies are spread over the fields, in their order. -/
def WrittenIn (cookies : List Cookie) (headers : Headers) : Prop :=
  ∃ fields : List CookieField,
    fields.map CookieField.header = headers.toList ∧ fields.flatMap CookieField.carried = cookies

theorem pair_injective {cookie other : Cookie} (same : cookie.pair = other.pair) :
    cookie = other := by
  cases cookie
  cases other
  cases same
  rfl

end Cookie

/-! ### Blanks around texts -/

theorem Blanks.not_mem {c : Char} (visible : Text.isBlank c = false) (blanks : Blanks) :
    c ∉ blanks.val := by
  intro member
  rw [blanks.property c member] at visible
  contradiction

namespace IsCookieText

theorem trim_padded (isText : IsCookieText s) (before after : Blanks) :
    Text.trim (before.val ++ s ++ after.val) = s := by
  rw [Text.trim, Text.strip_append_right after.property, Text.strip_append_left before.property]
  exact Text.strip_eq_self isText.first isText.last

theorem of_trim (unbroken : ';' ∉ s) : IsCookieText (Text.trim s) where
  unbroken := fun member => unbroken (Text.mem_of_mem_strip member)
  first := fun _ => Text.not_unwanted_of_mem_head?_strip
  last := fun _ => Text.not_unwanted_of_mem_getLast?_strip

end IsCookieText

private theorem exists_blanks (s : List Char) :
    ∃ before after : Blanks, before.val ++ Text.trim s ++ after.val = s := by
  obtain ⟨front, back, before, after, whole⟩ := Text.exists_append_strip Text.isBlank s
  exact ⟨⟨front, before⟩, ⟨back, after⟩, whole⟩

/-- The cookie whose name and value are left of two texts when the blanks around them go. -/
def Cookie.ofTexts {name value : List Char} (ofName : ';' ∉ name) (ofValue : ';' ∉ value)
    (noEquals : '=' ∉ name) : Cookie where
  name := String.ofList (Text.trim name)
  value := String.ofList (Text.trim value)
  isName := String.toList_ofList ▸ .of_trim ofName
  isValue := String.toList_ofList ▸ .of_trim ofValue
  noEquals := by
    rw [String.toList_ofList]
    exact fun member => noEquals (Text.mem_of_mem_strip member)

/-! ### Reading pieces -/

namespace Request

private theorem cookie?_of_not_mem {text : List Char} (noEquals : '=' ∉ text) :
    cookie? text = none := by
  have absent : Text.cut? ['='] (Text.trim text) = none := by
    rw [Text.cut?_eq_none_iff]
    intro inside
    exact noEquals (Text.mem_of_mem_strip (inside.subset List.mem_cons_self))
  rw [cookie?, absent]
  rfl

/-- It does not matter that blanks are dropped around a piece before it is cut. -/
private theorem cookie?_append {name : List Char} (noEquals : '=' ∉ name) (value : List Char) :
    cookie? (name ++ '=' :: value) =
      some (String.ofList (Text.trim name), String.ofList (Text.trim value)) := by
  have trimmed : Text.trim (name ++ '=' :: value) =
      name.dropWhile Text.isBlank ++ '=' :: Text.stripEnd Text.isBlank value :=
    Text.strip_append_cons (by decide) name value
  have absent : '=' ∉ name.dropWhile Text.isBlank := fun member =>
    noEquals ((List.dropWhile_suffix _).subset member)
  have ofName : Text.trim (name.dropWhile Text.isBlank) = Text.trim name :=
    Text.strip_dropWhile _ _
  have ofValue : Text.trim (Text.stripEnd Text.isBlank value) = Text.trim value :=
    Text.strip_stripEnd _ _
  rw [cookie?, trimmed, Text.cut?_singleton absent, Option.map_some]
  simp only [ofName, ofValue]

end Request

namespace CookiePiece

theorem unbroken (piece : CookiePiece) : ';' ∉ piece.text := by
  cases piece with
  | pair cookie beforeName afterName beforeValue afterValue =>
    have blank (blanks : Blanks) : ';' ∉ blanks.val := blanks.not_mem (by decide)
    simp [text, blank, cookie.isName.unbroken, cookie.isValue.unbroken]
  | other text unbroken noEquals => exact unbroken

theorem cookie?_text (piece : CookiePiece) :
    Request.cookie? piece.text = piece.cookie?.map Cookie.pair := by
  cases piece with
  | pair cookie beforeName afterName beforeValue afterValue =>
    have blank (blanks : Blanks) : '=' ∉ blanks.val := blanks.not_mem (by decide)
    have noEquals : '=' ∉ beforeName.val ++ cookie.name.toList ++ afterName.val := by
      simp [blank, cookie.noEquals]
    rw [text, Request.cookie?_append noEquals, cookie.isName.trim_padded,
      cookie.isValue.trim_padded, String.ofList_toList, String.ofList_toList]
    rfl
  | other text unbroken noEquals => exact Request.cookie?_of_not_mem noEquals

theorem exists_text (unbroken : ';' ∉ s) : ∃ piece : CookiePiece, piece.text = s := by
  by_cases equals : '=' ∈ s
  · obtain ⟨name, value, rfl, noEquals⟩ := List.eq_append_cons_of_mem equals
    simp only [List.mem_append, List.mem_cons, not_or] at unbroken
    obtain ⟨beforeName, afterName, wholeName⟩ := exists_blanks name
    obtain ⟨beforeValue, afterValue, wholeValue⟩ := exists_blanks value
    refine ⟨.pair (.ofTexts unbroken.1 unbroken.2.2 noEquals) beforeName afterName
      beforeValue afterValue, ?_⟩
    rw [text, Cookie.ofTexts, String.toList_ofList, String.toList_ofList, wholeName, wholeValue]
  · exact ⟨.other s unbroken equals, rfl⟩

end CookiePiece

/-! ### Reading fields -/

private theorem splitWhere_pieces {pieces : List CookiePiece} (nonempty : pieces ≠ []) :
    Text.splitWhere (· == ';') ([';'].intercalate (pieces.map CookiePiece.text)) =
      pieces.map CookiePiece.text := by
  refine List.splitOn_intercalate ';' ?_ (by simpa using nonempty)
  intro text isPiece
  obtain ⟨piece, _, rfl⟩ := List.mem_map.mp isPiece
  exact piece.unbroken

namespace Request

private def cookiesIn (header : Header) : List (String × String) :=
  if Text.sameName header.name "Cookie" then
    (Text.splitWhere (· == ';') header.value.toList).filterMap cookie?
  else []

private theorem cookies_eq_flatMap (request : Request) :
    request.cookies = request.headers.toList.flatMap cookiesIn := by
  rw [cookies, Headers.values]
  induction request.headers.toList with
  | nil => rfl
  | cons header rest ih =>
    rw [List.filter_cons, List.flatMap_cons, ← ih, cookiesIn, Headers.isNamed]
    split
    · rw [List.map_cons, List.flatMap_cons, List.filterMap_append]
    · rfl

end Request

namespace CookieField

private theorem cookiesIn_header (field : CookieField) :
    Request.cookiesIn field.header = field.carried.map Cookie.pair := by
  cases field with
  | cookies name named pieces =>
    rw [Request.cookiesIn, header, if_pos named, String.toList_ofList]
    cases pieces with
    | nil => rfl
    | cons first rest =>
      rw [splitWhere_pieces (List.cons_ne_nil _ _), List.filterMap_map, carried, List.map_filterMap]
      simp only [Function.comp_def, CookiePiece.cookie?_text]
  | other header unnamed =>
    rw [Request.cookiesIn, CookieField.header, unnamed]
    rfl

theorem exists_header (header : Header) : ∃ field : CookieField, field.header = header := by
  cases named : Text.sameName header.name "Cookie" with
  | false => exact ⟨.other header named, rfl⟩
  | true =>
    have inRange : Text.splitWhere (· == ';') header.value.toList ∈
        Set.range (List.map CookiePiece.text) := by
      rw [Set.range_list_map]
      intro piece isPiece
      refine CookiePiece.exists_text fun member => ?_
      simpa using Text.not_separator_of_mem_splitWhere isPiece member
    obtain ⟨pieces, same⟩ := inRange
    have whole : [';'].intercalate (Text.splitWhere (· == ';') header.value.toList) =
        header.value.toList := List.intercalate_splitOn ';'
    refine ⟨.cookies header.name named pieces, ?_⟩
    rw [CookieField.header, same, whole, String.ofList_toList]

end CookieField

namespace Request

private theorem cookies_of_fields {request : Request} {fields : List CookieField}
    (laid : fields.map CookieField.header = request.headers.toList) :
    request.cookies = (fields.flatMap CookieField.carried).map Cookie.pair := by
  rw [cookies_eq_flatMap, ← laid, List.flatMap_map, List.map_flatMap]
  simp only [CookieField.cookiesIn_header]

theorem exists_writtenIn (request : Request) :
    ∃ cookies, request.cookies = cookies.map Cookie.pair ∧
      Cookie.WrittenIn cookies request.headers := by
  have laid : request.headers.toList ∈ Set.range (List.map CookieField.header) := by
    rw [Set.range_list_map]
    exact fun header _ => CookieField.exists_header header
  obtain ⟨fields, laid⟩ := laid
  exact ⟨_, cookies_of_fields laid, fields, laid, rfl⟩

/-- The cookies that are read from a request are those that are written in its fields, in
their order and each as often as it is written. -/
theorem cookies_eq_iff_writtenIn (request : Request) (cookies : List Cookie) :
    request.cookies = cookies.map Cookie.pair ↔ Cookie.WrittenIn cookies request.headers := by
  constructor
  · intro same
    obtain ⟨others, read, written⟩ := request.exists_writtenIn
    rw [read, List.map_inj_right fun _ _ => Cookie.pair_injective] at same
    exact same ▸ written
  · rintro ⟨fields, laid, rfl⟩
    exact cookies_of_fields laid

/-- Blanks go, and so does what has no equals sign; empty and repeated cookies stay. -/
example :
    let headers : Headers := ⟨[⟨"cookie", "a=1;b =\u3000x=y ;flag"⟩, ⟨"Cookies", "c=2"⟩,
      ⟨"COOKIE", "\t; = ;a=1"⟩]⟩
    cookies { method := .get, target := "/", version := "HTTP/1.1", headers, body := [] } =
      [("a", "1"), ("b", "x=y"), ("", ""), ("a", "1")] := by decide +kernel

end Request

end IdentityRelay.Http
