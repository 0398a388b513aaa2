import IdentityRelay.Proofs.Relay.Target
import IdentityRelay.Proofs.Text.Ascii

/-! Targets in origin form, spelled as RFC 3986 wants it. Their path is appended character
for character, and of their query only the apostrophes are changed. -/
namespace IdentityRelay.Relay
open Url
variable {text : String} {base : Url} {allowed : Char → Bool} {segment s : List Char} {c : Char}

def isPchar (c : Char) : Bool := c.isAlphanum || "-._~!$&'()*+,;=:@".toList.contains c

def isQueryChar (c : Char) : Bool := isPchar c || c == '/' || c == '?'

/-- Whether a text is made of allowed characters and complete escapes. -/
def isSpelled (allowed : Char → Bool) : List Char → Bool
  | [] => true
  | '%' :: high :: low :: rest =>
    (Text.digit? 16 high).isSome && (Text.digit? 16 low).isSome && isSpelled allowed rest
  | c :: rest => allowed c && isSpelled allowed rest

/-- A segment that stands for a dot or for two, in any spelling. -/
def IsDotSegment (segment : List Char) : Prop :=
  Percent.decode segment = [0x2E] ∨ Percent.decode segment = [0x2E, 0x2E]

/-- A target that is a path, none of whose segments are dots, and perhaps a query. -/
structure OriginForm where
  segments : List (List Char)
  query? : Option (List Char)
  nonempty : segments ≠ []
  isPath : ∀ segment ∈ segments, isSpelled isPchar segment = true ∧ ¬ IsDotSegment segment
  isQuery : ∀ query, query? = some query → isSpelled isQueryChar query = true

def OriginForm.render (form : OriginForm) : List Char :=
  Path.spell form.segments ++ (form.query?.map ('?' :: ·)).getD []

/-- A query in which an escape stands for each apostrophe. -/
def escapeApostrophes (query : List Char) : List Char :=
  query.flatMap fun c => if c = '\'' then ['%', '2', '7'] else [c]

/-! ### Characters -/

private theorem isAlphanum_of_digit? (isDigit : (Text.digit? 16 c).isSome = true) :
    c.isAlphanum = true :=
  Text.of_toNat_lt (p := fun c => (Text.digit? 16 c).isSome = true → c.isAlphanum = true)
    (by decide) (Text.toNat_lt_of_digit? isDigit) isDigit

private theorem forall_mem_of_isSpelled {p : Char → Prop}
    (own : ∀ c, c.isAlphanum = true → p c) (percent : p '%')
    (each : ∀ c, allowed c = true → p c)
    (spelled : isSpelled allowed s = true) : ∀ c ∈ s, p c := by
  fun_induction isSpelled allowed s with
  | case1 => simp
  | case2 high low rest ih =>
    simp only [Bool.and_eq_true] at spelled
    obtain ⟨⟨first, second⟩, others⟩ := spelled
    intro c member
    simp only [List.mem_cons] at member
    rcases member with rfl | rfl | rfl | later
    · exact percent
    · exact own _ (isAlphanum_of_digit? first)
    · exact own _ (isAlphanum_of_digit? second)
    · exact ih others c later
  | case3 c rest _ ih =>
    obtain ⟨first, others⟩ := Bool.and_eq_true_iff.mp spelled
    intro d member
    rcases List.mem_cons.mp member with rfl | later
    · exact each _ first
    · exact ih others d later

/-! ### Segments -/

private theorem eq_of_toLower {d : Char} (lower : c.toLower = d) : c = d ∨ c = d.toUpper := by
  subst lower
  rcases Text.toLower_eq_self_or_isCapital c with same | ⟨first, last⟩
  · exact .inl same.symm
  · refine .inr (Text.of_toNat_lt (p := fun c => 0x41 ≤ c.toNat → c = c.toLower.toUpper) ?_
      last first)
    decide

private def dotSpellings : List (List Char) := [['.'], ['%', '2', 'e']]

private theorem decode_of_dot {dot rest : List Char} (isDot : dot ∈ dotSpellings)
    (lower : s.map Char.toLower = dot ++ rest) :
    ∃ later, later.map Char.toLower = rest ∧ Percent.decode s = 0x2E :: Percent.decode later := by
  simp only [dotSpellings, List.mem_cons, List.not_mem_nil, or_false] at isDot
  rcases isDot with rfl | rfl
  · obtain ⟨c, later, rfl, first, others⟩ := List.map_eq_cons_iff.mp lower
    refine ⟨later, others, ?_⟩
    rcases eq_of_toLower first with rfl | rfl <;> rfl
  · obtain ⟨a, tail, rfl, first, others⟩ := List.map_eq_cons_iff.mp lower
    obtain ⟨b, tail, rfl, second, others⟩ := List.map_eq_cons_iff.mp others
    obtain ⟨c, later, rfl, third, others⟩ := List.map_eq_cons_iff.mp others
    refine ⟨later, others, ?_⟩
    obtain rfl : a = '%' := (eq_of_toLower first).elim id id
    obtain rfl : b = '2' := (eq_of_toLower second).elim id id
    rcases eq_of_toLower third with rfl | rfl <;> rfl

private theorem isDotSegment_of_isDot (named : Path.isDot segment = true) :
    IsDotSegment segment := by
  have isDot : segment.map Char.toLower ∈ dotSpellings := List.contains_iff_mem.mp named
  obtain ⟨rest, empty, decoded⟩ := decode_of_dot isDot (List.append_nil _).symm
  rw [List.map_eq_nil_iff.mp empty] at decoded
  exact .inl decoded

private theorem isDotSegment_of_isDoubleDot (named : Path.isDoubleDot segment = true) :
    IsDotSegment segment := by
  have spelled : ∃ first ∈ dotSpellings, ∃ second ∈ dotSpellings,
      segment.map Char.toLower = first ++ second := by
    simpa [Path.isDoubleDot, dotSpellings, or_assoc] using named
  obtain ⟨first, isDot, second, isDot', spelled⟩ := spelled
  obtain ⟨tail, lower, decoded⟩ := decode_of_dot isDot spelled
  obtain ⟨rest, empty, decoded'⟩ := decode_of_dot isDot' (lower.trans (List.append_nil _).symm)
  rw [List.map_eq_nil_iff.mp empty] at decoded'
  rw [decoded'] at decoded
  exact .inr decoded

/-- A segment that is spelled well stands in a path as it is. -/
private theorem isSegment_of_isSpelled (spelled : isSpelled isPchar segment = true)
    (other : ¬ IsDotSegment segment) : Path.IsSegment segment where
  plain := by
    have own (c : Char) : c.isAlphanum = true → Percent.isPlain Percent.path c = true :=
      Percent.isPlain_of_isAlphanum (by decide)
    exact forall_mem_of_isSpelled own (by decide)
      (fun c => Text.of_isAlphanum_or_contains (p := (Percent.isPlain Percent.path · = true))
        (own c) (by decide)) spelled
  unbroken := by
    have own (c : Char) : c.isAlphanum = true → c ∉ ['/', '\\'] :=
      Text.not_mem_of_isAlphanum (by decide)
    have each : ∀ c ∈ segment, c ∉ ['/', '\\'] :=
      forall_mem_of_isSpelled own (by decide)
        (fun c => Text.of_isAlphanum_or_contains (p := (· ∉ ['/', '\\'])) (own c) (by decide))
        spelled
    simpa using each
  ordinary := ⟨Bool.eq_false_iff.mpr fun named => other (isDotSegment_of_isDot named),
    Bool.eq_false_iff.mpr fun named => other (isDotSegment_of_isDoubleDot named)⟩

/-! ### Queries -/

private theorem escapeApostrophes_cons (c : Char) (rest : List Char) :
    escapeApostrophes (c :: rest) =
      (if c = '\'' then ['%', '2', '7'] else [c]) ++ escapeApostrophes rest := List.flatMap_cons

private theorem plain_of_isSpelled (spelled : isSpelled isQueryChar s = true) :
    ∀ c ∈ s, Percent.isPlain Percent.specialQuery c = true ∨ c = '\'' := by
  have own (c : Char) (alphanumeric : c.isAlphanum = true) :
      Percent.isPlain Percent.specialQuery c = true ∨ c = '\'' :=
    .inl (Percent.isPlain_of_isAlphanum (by decide) alphanumeric)
  refine forall_mem_of_isSpelled own (by decide) (fun c isChar => ?_) spelled
  simp only [isQueryChar, Bool.or_eq_true, beq_iff_eq] at isChar
  rcases isChar with (isChar | rfl) | rfl
  · exact Text.of_isAlphanum_or_contains
      (p := fun c => Percent.isPlain Percent.specialQuery c = true ∨ c = '\'')
      (own c) (by decide) isChar
  · decide
  · decide

/-- Of the characters of a query only the apostrophe is escaped. -/
private theorem encode_of_isSpelled (spelled : isSpelled isQueryChar s = true) :
    Percent.encode Percent.specialQuery s = escapeApostrophes s := by
  have plain := plain_of_isSpelled spelled
  clear spelled
  induction s with
  | nil => rfl
  | cons c rest ih =>
    have later := ih fun d member => plain d (List.mem_cons_of_mem _ member)
    rw [Percent.encode_cons, later, escapeApostrophes_cons]
    congr 1
    rcases plain c List.mem_cons_self with kept | rfl
    · have other : c ≠ '\'' := by
        rintro rfl
        exact absurd kept (by decide)
      rw [kept, if_neg other]
      rfl
    · rfl

private theorem escapeApostrophes_eq_self_iff (query : List Char) :
    escapeApostrophes query = query ↔ '\'' ∉ query := by
  constructor
  · intro same member
    rw [← same] at member
    obtain ⟨c, _, inCode⟩ := List.mem_flatMap.mp member
    split at inCode
    · exact absurd inCode (by decide)
    · rename_i other
      exact other (List.mem_singleton.mp inCode).symm
  · intro absent
    induction query with
    | nil => rfl
    | cons c rest ih =>
      rw [List.mem_cons, not_or] at absent
      rw [escapeApostrophes_cons, ih absent.2, if_neg (Ne.symm absent.1)]
      rfl

/-! ### Targets -/

namespace OriginForm

private theorem isSegment (form : OriginForm) :
    ∀ segment ∈ form.segments, Path.IsSegment segment := fun segment member =>
  isSegment_of_isSpelled (form.isPath segment member).1 (form.isPath segment member).2

private theorem visible_of_query (form : OriginForm) {query : List Char}
    (stored : form.query? = some query) : ∀ c ∈ '?' :: query, 0x20 < c.toNat ∧ c ≠ '#' := by
  intro c member
  rcases List.mem_cons.mp member with rfl | inQuery
  · decide
  · rcases plain_of_isSpelled (form.isQuery query stored) c inQuery with plain | rfl
    · obtain ⟨visible, own⟩ := Percent.visible_of_isPlain (by decide) plain
      refine ⟨visible, ?_⟩
      rintro rfl
      exact own (by decide)
    · decide

/-- Nothing of a target in origin form is dropped, and it has no fragment. -/
private theorem ofText_render (form : OriginForm) :
    Tail.ofText form.render = ⟨Path.spell form.segments, form.query?, none⟩ := by
  have path {c : Char} (member : c ∈ Path.spell form.segments) :
      0x20 < c.toNat ∧ c ≠ '?' ∧ c ≠ '#' := Path.visible_of_mem_spell form.isSegment member
  have query : Tail.ofText ((form.query?.map ('?' :: ·)).getD []) = ⟨[], form.query?, none⟩ := by
    cases stored : form.query? with
    | none => rfl
    | some query =>
      have visible := form.visible_of_query stored
      have cleaned : Tail.clean ('?' :: query) = '?' :: query :=
        Tail.clean_eq_self fun c member => (visible c member).1
      have noFragment : cutMark '#' ('?' :: query) = ('?' :: query, none) :=
        cutMark_eq_self fun member => (visible _ member).2 rfl
      rw [Option.map_some, Option.getD_some, Tail.ofText, cleaned, Tail.split, noFragment]
      simp only [cutMark_cons]
  rw [Tail.ofText] at query
  rw [Tail.ofText, OriginForm.render, Tail.clean_append fun c member => (path member).1,
    Tail.split_append (fun member => (path member).2.2 rfl) (fun member => (path member).2.1 rfl),
    query, List.append_nil]

private theorem appended?_render (form : OriginForm) :
    appended? form.render = some form.render := by
  obtain ⟨first, others, begins⟩ := List.exists_cons_of_ne_nil form.nonempty
  have slash : form.render = '/' :: (first ++ Path.spell others ++
      (form.query?.map ('?' :: ·)).getD []) := by
    simp [OriginForm.render, begins, Path.spell]
  rw [slash]
  rfl

end OriginForm

/-- Behind a directory the segments of a target follow one after the other. -/
private theorem reach_of_ordinary {directory segments : List (List Char)} (nonempty : segments ≠ [])
    (ordinary : ∀ segment ∈ segments, Path.IsOrdinary segment) :
    Path.reach directory segments = directory ++ segments := by
  have some : (directory ++ segments).isEmpty = false := by simp [nonempty]
  have walked : Path.walk directory.reverse (segments ++ []) =
      Path.walk (segments.reverse ++ directory.reverse) [] := Path.walk_append_of_ordinary ordinary
  rw [Path.reach, some, if_neg Bool.false_ne_true]
  simpa [Path.walk] using walked

private theorem render_of_isSegment {segments : List (List Char)} (nonempty : segments ≠ [])
    (areSegments : ∀ segment ∈ segments, Path.IsSegment segment) :
    Path.render segments = Path.spell segments := by
  rw [Path.render_eq_spell nonempty, Path.map_encode_eq_self areSegments]

/-- A well-spelled target keeps its path behind that of the base, and it keeps its query
exactly when no apostrophe stands in it. -/
theorem targetUrl_originForm (accepted : Provider.parseBaseUrl text = .ok base)
    (form : OriginForm) :
    ∃ url, targetUrl base (String.ofList form.render) = .ok url ∧
      url.path.toList = Text.stripEnd (· == '/') base.path.toList ++ Path.spell form.segments ∧
      url.query?.map String.toList = form.query?.map escapeApostrophes ∧
      url.fragment? = none ∧
      (url.query?.map String.toList = form.query? ↔
        ∀ query, form.query? = some query → '\'' ∉ query) := by
  obtain ⟨service, authority, isBase⟩ := Provider.isBase_of_parseBaseUrl accepted
  obtain ⟨isDirectory, spelled⟩ := isBase.spell_directory
  have read : targetUrl base (String.ofList form.render) =
      .ok (base.below ⟨Path.spell form.segments, form.query?, none⟩) := by
    refine (targetUrl_eq_ok_iff accepted).mpr ⟨form.render, ?_, by rw [form.ofText_render]⟩
    rw [String.toList_ofList]
    exact form.appended?_render
  have steps : (Tail.mk (Path.spell form.segments) form.query? none).steps = form.segments := by
    refine Path.pieces_spell (by rfl) fun segment member c inSegment => ?_
    simpa using (form.isSegment segment member).unbroken c inSegment
  have path : (base.below ⟨Path.spell form.segments, form.query?, none⟩).path.toList =
      Text.stripEnd (· == '/') base.path.toList ++ Path.spell form.segments := by
    rw [below_path, steps, reach_of_ordinary form.nonempty fun segment member =>
      (form.isSegment segment member).ordinary, render_of_isSegment, Path.spell_append, spelled]
    · simp [form.nonempty]
    · intro segment member
      exact (List.mem_append.mp member).elim (isDirectory segment) (form.isSegment segment)
  have query : (base.below ⟨Path.spell form.segments, form.query?, none⟩).query?.map String.toList =
      form.query?.map escapeApostrophes := by
    rw [below_query, Option.map_map]
    refine Option.map_congr fun query stored => ?_
    rw [Function.comp_apply, String.toList_ofList]
    exact encode_of_isSpelled (form.isQuery query stored)
  refine ⟨_, read, path, query, rfl, ?_⟩
  rw [query]
  cases stored : form.query? with
  | none => simp
  | some query => simp [escapeApostrophes_eq_self_iff]

def quotingForm : OriginForm where
  segments := ["search".toList]
  query? := some "name='b'".toList
  nonempty := by simp
  isPath := by
    unfold IsDotSegment
    decide
  isQuery := by decide

theorem targetUrl_originForm_of_apostrophe :
    ∃ base url, Provider.parseBaseUrl "https://h/api/" = .ok base ∧
      targetUrl base (String.ofList quotingForm.render) = .ok url ∧
      url.query?.map String.toList = some "name=%27b%27".toList := by
  have succeeds : (Provider.parseBaseUrl "https://h/api/").isOk = true := by decide +kernel
  obtain ⟨base, accepted⟩ := exists_of_isOk succeeds
  obtain ⟨url, read, _, query, _⟩ := targetUrl_originForm accepted quotingForm
  exact ⟨base, url, accepted, read, query⟩

end IdentityRelay.Relay
