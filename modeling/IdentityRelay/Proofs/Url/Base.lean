import IdentityRelay.Proofs.Url.Authority
import IdentityRelay.Proofs.Url.Path

/-! Web addresses that stand in front of other texts. What follows a base is read as a
path below its directory, a query and a fragment; the scheme and the authority stay. -/
namespace IdentityRelay.Url
variable {base : Url} {service : Nat} {authority : Authority} {tail : List Char}

/-- The segments of the directory below which other paths are appended. -/
def directory (url : Url) : List (List Char) :=
  Path.pieces (· == '/') (Text.stripEnd (· == '/') url.path.toList)

/-- A web address with nothing behind its path, as it stands when it was read. -/
structure IsBase (base : Url) (service : Nat) (authority : Authority) : Prop where
  web : base.scheme = "http" ∨ base.scheme = "https"
  kind : SchemeKind.ofScheme base.scheme = .special service
  stored : base.authority? = some authority
  normal : authority.IsNormal service
  path : ∃ segments, segments ≠ [] ∧ (∀ segment ∈ segments, Path.IsSegment segment) ∧
    base.path.toList = Path.spell segments
  query : base.query? = none
  fragment : base.fragment? = none

structure Tail where
  path : List Char
  query? : Option (List Char)
  fragment? : Option (List Char)
  deriving DecidableEq, Repr

namespace Tail

def split (s : List Char) : Tail :=
  let (rest, fragment?) := cutMark '#' s
  let (path, query?) := cutMark '?' rest
  { path, query?, fragment? }

/-- A text without the blanks at its end and without any tab or line break. -/
def clean (s : List Char) : List Char :=
  (Text.stripEnd (fun c => c.toNat ≤ 0x20) s).filter fun c => !(c == '\t' || c == '\n' || c == '\r')

theorem clean_append {front : List Char} (visible : ∀ c ∈ front, 0x20 < c.toNat) (s : List Char) :
    clean (front ++ s) = front ++ clean s := by
  have ends : ∀ c ∈ front.getLast?, decide (c.toNat ≤ 0x20) = false := fun c last =>
    decide_eq_false (Nat.not_le.mpr (visible c (List.mem_of_mem_getLast? last)))
  have kept : front.filter (fun c => !(c == '\t' || c == '\n' || c == '\r')) = front := by
    rw [List.filter_eq_self]
    intro c member
    have large := visible c member
    have apart : ∀ control ∈ ['\t', '\n', '\r'], c ≠ control := by
      rintro control isControl rfl
      have each : ∀ control ∈ ['\t', '\n', '\r'], ¬ 0x20 < control.toNat :=
        Text.forall_mem_of_all (by decide)
      exact each c isControl large
    simpa [and_assoc] using apart
  have stripped := Text.stripEnd_append ends s
  rw [clean, stripped, List.filter_append, kept]
  rfl

theorem clean_eq_self {s : List Char} (visible : ∀ c ∈ s, 0x20 < c.toNat) : clean s = s := by
  have whole : clean (s ++ []) = s ++ [] := clean_append visible []
  rwa [List.append_nil] at whole

def ofText (s : List Char) : Tail := split (clean s)

/-- The pieces of the path, in which a backslash counts as a slash. -/
def steps (tail : Tail) : List (List Char) :=
  Path.pieces (fun c => c == '/' || c == '\\') tail.path

theorem unbroken_of_mem_steps {tail : Tail} {step : List Char} (isStep : step ∈ tail.steps)
    {c : Char} (member : c ∈ step) : c ≠ '/' ∧ c ≠ '\\' := by
  simpa using Path.not_slash_of_mem_pieces isStep member

def isPath (tail : Tail) : Bool := tail.query?.isNone && tail.fragment?.isNone

theorem split_append {front : List Char} (hash : '#' ∉ front) (mark : '?' ∉ front) (s : List Char) :
    split (front ++ s) = { split s with path := front ++ (split s).path } := by
  simp only [split, cutMark_append hash, cutMark_append mark]

theorem split_cons_of_ne {c : Char} (hash : c ≠ '#') (mark : c ≠ '?') (s : List Char) :
    split (c :: s) = { split s with path := c :: (split s).path } := by
  have noHash : '#' ∉ [c] := by simpa using Ne.symm hash
  have noMark : '?' ∉ [c] := by simpa using Ne.symm mark
  exact split_append noHash noMark s

end Tail

/-! ### Reading an address -/

private theorem parse_of_cut {s scheme : String} {rest : List Char}
    (cut : cutScheme? (clean s.toList) = some (scheme, rest)) :
    parse s = (readHierarchy (SchemeKind.ofScheme scheme) (Tail.split rest).isPath
        (Tail.split rest).path).map fun found =>
      { scheme, authority? := found.1, path := String.ofList found.2
        query? := (Tail.split rest).query?.map fun query => String.ofList (Percent.encode
          (if (SchemeKind.ofScheme scheme).isSpecial then Percent.specialQuery else Percent.query)
          query)
        fragment? := (Tail.split rest).fragment?.map fun fragment =>
          String.ofList (Percent.encode Percent.fragment fragment) } := by
  unfold parse
  rw [cut]
  rfl

private theorem readHierarchy_special (service : Nat) (atEnd : Bool) (s : List Char) :
    readHierarchy (.special service) atEnd s =
      (readAuthority (.special service)
          (atEnd && ((s.dropWhile (SchemeKind.special service).isSlash).dropWhile
            fun c => !(SchemeKind.special service).isSlash c).isEmpty)
          ((s.dropWhile (SchemeKind.special service).isSlash).takeWhile
            fun c => !(SchemeKind.special service).isSlash c)).map fun found =>
        (some found.1, pathAfterAuthority (.special service) (found.2 ++
          (s.dropWhile (SchemeKind.special service).isSlash).dropWhile
            fun c => !(SchemeKind.special service).isSlash c)) := rfl

private theorem ofScheme_web {scheme : String} (web : scheme = "http" ∨ scheme = "https") :
    ∃ service, SchemeKind.ofScheme scheme = .special service := by
  rcases web with rfl | rfl
  · exact ⟨80, rfl⟩
  · exact ⟨443, rfl⟩

private theorem cutScheme?_web {scheme : String} (web : scheme = "http" ∨ scheme = "https")
    (rest : List Char) : cutScheme? (scheme.toList ++ ':' :: rest) = some (scheme, rest) := by
  rcases web with rfl | rfl
  · rw [cutScheme?, Text.cut?_singleton (by decide)]
    rfl
  · rw [cutScheme?, Text.cut?_singleton (by decide)]
    rfl

theorem isBase_of_parse {s : String} (read : parse s = .ok base)
    (web : base.scheme = "http" ∨ base.scheme = "https") (noQuery : base.query? = none)
    (noFragment : base.fragment? = none) : ∃ service authority, base.IsBase service authority := by
  cases cut : cutScheme? (clean s.toList) with
  | none =>
    unfold parse at read
    rw [cut] at read
    cases read
  | some parts =>
    rw [parse_of_cut cut] at read
    obtain ⟨⟨authority?, path⟩, found, rfl⟩ := map_eq_ok_iff.mp read
    obtain ⟨service, special⟩ := ofScheme_web web
    rw [special, readHierarchy_special] at found
    obtain ⟨⟨authority, leftover⟩, authorityRead, same⟩ := map_eq_ok_iff.mp found
    cases same
    obtain ⟨segments, nonempty, areSegments, spelled⟩ := exists_segments _
    exact ⟨service, authority, web, special, rfl, Authority.isNormal_of_read authorityRead,
      ⟨segments, nonempty, areSegments, by rw [← spelled, String.toList_ofList]⟩,
      noQuery, noFragment⟩

/-! ### The text of a base -/

namespace IsBase

/-- The path without slashes at its end is the directory, spelled out. -/
theorem spell_directory (isBase : base.IsBase service authority) :
    (∀ segment ∈ base.directory, Path.IsSegment segment) ∧
      Path.spell base.directory = Text.stripEnd (· == '/') base.path.toList := by
  obtain ⟨segments, _, areSegments, spelled⟩ := isBase.path
  have stripped := Path.stripEnd_spell (Path.ne_slash_of_isSegment areSegments)
  rw [← spelled] at stripped
  have kept : ∀ segment ∈ Text.stripEnd List.isEmpty segments, Path.IsSegment segment :=
    fun segment member => areSegments segment ((Text.stripEnd_isPrefix _ _).subset member)
  have same : base.directory = Text.stripEnd List.isEmpty segments := by
    rw [directory, stripped]
    exact Path.pieces_spell (by rfl) (Path.ne_slash_of_isSegment kept)
  exact ⟨same ▸ kept, by rw [same, stripped]⟩

theorem renderFront_eq (isBase : base.IsBase service authority) :
    base.renderFront = base.scheme.toList ++ [':', '/', '/'] ++ authority.render := by
  rw [renderFront, isBase.stored]
  simp

theorem stripEnd_render (isBase : base.IsBase service authority) :
    Text.stripEnd (· == '/') base.render = base.renderFront ++ Path.spell base.directory := by
  have whole : base.render = base.renderFront ++ base.path.toList := by
    simp [render, renderBack, isBase.query, isBase.fragment]
  rw [whole, isBase.spell_directory.2]
  apply Text.stripEnd_append
  intro c last
  have inAuthority : c ∈ authority.render := by
    rcases List.eq_nil_or_concat authority.render with empty | ⟨front, final, ends⟩
    · exact absurd empty (Authority.render_ne_nil isBase.normal)
    · rw [List.concat_eq_append] at ends
      rw [isBase.renderFront_eq, ends, ← List.append_assoc, List.getLast?_concat] at last
      cases last
      simp [ends]
  have free := (Authority.mem_render isBase.normal inAuthority).2
  refine beq_eq_false_iff_ne.mpr ?_
  rintro rfl
  exact free (by decide)

theorem mem_front (isBase : base.IsBase service authority) {c : Char}
    (member : c ∈ base.renderFront ++ Path.spell base.directory) :
    0x20 < c.toNat ∧ c ≠ '?' ∧ c ≠ '#' := by
  have inFront {scheme : String} (web : scheme = "http" ∨ scheme = "https") :
      ∀ c ∈ scheme.toList ++ [':', '/', '/'], 0x20 < c.toNat ∧ c ≠ '?' ∧ c ≠ '#' := by
    rcases web with rfl | rfl <;> exact Text.forall_mem_of_all (by decide)
  rw [isBase.renderFront_eq, List.mem_append, List.mem_append (t := authority.render)] at member
  rcases member with (inScheme | inAuthority) | inDirectory
  · exact inFront isBase.web c inScheme
  · obtain ⟨visible, free⟩ := Authority.mem_render isBase.normal inAuthority
    refine ⟨visible, ?_, ?_⟩
    · rintro rfl
      exact free (by decide)
    · rintro rfl
      exact free (by decide)
  · exact Path.visible_of_mem_spell isBase.spell_directory.1 inDirectory

theorem cutScheme?_front (isBase : base.IsBase service authority) (rest : List Char) :
    cutScheme? (base.renderFront ++ rest) =
      some (base.scheme, '/' :: '/' :: (authority.render ++ rest)) := by
  rw [isBase.renderFront_eq, List.append_assoc, List.append_assoc]
  exact cutScheme?_web isBase.web _

end IsBase

/-! ### Reading what stands behind a base -/

private theorem clean_eq {s : List Char} (visible : ∀ c ∈ s.head?, 0x20 < c.toNat) :
    clean s = Tail.clean s := by
  cases s with
  | nil => rfl
  | cons c rest =>
    have wanted : ¬ c.toNat ≤ 0x20 := Nat.not_le.mpr (visible c rfl)
    simp [clean, Tail.clean, Text.strip, wanted]

private theorem absolute_ofText (absolute : ∀ c ∈ tail.head?, c = '/') :
    ∀ c ∈ (Tail.ofText tail).path.head?, c = '/' := by
  cases tail with
  | nil =>
    have empty : (Tail.ofText []).path = [] := rfl
    simp [empty]
  | cons c rest =>
    obtain rfl := absolute c rfl
    have visible : ∀ c ∈ ['/'], 0x20 < c.toNat := Text.forall_mem_of_all (by decide)
    have cleaned : Tail.clean ('/' :: rest) = '/' :: Tail.clean rest :=
      Tail.clean_append visible rest
    have begins : (Tail.ofText ('/' :: rest)).path = '/' :: (Tail.ofText rest).path := by
      rw [Tail.ofText, cleaned, Tail.split_cons_of_ne (by decide) (by decide)]
      rfl
    simp [begins]

private theorem readHierarchy_base (isBase : base.IsBase service authority) (atEnd : Bool)
    {path : List Char} (absolute : ∀ c ∈ path.head?, c = '/') :
    readHierarchy (.special service) atEnd ('/' :: '/' :: (authority.render ++ path)) =
      .ok (some authority, pathAfterAuthority (.special service) path) := by
  have inAuthority : ∀ c ∈ authority.render, (SchemeKind.special service).isSlash c = false := by
    intro c member
    have free := (Authority.mem_render isBase.normal member).2
    rw [isSlash_special, Bool.or_eq_false_iff, beq_eq_false_iff_ne, beq_eq_false_iff_ne]
    exact ⟨fun same => free (by simp [same]), fun same => free (by simp [same])⟩
  have behind : ('/' :: '/' :: (authority.render ++ path)).dropWhile
      (SchemeKind.special service).isSlash = authority.render ++ path := by
    obtain ⟨first, rest, begins⟩ :=
      List.exists_cons_of_ne_nil (Authority.render_ne_nil isBase.normal)
    have stays := inAuthority first (by simp [begins])
    rw [begins, List.cons_append]
    rw [isSlash_special] at stays ⊢
    simp only [List.dropWhile_cons, stays]
    rfl
  have ends : path.takeWhile (fun c => !(SchemeKind.special service).isSlash c) = [] ∧
      path.dropWhile (fun c => !(SchemeKind.special service).isSlash c) = path := by
    cases path with
    | nil => exact ⟨rfl, rfl⟩
    | cons c rest =>
      obtain rfl := absolute c rfl
      simp [isSlash_special]
  have inside : ∀ c ∈ authority.render, (!(SchemeKind.special service).isSlash c) = true := by
    simpa using inAuthority
  rw [readHierarchy_special, behind, List.takeWhile_append_of_pos inside,
    List.dropWhile_append_of_pos inside, ends.1, ends.2, List.append_nil,
    Authority.read_render isBase.normal]
  rfl

/-- The address that the parts of a text make behind a base. -/
def below (base : Url) (tail : Tail) : Url :=
  { base with
    path := String.ofList (Path.render (Path.reach base.directory tail.steps))
    query? := tail.query?.map fun query =>
      String.ofList (Percent.encode Percent.specialQuery query)
    fragment? := tail.fragment?.map fun fragment =>
      String.ofList (Percent.encode Percent.fragment fragment) }

@[simp] theorem below_scheme (base : Url) (tail : Tail) :
    (base.below tail).scheme = base.scheme := by
  unfold below
  rfl

@[simp] theorem below_authority (base : Url) (tail : Tail) :
    (base.below tail).authority? = base.authority? := by
  unfold below
  rfl

theorem below_path (base : Url) (tail : Tail) :
    (base.below tail).path.toList = Path.render (Path.reach base.directory tail.steps) := by
  rw [below, String.toList_ofList]

theorem below_query (base : Url) (tail : Tail) :
    (base.below tail).query? = tail.query?.map fun query =>
      String.ofList (Percent.encode Percent.specialQuery query) := by
  unfold below
  rfl

private theorem clean_front (isBase : base.IsBase service authority) (tail : List Char) :
    clean (base.renderFront ++ Path.spell base.directory ++ tail) =
      base.renderFront ++ (Path.spell base.directory ++ Tail.clean tail) := by
  have visible : ∀ c ∈ base.renderFront ++ Path.spell base.directory, 0x20 < c.toNat :=
    fun c member => (isBase.mem_front member).1
  obtain ⟨first, rest, front⟩ := List.exists_cons_of_ne_nil
    (by simp [renderFront] : base.renderFront ≠ [])
  have begins : ∀ c ∈ (base.renderFront ++ Path.spell base.directory ++ tail).head?,
      0x20 < c.toNat := by
    intro c isFirst
    rw [front] at isFirst visible
    cases isFirst
    exact visible first List.mem_cons_self
  rw [clean_eq begins, Tail.clean_append visible, List.append_assoc]

private theorem split_front (isBase : base.IsBase service authority) (tail : List Char) :
    Tail.split ('/' :: '/' :: (authority.render ++
        (Path.spell base.directory ++ Tail.clean tail))) =
      { Tail.ofText tail with
        path := '/' :: '/' :: (authority.render ++
          (Path.spell base.directory ++ (Tail.ofText tail).path)) } := by
  have unmarked : ∀ c ∈ '/' :: '/' :: (authority.render ++ Path.spell base.directory),
      c ≠ '?' ∧ c ≠ '#' := by
    intro c member
    have whole : base.renderFront ++ Path.spell base.directory = base.scheme.toList ++ [':'] ++
        '/' :: '/' :: (authority.render ++ Path.spell base.directory) := by
      simp [isBase.renderFront_eq]
    exact (isBase.mem_front (whole ▸ List.mem_append_right _ member)).2
  simpa [Tail.ofText] using Tail.split_append (fun hash => (unmarked _ hash).2 rfl)
    (fun mark => (unmarked _ mark).1 rfl) (Tail.clean tail)

/-- What follows a base is a path below its directory, a query and a fragment. -/
theorem parse_behind (isBase : base.IsBase service authority)
    (absolute : ∀ c ∈ tail.head?, c = '/') :
    parse (String.ofList (Text.stripEnd (· == '/') base.render ++ tail)) =
      .ok (base.below (Tail.ofText tail)) := by
  have cut : cutScheme? (clean (String.ofList
      (base.renderFront ++ Path.spell base.directory ++ tail)).toList) =
        some (base.scheme, '/' :: '/' :: (authority.render ++
          (Path.spell base.directory ++ Tail.clean tail))) := by
    rw [String.toList_ofList, clean_front isBase]
    exact isBase.cutScheme?_front _
  have behind : ∀ c ∈ (Path.spell base.directory ++ (Tail.ofText tail).path).head?, c = '/' := by
    cases base.directory with
    | nil => exact absolute_ofText absolute
    | cons segment others => simp [Path.spell]
  rw [isBase.stripEnd_render, parse_of_cut cut, isBase.kind, split_front isBase,
    readHierarchy_base isBase _ behind,
    pathAfterAuthority_spell isBase.spell_directory.1 (absolute_ofText absolute),
    isSlash_special, below, isBase.stored]
  rfl

end IdentityRelay.Url
