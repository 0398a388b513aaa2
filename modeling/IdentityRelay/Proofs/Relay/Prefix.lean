import IdentityRelay.Proofs.Relay.Target

/-! The path of the base as a prefix of the paths that targets make. Dot segments of a
target are resolved behind the prefix, so they can lead out of it. -/
namespace IdentityRelay
variable {directory inner segments steps : List (List Char)}

namespace Url

/-- Whether the path of a URL is that of the base, without slashes at its end, or goes on
behind it. -/
def IsBelow (url base : Url) : Prop :=
  url.path.toList = Text.stripEnd (· == '/') base.path.toList ∨
    Text.stripEnd (· == '/') base.path.toList ++ ['/'] <+: url.path.toList

namespace Path

/-- Whether a walk goes above the directory where it began. It has gone down the inner
segments so far, which are given from the innermost outwards. -/
def climbs (inner : List (List Char)) : List (List Char) → Bool
  | [] => false
  | segment :: rest =>
    if isDoubleDot segment then inner.isEmpty || climbs (parent inner) rest
    else if isDot segment then climbs inner rest
    else climbs (segment :: inner) rest

private theorem parent_append (below : inner ≠ []) (outer : List (List Char)) :
    parent (inner ++ outer) = parent inner ++ outer := by
  cases inner with
  | nil => contradiction
  | cons segment rest =>
    rw [List.cons_append, parent, parent]
    split <;> rfl

theorem walk_append_of_stays (stays : climbs inner steps = false) (outer : List (List Char)) :
    walk (inner ++ outer) steps = outer.reverse ++ walk inner steps := by
  fun_induction walk inner steps with
  | case1 inner => simp [walk]
  | case2 inner last up =>
    have below : inner ≠ [] := by simpa [climbs, up] using stays
    simp [walk, up, parent_append below]
  | case3 inner last notUp here => simp [walk, notUp, here]
  | case4 inner last notUp notHere => simp [walk, notUp, notHere]
  | case5 inner segment rest more up ih =>
    obtain ⟨below, later⟩ : inner ≠ [] ∧ climbs (parent inner) rest = false := by
      simpa [climbs, up] using stays
    simp [walk, up, parent_append below, ih later]
  | case6 inner segment rest more notUp here ih =>
    have later : climbs inner rest = false := by simpa [climbs, notUp, here] using stays
    simp [walk, notUp, here, ih later]
  | case7 inner segment rest more notUp notHere ih =>
    have later : climbs (segment :: inner) rest = false := by
      simpa [climbs, notUp, notHere] using stays
    simpa [walk, more, notUp, notHere] using ih later

theorem spell_below_iff (isDirectory : ∀ segment ∈ directory, IsSegment segment)
    (areSegments : ∀ segment ∈ segments, IsSegment segment) :
    (spell segments = spell directory ∨ spell directory ++ ['/'] <+: spell segments) ↔
      directory <+: segments := by
  have read {rest : List Char} (absolute : ∀ c ∈ rest.head?, c = '/') :
      pieces (· == '/') (spell directory ++ rest) = directory ++ pieces (· == '/') rest :=
    pieces_spell_append rfl (ne_slash_of_isSegment isDirectory) absolute
  have whole : pieces (· == '/') (spell segments) = segments :=
    pieces_spell rfl (ne_slash_of_isSegment areSegments)
  constructor
  · rintro (same | ⟨rest, behind⟩)
    · rw [same, ← List.append_nil (spell directory), read (by simp)] at whole
      exact whole ▸ List.prefix_append _ _
    · rw [← behind, List.append_assoc, read (by simp)] at whole
      exact whole ▸ List.prefix_append _ _
  · rintro ⟨later, rfl⟩
    rw [spell_append]
    cases later with
    | nil => exact .inl (List.append_nil _)
    | cons segment others => exact .inr ⟨segment ++ spell others, by simp [spell]⟩

end Path

namespace IsBase
variable {base : Url} {service : Nat} {authority : Authority}

/-- The prefix is kept exactly when the walk that begins at its directory ends in it. -/
theorem isBelow_below_iff (isBase : base.IsBase service authority) (tail : Tail) :
    (base.below tail).IsBelow base ↔
      base.directory <+:
        (Path.reach base.directory tail.steps).map (Percent.encode Percent.path) := by
  obtain ⟨isDirectory, spelled⟩ := isBase.spell_directory
  rw [IsBelow, below_path, Path.render_eq_spell (Path.reach_ne_nil _ _), ← spelled]
  exact Path.spell_below_iff isDirectory <| Path.isSegment_of_mem_reach isDirectory
    fun step isStep c => Tail.unbroken_of_mem_steps isStep

/-- A walk that never goes above where it began ends below the prefix. -/
theorem isBelow_of_stays (isBase : base.IsBase service authority) {tail : Tail}
    (stays : Path.climbs [] tail.steps = false) : (base.below tail).IsBelow base := by
  have behind : base.directory <+: Path.reach base.directory tail.steps := by
    unfold Path.reach
    split
    · rename_i empty
      rw [List.isEmpty_iff, List.append_eq_nil_iff] at empty
      exact empty.1 ▸ List.nil_prefix
    · have walked := Path.walk_append_of_stays stays base.directory.reverse
      rw [List.nil_append, List.reverse_reverse] at walked
      exact walked ▸ List.prefix_append _ _
  have escaped := behind.map (Percent.encode Percent.path)
  rw [Path.map_encode_eq_self isBase.spell_directory.1] at escaped
  exact (isBase.isBelow_below_iff tail).mpr escaped

private theorem getLast?_directory_ne_nil (isBase : base.IsBase service authority) :
    base.directory.getLast? ≠ some [] := by
  intro last
  obtain ⟨front, whole⟩ := List.getLast?_eq_some_iff.mp last
  have spelled := isBase.spell_directory.2
  rw [whole, Path.spell_append, show Path.spell [[]] = ['/'] from rfl] at spelled
  have slash : '/' ∈ (Text.stripEnd (· == '/') base.path.toList).getLast? := by
    rw [← spelled]
    exact List.getLast?_concat
  exact absurd (Text.not_unwanted_of_mem_getLast?_stripEnd slash) (by decide)

/-- A step up leads above every prefix that is not ended by a drive. -/
theorem not_isBelow_of_stepUp (isBase : base.IsBase service authority)
    (prefixed : base.directory ≠ [])
    (noDrive : ∀ last ∈ base.directory.getLast?, Path.isDrive last = false) {tail : Tail}
    (steps : tail.steps = [['.', '.']]) : ¬ (base.below tail).IsBelow base := by
  rcases List.eq_nil_or_concat base.directory with empty | ⟨front, last, whole⟩
  · exact absurd empty prefixed
  · rw [List.concat_eq_append] at whole
    have isDirectory := isBase.spell_directory.1
    have named := isBase.getLast?_directory_ne_nil
    rw [isBase.isBelow_below_iff, steps]
    rw [whole] at isDirectory named noDrive ⊢
    have drive : Path.isDrive last = false := noDrive last List.getLast?_concat
    have up : Path.isDoubleDot ['.', '.'] = true := by decide
    have reached : Path.reach (front ++ [last]) [['.', '.']] = front ++ [[]] := by
      simp [Path.reach, Path.walk, up, Path.parent, drive]
    have escaped : front.map (Percent.encode Percent.path) = front :=
      Path.map_encode_eq_self fun segment member =>
        isDirectory segment (List.mem_append_left _ member)
    rw [reached, List.map_append, escaped, List.prefix_append_right_inj]
    rintro ⟨rest, same⟩
    injection same with same
    exact named (same ▸ List.getLast?_concat)

end IsBase

end Url

namespace Relay
open Url
variable {text target : String} {base url : Url}

/-- The prefix of the base is kept exactly when the walk of the target, which begins at the
directory of the base, ends in that directory or below. So it does if it never goes above
where it began. -/
theorem targetUrl_isBelow_iff (accepted : Provider.parseBaseUrl text = .ok base)
    (read : targetUrl base target = .ok url) :
    ∃ tail, appended? target.toList = some tail ∧
      (url.IsBelow base ↔ base.directory <+:
        (Path.reach base.directory (Tail.ofText tail).steps).map (Percent.encode Percent.path)) ∧
      (Path.climbs [] (Tail.ofText tail).steps = false → url.IsBelow base) := by
  obtain ⟨service, authority, isBase⟩ := Provider.isBase_of_parseBaseUrl accepted
  obtain ⟨tail, appended, rfl⟩ := (targetUrl_eq_ok_iff accepted).mp read
  exact ⟨tail, appended, isBase.isBelow_below_iff _, isBase.isBelow_of_stays⟩

def apiBase : Url where
  scheme := "https"
  authority? := some { host? := some (.name "h") }
  path := "/api"
  query? := none
  fragment? := none

theorem targetUrl_isBelow_iff_of_stepUp :
    ∃ base url, Provider.parseBaseUrl "https://h/api" = .ok base ∧
      targetUrl base "/../admin" = .ok url ∧ ¬ url.IsBelow base := by
  have accepted : Provider.parseBaseUrl "https://h/api" = .ok apiBase := by rfl
  have read : targetUrl apiBase "/../admin" =
      .ok (apiBase.below (Tail.ofText "/../admin".toList)) :=
    (targetUrl_eq_ok_iff accepted).mpr ⟨"/../admin".toList, by rfl, rfl⟩
  obtain ⟨tail, appended, kept, _⟩ := targetUrl_isBelow_iff accepted read
  obtain rfl : tail = "/../admin".toList := (Option.some.inj appended).symm
  exact ⟨_, _, accepted, read, fun below => absurd (kept.mp below) (by decide +kernel)⟩

/-- No prefix holds every target back, unless a drive ends it. -/
theorem exists_targetUrl_above (accepted : Provider.parseBaseUrl text = .ok base)
    (prefixed : base.directory ≠ [])
    (noDrive : ∀ last ∈ base.directory.getLast?, Path.isDrive last = false) :
    ∃ url, targetUrl base "/.." = .ok url ∧ ¬ url.IsBelow base := by
  obtain ⟨service, authority, isBase⟩ := Provider.isBase_of_parseBaseUrl accepted
  have read : targetUrl base "/.." = .ok (base.below (Tail.ofText "/..".toList)) :=
    (targetUrl_eq_ok_iff accepted).mpr ⟨"/..".toList, by rfl, rfl⟩
  exact ⟨_, read, isBase.not_isBelow_of_stepUp prefixed noDrive (by rfl)⟩

end Relay

end IdentityRelay
