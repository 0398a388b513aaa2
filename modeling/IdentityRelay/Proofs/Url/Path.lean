import IdentityRelay.Proofs.Text.Strip
import IdentityRelay.Proofs.Url.Percent
import IdentityRelay.Url.Parse

/-! Paths as lists of segments. A path that was read is read back as it stands, and a
walk that begins below a directory takes up the directory's own segments first. -/
namespace IdentityRelay.Url
variable {segment : List Char} {segments inner rest : List (List Char)}

namespace Path

/-- A segment that names neither the current directory nor the one above. -/
def IsOrdinary (segment : List Char) : Prop :=
  isDot segment = false ∧ isDoubleDot segment = false

/-- A segment as it stands in a path that was read. -/
structure IsSegment (segment : List Char) : Prop where
  plain : ∀ c ∈ segment, Percent.isPlain Percent.path c = true
  unbroken : ∀ c ∈ segment, c ≠ '/' ∧ c ≠ '\\'
  ordinary : IsOrdinary segment

theorem ne_slash_of_isSegment (areSegments : ∀ segment ∈ segments, IsSegment segment) :
    ∀ segment ∈ segments, ∀ c ∈ segment, (c == '/') = false := fun segment member c inSegment =>
  beq_eq_false_iff_ne.mpr ((areSegments segment member).unbroken c inSegment).1

/-- The text of a directory with these segments, without a slash at its end. -/
def spell (segments : List (List Char)) : List Char := segments.flatMap ('/' :: ·)

theorem spell_append (first second : List (List Char)) :
    spell (first ++ second) = spell first ++ spell second := List.flatMap_append

theorem spell_eq_cons (nonempty : segments ≠ []) :
    spell segments = '/' :: ['/'].intercalate segments := by
  induction segments with
  | nil => contradiction
  | cons segment rest ih =>
    cases rest with
    | nil => simp [spell]
    | cons next others =>
      rw [List.intercalate_cons_cons, List.append_assoc, spell, List.flatMap_cons]
      have later := ih (by simp)
      rw [spell] at later
      rw [later]
      rfl

theorem render_eq_spell (nonempty : segments ≠ []) :
    render segments = spell (segments.map (Percent.encode Percent.path)) :=
  (spell_eq_cons (by simpa using nonempty)).symm

theorem visible_of_mem_spell (areSegments : ∀ segment ∈ segments, IsSegment segment) {c : Char}
    (member : c ∈ spell segments) : 0x20 < c.toNat ∧ c ≠ '?' ∧ c ≠ '#' := by
  obtain ⟨segment, isSegment, inSegment⟩ := List.mem_flatMap.mp member
  rcases List.mem_cons.mp inSegment with rfl | inSegment
  · decide
  · obtain ⟨visible, own⟩ := Percent.visible_of_isPlain (by decide)
      ((areSegments segment isSegment).plain c inSegment)
    refine ⟨visible, ?_, ?_⟩
    · rintro rfl
      exact own (by decide)
    · rintro rfl
      exact own (by decide)

/-! ### Segments that are escaped -/

private def dotNames : List (List Char) :=
  [['.'], ['%', '2', 'e'], ['.', '.'], ['.', '%', '2', 'e'], ['%', '2', 'e', '.'],
    ['%', '2', 'e', '%', '2', 'e']]

private theorem eq_of_percent_infix {a b : Char} {name : List Char} (isName : name ∈ dotNames)
    (within : ['%', a, b] <:+: name) : a = '2' ∧ b = 'e' := by
  simp only [dotNames, List.mem_cons, List.not_mem_nil, or_false] at isName
  rcases isName with rfl | rfl | rfl | rfl | rfl | rfl <;>
    simp [List.infix_cons_iff, List.cons_prefix_cons] at within <;> exact within

private theorem eq_dot_of_escape {byte : UInt8} {name : List Char} (isName : name ∈ dotNames)
    (within : (Percent.escapeByte byte).map Char.toLower <:+: name) : byte = 0x2E := by
  obtain ⟨high, low⟩ := eq_of_percent_infix isName within
  have highDigit : ∀ n < 16, n.digitChar.toUpper.toLower = '2' → n = 2 := by decide
  have lowDigit : ∀ n < 16, n.digitChar.toUpper.toLower = 'e' → n = 14 := by decide
  have size := byte.toNat_lt
  have first := highDigit _ (by omega) high
  have second := lowDigit _ (by omega) low
  apply UInt8.toNat_inj.mp
  show byte.toNat = 46
  omega

/-- A segment that names a directory by dots has no escape but that of a dot. -/
private theorem byte_of_escape_within {byte : UInt8}
    (named : isDot segment = true ∨ isDoubleDot segment = true)
    (escape : Percent.escapeByte byte <:+: segment) : byte = 0x2E := by
  have isName : segment.map Char.toLower ∈ dotNames := by
    rw [show dotNames = dotNames.take 2 ++ dotNames.drop 2 from rfl, List.mem_append]
    exact named.imp List.contains_iff_mem.mp List.contains_iff_mem.mp
  exact eq_dot_of_escape isName (escape.map _)

/-- Escaping makes no segment a name of another directory. -/
theorem isOrdinary_encode (ordinary : IsOrdinary segment) :
    IsOrdinary (Percent.encode Percent.path segment) := by
  by_cases plain : ∀ c ∈ segment, Percent.isPlain Percent.path c = true
  · rw [Percent.encode_eq_self plain]
    exact ordinary
  · obtain ⟨c, member, special⟩ : ∃ c ∈ segment, Percent.isPlain Percent.path c = false := by
      simpa using plain
    obtain ⟨byte, ofChar, escape⟩ := Percent.escapeByte_infix_encode member special
    have dot : byte ≠ 0x2E := by
      rintro rfl
      rw [Utf8.eq_of_mem_encodeChar ofChar (by decide)] at special
      exact absurd special (by decide)
    constructor
    · exact Bool.eq_false_iff.mpr fun named => dot (byte_of_escape_within (.inl named) escape)
    · exact Bool.eq_false_iff.mpr fun named => dot (byte_of_escape_within (.inr named) escape)

theorem isSegment_encode (unbroken : ∀ c ∈ segment, c ≠ '/' ∧ c ≠ '\\')
    (ordinary : IsOrdinary segment) : IsSegment (Percent.encode Percent.path segment) where
  plain := fun _ member => Percent.isPlain_of_mem_encode Percent.keepsEscapes_path member
  unbroken := by
    intro c member
    rcases Percent.mem_of_mem_encode member with ⟨own, _⟩ | mark
    · exact unbroken c own
    · have each : ∀ c ∈ Percent.marks, c ≠ '/' ∧ c ≠ '\\' := Text.forall_mem_of_all (by decide)
      exact each c mark
  ordinary := isOrdinary_encode ordinary

theorem map_encode_eq_self (areSegments : ∀ segment ∈ segments, IsSegment segment) :
    segments.map (Percent.encode Percent.path) = segments := by
  refine (List.map_congr_left fun segment member => ?_).trans (List.map_id _)
  exact Percent.encode_eq_self (areSegments segment member).plain

/-! ### Walks -/

theorem walk_cons_of_ordinary (ordinary : IsOrdinary segment) :
    walk inner (segment :: rest) = walk (segment :: inner) rest := by
  cases rest <;> simp [walk, ordinary.1, ordinary.2]

/-- Ordinary segments are gone down into one after the other. -/
theorem walk_append_of_ordinary (ordinary : ∀ segment ∈ segments, IsOrdinary segment) :
    walk inner (segments ++ rest) = walk (segments.reverse ++ inner) rest := by
  induction segments generalizing inner with
  | nil => rfl
  | cons segment others ih =>
    rw [List.cons_append, walk_cons_of_ordinary (ordinary segment List.mem_cons_self),
      ih fun other member => ordinary other (List.mem_cons_of_mem _ member)]
    simp

theorem parent_suffix (inner : List (List Char)) : parent inner <:+ inner := by
  unfold parent
  split
  · exact List.suffix_refl _
  · split
    · exact List.suffix_refl _
    · exact List.suffix_cons _ _

/-- What a walk leads through: segments from where it began, ordinary ones that were gone
down into, and an empty one where it ends with dots. -/
theorem walk_forall {holds : List Char → Prop} (own : ∀ segment ∈ inner, holds segment)
    (empty : holds []) (taken : ∀ segment ∈ segments, IsOrdinary segment → holds segment) :
    ∀ segment ∈ walk inner segments, holds segment := by
  have above {inner : List (List Char)} (own : ∀ segment ∈ inner, holds segment) :
      ∀ segment ∈ parent inner, holds segment :=
    fun segment member => own segment ((parent_suffix inner).subset member)
  have last {inner : List (List Char)} {segment : List Char}
      (own : ∀ segment ∈ inner, holds segment) (taken : holds segment) :
      ∀ other ∈ (segment :: inner).reverse, holds other := by
    intro other member
    rcases List.mem_cons.mp (List.mem_reverse.mp member) with rfl | earlier
    · exact taken
    · exact own other earlier
  fun_induction walk inner segments with
  | case1 inner => exact fun segment member => own segment (List.mem_reverse.mp member)
  | case2 inner segment up => exact last (above own) empty
  | case3 inner segment notUp here => exact last own empty
  | case4 inner segment notUp notHere =>
    exact last own (taken segment List.mem_cons_self ⟨by simpa using notHere, by simpa using notUp⟩)
  | case5 inner segment rest _ up ih =>
    exact ih (above own) fun other member => taken other (List.mem_cons_of_mem _ member)
  | case6 inner segment rest _ notUp here ih =>
    exact ih own fun other member => taken other (List.mem_cons_of_mem _ member)
  | case7 inner segment rest _ notUp notHere ih =>
    have ordinary : IsOrdinary segment := ⟨by simpa using notHere, by simpa using notUp⟩
    refine ih ?_ fun other member => taken other (List.mem_cons_of_mem _ member)
    intro other member
    rcases List.mem_cons.mp member with rfl | earlier
    · exact taken _ List.mem_cons_self ordinary
    · exact own other earlier

theorem walk_ne_nil (some : segments ≠ []) : walk inner segments ≠ [] := by
  fun_induction walk inner segments with
  | case1 => contradiction
  | case5 inner segment rest more up ih => exact ih more
  | case6 inner segment rest more notUp here ih => exact ih more
  | case7 inner segment rest more notUp notHere ih => exact ih more
  | _ => simp

/-! ### Reading a path -/

theorem isSegment_nil : IsSegment [] := ⟨by simp, by simp, by decide, by decide⟩

theorem isSegment_of_mem_walk (own : ∀ segment ∈ inner, IsSegment segment)
    (unbroken : ∀ segment ∈ segments, ∀ c ∈ segment, c ≠ '/' ∧ c ≠ '\\') :
    ∀ segment ∈ (walk inner segments).map (Percent.encode Percent.path), IsSegment segment := by
  rw [List.forall_mem_map]
  refine walk_forall ?_ isSegment_nil fun segment taken ordinary =>
    isSegment_encode (unbroken segment taken) ordinary
  intro segment member
  rw [Percent.encode_eq_self (own segment member).plain]
  exact own segment member

theorem splitWhere_append_spell {isSlash : Char → Bool} (slash : isSlash '/' = true)
    (unbroken : ∀ segment ∈ segments, ∀ c ∈ segment, isSlash c = false) (front : List Char) :
    Text.splitWhere isSlash (front ++ spell segments) =
      Text.splitWhere isSlash front ++ segments := by
  induction segments generalizing front with
  | nil => simp [spell]
  | cons segment others ih =>
    have single : Text.splitWhere isSlash segment = [segment] :=
      List.splitOnP_eq_singleton (unbroken segment List.mem_cons_self)
    have later := ih (fun other member => unbroken other (List.mem_cons_of_mem _ member)) segment
    calc Text.splitWhere isSlash (front ++ spell (segment :: others))
        = Text.splitWhere isSlash front ++ Text.splitWhere isSlash (segment ++ spell others) :=
          List.splitOnP_append_cons _ _ slash
      _ = Text.splitWhere isSlash front ++ segment :: others := by rw [later, single]; rfl

/-- Slashes at the end of a path end empty segments. -/
theorem stripEnd_spell (unbroken : ∀ segment ∈ segments, ∀ c ∈ segment, (c == '/') = false) :
    Text.stripEnd (· == '/') (spell segments) = spell (Text.stripEnd List.isEmpty segments) := by
  obtain ⟨reversed, rfl⟩ : ∃ reversed : List (List Char), reversed.reverse = segments :=
    ⟨_, segments.reverse_reverse⟩
  induction reversed with
  | nil => rfl
  | cons last outer ih =>
    rw [List.reverse_cons, Text.stripEnd_append_singleton, spell_append]
    cases last with
    | nil =>
      rw [show spell [[]] = ['/'] from rfl, Text.stripEnd_append_singleton]
      exact ih fun segment member => unbroken segment (by simp at member; simp [member])
    | cons c rest =>
      rw [List.isEmpty_cons, ← spell_append]
      apply Text.stripEnd_eq_self
      intro final isLast
      have inLast : final ∈ c :: rest := by
        rw [spell_append, show spell [c :: rest] = '/' :: c :: rest by simp [spell],
          List.getLast?_append, List.getLast?_cons_cons, List.getLast?_eq_some_getLast (by simp),
          Option.some_or] at isLast
        exact Option.some.inj isLast ▸ List.getLast_mem _
      exact unbroken (c :: rest) (by simp) final inLast

/-- The segments that are reached from a directory. The root alone has one without a name. -/
def reach (directory pieces : List (List Char)) : List (List Char) :=
  if (directory ++ pieces).isEmpty then [[]] else walk directory.reverse pieces

theorem reach_ne_nil (directory pieces : List (List Char)) : reach directory pieces ≠ [] := by
  unfold reach
  split
  · simp
  · rename_i some
    cases pieces with
    | nil => simpa [walk] using some
    | cons piece rest => exact walk_ne_nil (by simp)

theorem isSegment_of_mem_reach {directory pieces : List (List Char)}
    (isDirectory : ∀ segment ∈ directory, IsSegment segment)
    (unbroken : ∀ piece ∈ pieces, ∀ c ∈ piece, c ≠ '/' ∧ c ≠ '\\') :
    ∀ segment ∈ (reach directory pieces).map (Percent.encode Percent.path), IsSegment segment := by
  unfold reach
  split
  · simpa [Percent.encode] using isSegment_nil
  · exact isSegment_of_mem_walk (by simpa using isDirectory) unbroken

def pieces (isSlash : Char → Bool) : List Char → List (List Char)
  | [] => []
  | _ :: rest => Text.splitWhere isSlash rest

theorem not_slash_of_mem_pieces {isSlash : Char → Bool} {text piece : List Char}
    (isPiece : piece ∈ pieces isSlash text) {c : Char} (member : c ∈ piece) :
    isSlash c = false := by
  cases text with
  | nil => cases isPiece
  | cons first rest => exact Text.not_separator_of_mem_splitWhere isPiece member

theorem pieces_eq_nil_iff {isSlash : Char → Bool} {text : List Char} :
    pieces isSlash text = [] ↔ text = [] := by
  cases text with
  | nil => simp [pieces]
  | cons c rest => simp [pieces, Text.splitWhere, List.splitOnP_ne_nil]

/-- The pieces of a path behind a directory are the directory's segments, then those of the path. -/
theorem pieces_spell_append {isSlash : Char → Bool} (slash : isSlash '/' = true)
    (unbroken : ∀ segment ∈ segments, ∀ c ∈ segment, isSlash c = false) {text : List Char}
    (absolute : ∀ c ∈ text.head?, c = '/') :
    pieces isSlash (spell segments ++ text) = segments ++ pieces isSlash text := by
  cases segments with
  | nil => rfl
  | cons first others =>
    have single : Text.splitWhere isSlash first = [first] :=
      List.splitOnP_eq_singleton (unbroken first List.mem_cons_self)
    have whole : Text.splitWhere isSlash (first ++ spell others) = first :: others := by
      rw [splitWhere_append_spell slash
        (fun segment member => unbroken segment (List.mem_cons_of_mem _ member)), single]
      rfl
    have behind : pieces isSlash (spell (first :: others) ++ text) =
        Text.splitWhere isSlash ((first ++ spell others) ++ text) := by
      simp [pieces, spell]
    rw [behind]
    cases text with
    | nil =>
      rw [List.append_nil, whole]
      exact (List.append_nil _).symm
    | cons c rest =>
      obtain rfl := absolute c rfl
      rw [← whole]
      exact List.splitOnP_append_cons _ _ slash

theorem pieces_spell {isSlash : Char → Bool} (slash : isSlash '/' = true)
    (unbroken : ∀ segment ∈ segments, ∀ c ∈ segment, isSlash c = false) :
    pieces isSlash (spell segments) = segments := by
  have whole : pieces isSlash (spell segments ++ []) = segments ++ pieces isSlash [] :=
    pieces_spell_append slash unbroken (by simp)
  simpa [pieces] using whole

end Path

section
variable {service : Nat}

theorem isSlash_special (service : Nat) :
    (SchemeKind.special service).isSlash = fun c => c == '/' || c == '\\' := by
  have special : (SchemeKind.special service).isSpecial = true := rfl
  funext c
  rw [SchemeKind.isSlash, special, Bool.and_true]

private theorem isSlash_iff {c : Char} :
    (SchemeKind.special service).isSlash c = true ↔ c = '/' ∨ c = '\\' := by
  simp [isSlash_special]

private theorem isSlash_eq_false {c : Char} (unbroken : c ≠ '/' ∧ c ≠ '\\') :
    (SchemeKind.special service).isSlash c = false := by
  rw [← Bool.not_eq_true, isSlash_iff]
  simpa using unbroken

/-- A path that was read holds segments of which each is as it is written. -/
theorem exists_segments (s : List Char) :
    ∃ segments, segments ≠ [] ∧ (∀ segment ∈ segments, Path.IsSegment segment) ∧
      pathAfterAuthority (.special service) s = Path.spell segments := by
  cases s with
  | nil =>
    exact ⟨[[]], by simp, by simpa using Path.isSegment_nil, rfl⟩
  | cons c rest =>
    have nonempty : ∀ s, Text.splitWhere (SchemeKind.special service).isSlash s ≠ [] :=
      fun s => List.splitOnP_ne_nil _ s
    simp only [pathAfterAuthority, Path.absolute, Path.resolve]
    generalize (if (SchemeKind.special service).isSlash c = true then rest else c :: rest) = text
    refine ⟨_, ?_, ?_, Path.render_eq_spell (Path.walk_ne_nil (nonempty text))⟩
    · simpa using Path.walk_ne_nil (nonempty text)
    · refine Path.isSegment_of_mem_walk (by simp) fun piece isPiece c inPiece => ?_
      have unbroken := Text.not_separator_of_mem_splitWhere isPiece inPiece
      rw [← Bool.not_eq_true, isSlash_iff] at unbroken
      simpa using unbroken

/-- A path behind a directory is read as the walk from there. -/
theorem pathAfterAuthority_spell {directory : List (List Char)}
    (isDirectory : ∀ segment ∈ directory, Path.IsSegment segment) {text : List Char}
    (absolute : ∀ c ∈ text.head?, c = '/') :
    pathAfterAuthority (.special service) (Path.spell directory ++ text) =
      Path.render (Path.reach directory
        (Path.pieces (SchemeKind.special service).isSlash text)) := by
  have slash : (SchemeKind.special service).isSlash '/' = true := isSlash_iff.mpr (.inl rfl)
  have unbroken : ∀ segment ∈ directory, ∀ c ∈ segment,
      (SchemeKind.special service).isSlash c = false :=
    fun segment member c inSegment =>
      isSlash_eq_false ((isDirectory segment member).unbroken c inSegment)
  have split := Path.pieces_spell_append slash unbroken absolute
  have walked : Path.walk [] (directory ++ Path.pieces (SchemeKind.special service).isSlash text) =
      Path.walk directory.reverse (Path.pieces (SchemeKind.special service).isSlash text) := by
    rw [Path.walk_append_of_ordinary fun segment member => (isDirectory segment member).ordinary,
      List.append_nil]
  cases whole : Path.spell directory ++ text with
  | nil =>
    have none : directory ++ Path.pieces (SchemeKind.special service).isSlash text = [] := by
      rw [← split, whole]
      rfl
    obtain ⟨rfl, noPieces⟩ := List.append_eq_nil_iff.mp none
    rw [noPieces]
    rfl
  | cons c rest =>
    have first : c = '/' := by
      cases directory with
      | nil => exact absolute c (by rw [show text = c :: rest from whole]; rfl)
      | cons segment others =>
        injection whole with same
        exact same.symm
    have some :
        (Path.pieces (SchemeKind.special service).isSlash ('/' :: rest)).isEmpty = false := by
      rw [← Bool.not_eq_true, List.isEmpty_iff, Path.pieces_eq_nil_iff]
      exact List.cons_ne_nil _ _
    rw [whole, first] at split
    rw [Path.reach, ← walked, ← split, some, first]
    simp only [pathAfterAuthority, slash, if_true]
    rfl

end

end IdentityRelay.Url
