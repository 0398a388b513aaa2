import IdentityRelay.Proofs.Text.Ascii
import IdentityRelay.Proofs.Text.Pieces
import IdentityRelay.Proofs.Text.Strip

/-! Lists that are written in one text, with commas between the elements. Blanks around an
element count for nothing, nor does an element without a character; so one list can be
written in many ways. -/
namespace IdentityRelay.Text
variable {s front gap back : List Char} {c : Char}

/-- The elements of a list, without the blanks around them and without the empty ones. -/
def listing (s : List Char) : List (List Char) :=
  ((splitWhere (· == ',') s).map trim).filter fun element => !element.isEmpty

/-- A text of blanks and commas, which lists nothing. -/
def IsGap (s : List Char) : Prop := ∀ c ∈ s, c = ',' ∨ isBlank c = true

instance (s : List Char) : Decidable (IsGap s) :=
  decidable_of_iff (s.all fun c => c == ',' || isBlank c) (by simp [IsGap])

/-- The second text is another writing of the list in the first. -/
inductive Respelled : List Char → List Char → Prop where
  | recase {s other : List Char} (same : other.map Char.toLower = s.map Char.toLower) :
      Respelled s other
  /-- A comma takes blanks around it, and further commas, with which there are elements
  that are empty. -/
  | spread (front back : List Char) {gap : List Char} (isGap : IsGap gap) (cuts : ',' ∈ gap) :
      Respelled (front ++ ',' :: back) (front ++ gap ++ back)
  | surround (s : List Char) {front back : List Char} (before : IsGap front)
      (after : IsGap back) : Respelled s (front ++ s ++ back)

/-! ### Elements of a text -/

theorem listing_append_cons (front back : List Char) :
    listing (front ++ ',' :: back) = listing front ++ listing back := by
  have cut : splitWhere (· == ',') (front ++ ',' :: back) =
      splitWhere (· == ',') front ++ splitWhere (· == ',') back :=
    List.splitOnP_append_cons _ _ (beq_self_eq_true _)
  rw [listing, cut, List.map_append, List.filter_append, ← listing, ← listing]

theorem listing_of_not_mem (whole : ',' ∉ s) :
    listing s = [trim s].filter fun element => !element.isEmpty := by
  have uncut : splitWhere (· == ',') s = [s] := List.splitOn_eq_singleton whole
  rw [listing, uncut, List.map_singleton]

theorem listing_intercalate (parts : List (List Char)) :
    listing ([','].intercalate parts) = parts.flatMap listing := by
  by_cases none : parts = []
  · subst none
    rfl
  · rw [listing, splitWhere_intercalate (by simp) none, List.map_flatMap, List.filter_flatMap]
    rfl

theorem listing_cons_of_isGap (isGap : c = ',' ∨ isBlank c = true) (s : List Char) :
    listing (c :: s) = listing s := by
  rcases isGap with rfl | blank
  · exact listing_append_cons [] s
  · have other : c ≠ ',' := by
      rintro rfl
      exact absurd blank (by decide)
    have dropped (piece : List Char) (whole : ',' ∉ piece) :
        listing (c :: piece) = listing piece := by
      have alsoWhole : ',' ∉ c :: piece := by simp [whole, other.symm]
      rw [listing_of_not_mem alsoWhole, listing_of_not_mem whole, trim,
        strip_cons_of_unwanted blank, ← trim]
    by_cases cuts : ',' ∈ s
    · obtain ⟨front, back, rfl, whole⟩ := List.eq_append_cons_of_mem cuts
      rw [← List.cons_append, listing_append_cons, listing_append_cons, dropped front whole]
    · exact dropped s cuts

/-- Only the last element can have the blank behind it, the one behind the last comma. -/
theorem listing_append_singleton_of_isGap (isGap : c = ',' ∨ isBlank c = true) (s : List Char) :
    listing (s ++ [c]) = listing s := by
  rcases isGap with rfl | blank
  · rw [listing_append_cons]
    exact List.append_nil _
  · by_cases cuts : ',' ∈ s
    · obtain ⟨front, back, rfl, _⟩ := List.eq_append_cons_of_mem cuts
      rw [List.append_assoc, List.cons_append, listing_append_cons, listing_append_cons,
        listing_append_singleton_of_isGap (.inr blank) back]
    · have other : c ≠ ',' := by
        rintro rfl
        exact absurd blank (by decide)
      have alsoWhole : ',' ∉ s ++ [c] := by simp [cuts, other.symm]
      rw [listing_of_not_mem alsoWhole, listing_of_not_mem cuts, trim,
        strip_append_right (List.forall_mem_singleton.mpr blank), ← trim]
termination_by s.length

theorem listing_gap_append (isGap : IsGap gap) (s : List Char) :
    listing (gap ++ s) = listing s := by
  induction gap with
  | nil => rfl
  | cons c rest ih =>
    obtain ⟨first, others⟩ := List.forall_mem_cons.mp isGap
    rw [List.cons_append, listing_cons_of_isGap first, ih others]

theorem listing_append_gap (isGap : IsGap gap) (s : List Char) :
    listing (s ++ gap) = listing s := by
  induction gap generalizing s with
  | nil => rw [List.append_nil]
  | cons c rest ih =>
    obtain ⟨first, others⟩ := List.forall_mem_cons.mp isGap
    rw [List.append_cons, ih others, listing_append_singleton_of_isGap first]

theorem listing_spread (isGap : IsGap gap) (cuts : ',' ∈ gap) (front back : List Char) :
    listing (front ++ gap ++ back) = listing (front ++ ',' :: back) := by
  obtain ⟨before, after, rfl⟩ := List.append_of_mem cuts
  obtain ⟨isBefore, isRest⟩ := List.forall_mem_append.mp isGap
  have isAfter : IsGap after := (List.forall_mem_cons.mp isRest).2
  calc listing (front ++ (before ++ ',' :: after) ++ back)
      = listing ((front ++ before) ++ ',' :: (after ++ back)) := by simp
    _ = listing front ++ listing back := by
        rw [listing_append_cons, listing_append_gap isBefore, listing_gap_append isAfter]
    _ = listing (front ++ ',' :: back) := (listing_append_cons front back).symm

/-! ### Elements in lower case -/

theorem isBlank_toLower (c : Char) : isBlank c.toLower = isBlank c := by
  rcases toLower_eq_self_or_isCapital c with same | ⟨_, last⟩
  · rw [same]
  · exact of_toNat_lt (p := fun c => isBlank c.toLower = isBlank c) (by decide) last

theorem toLower_beq_comma (c : Char) : (c.toLower == ',') = (c == ',') := by
  rcases toLower_eq_self_or_isCapital c with same | ⟨_, last⟩
  · rw [same]
  · exact of_toNat_lt (p := fun c => (c.toLower == ',') = (c == ',')) (by decide) last

theorem IsGap.map_toLower (isGap : IsGap gap) : IsGap (gap.map Char.toLower) := by
  intro c member
  obtain ⟨c, original, rfl⟩ := List.mem_map.mp member
  rw [isBlank_toLower, ← beq_iff_eq, toLower_beq_comma, beq_iff_eq]
  exact isGap c original

theorem trim_map_toLower (s : List Char) :
    trim (s.map Char.toLower) = (trim s).map Char.toLower := by
  have same : isBlank ∘ Char.toLower = isBlank := funext isBlank_toLower
  simp only [trim, strip, stripEnd, List.dropWhile_map, ← List.map_reverse, same]

theorem splitWhere_map_toLower (s : List Char) :
    splitWhere (· == ',') (s.map Char.toLower) =
      (splitWhere (· == ',') s).map (List.map Char.toLower) := by
  unfold splitWhere
  induction s with
  | nil => rfl
  | cons c rest ih =>
    rw [List.map_cons, List.splitOnP_cons_eq_if_modifyHead, List.splitOnP_cons_eq_if_modifyHead,
      toLower_beq_comma, ih]
    split
    · rfl
    · obtain ⟨first, others, pieces⟩ :=
        List.exists_cons_of_ne_nil (List.splitOnP_ne_nil (· == ',') rest)
      rw [pieces]
      rfl

theorem map_toLower_intercalate (parts : List (List Char)) :
    ([','].intercalate parts).map Char.toLower =
      [','].intercalate (parts.map (List.map Char.toLower)) := by
  induction parts with
  | nil => rfl
  | cons part rest ih =>
    cases rest with
    | nil => simp
    | cons next others =>
      rw [List.map_cons] at ih
      rw [List.map_cons, List.map_cons, List.intercalate_cons_cons, List.intercalate_cons_cons,
        List.map_append, List.map_append, ih]
      rfl

/-- The case of letters takes no part in where an element begins and ends. -/
theorem mem_listing_map_toLower {element : List Char} (nonempty : element ≠ []) :
    element ∈ listing (s.map Char.toLower) ↔
      ∃ piece ∈ splitWhere (· == ',') s, (trim piece).map Char.toLower = element := by
  rw [listing, splitWhere_map_toLower, List.mem_filter, List.map_map, List.mem_map]
  simp [nonempty, trim_map_toLower]

/-- All writings of a list have its elements, in their order. -/
theorem Respelled.listing_eq {other : List Char} (respelled : Respelled s other) :
    listing (other.map Char.toLower) = listing (s.map Char.toLower) := by
  cases respelled with
  | recase same => rw [same]
  | spread front back isGap cuts =>
    simp only [List.map_append, List.map_cons]
    exact listing_spread isGap.map_toLower (List.mem_map_of_mem cuts) _ _
  | surround s before after =>
    rw [List.map_append, List.map_append, listing_append_gap after.map_toLower,
      listing_gap_append before.map_toLower]

end IdentityRelay.Text
