import IdentityRelay.Proofs.Text.Pieces

/-! The words of a text: a blank character divides it, and a text without blank
characters is one word. Parts that are joined bring their own characters and those
that are put between them. -/
namespace IdentityRelay.Text
variable {s t word : List Char}

/-- The words of a text and one blank between every two of them fit into it. -/
theorem length_words_le (s : List Char) :
    (words s).flatten.length + (words s).length ≤ s.length + 1 := by
  rw [← length_splitWhere isBlank s, words]
  induction splitWhere isBlank s with
  | nil => exact Nat.le_refl _
  | cons piece rest ih =>
    rw [List.filter_cons]
    split <;> simp only [List.flatten_cons, List.length_append, List.length_cons] <;> omega

theorem words_append_blank {c : Char} (blank : isBlank c = true) (s t : List Char) :
    words (s ++ c :: t) = words s ++ words t := by
  simp [words, splitWhere, List.splitOnP_append_cons s t blank]

theorem words_of_visible (nonempty : s ≠ []) (visible : ∀ c ∈ s, isBlank c = false) :
    words s = [s] := by
  simp [words, splitWhere, List.splitOnP_eq_singleton visible, nonempty]

theorem visible_of_mem_words (member : word ∈ words s) :
    word ≠ [] ∧ ∀ c ∈ word, isBlank c = false := by
  obtain ⟨isPiece, nonempty⟩ := List.mem_filter.mp member
  exact ⟨by simpa using nonempty, fun c => not_separator_of_mem_splitWhere isPiece⟩

theorem forall_mem_intercalate {p : Char → Prop} {between : List Char}
    {parts : List (List Char)} (holdsBetween : ∀ c ∈ between, p c)
    (holdsInside : ∀ part ∈ parts, ∀ c ∈ part, p c) : ∀ c ∈ between.intercalate parts, p c := by
  induction parts with
  | nil => simp
  | cons part rest ih =>
    have later := ih fun other member => holdsInside other (List.mem_cons_of_mem _ member)
    have first := holdsInside part List.mem_cons_self
    cases rest with
    | nil => simpa using first
    | cons next others =>
      rw [List.intercalate_cons_cons]
      intro c member
      rcases List.mem_append.mp member with front | back
      · rcases List.mem_append.mp front with inFirst | inBetween
        · exact first c inFirst
        · exact holdsBetween c inBetween
      · exact later c back

end IdentityRelay.Text
