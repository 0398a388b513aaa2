import IdentityRelay.Text.Split

/-! The pieces of a list: how long they are together, which lists are among them, and
what they are where lists were joined by a separator. -/
namespace IdentityRelay.Text
variable {α : Type} {isSeparator : α → Bool} {s piece : List α}

/-- The pieces of a list and the separators between them, one fewer, are the whole list. -/
theorem length_splitWhere (isSeparator : α → Bool) (s : List α) :
    (splitWhere isSeparator s).flatten.length + (splitWhere isSeparator s).length =
      s.length + 1 := by
  unfold splitWhere
  induction s with
  | nil => simp
  | cons c rest ih =>
    obtain ⟨first, others, pieces⟩ :=
      List.exists_cons_of_ne_nil (List.splitOnP_ne_nil isSeparator rest)
    rw [pieces, List.flatten_cons, List.length_append, List.length_cons] at ih
    rw [List.splitOnP_cons_eq_if_modifyHead, pieces]
    split
    · simp only [List.flatten_cons, List.length_append, List.length_nil, List.length_cons]
      omega
    · simp only [List.modifyHead_cons, List.flatten_cons, List.length_append, List.length_cons]
      omega

theorem length_le_of_mem_splitWhere (isPiece : piece ∈ splitWhere isSeparator s) :
    piece.length ≤ s.length := by
  have whole := length_splitWhere isSeparator s
  obtain ⟨before, after, pieces⟩ := List.append_of_mem isPiece
  simp only [pieces, List.flatten_append, List.flatten_cons, List.length_append,
    List.length_cons] at whole
  omega

theorem splitWhere_intercalate {c : α} (cuts : isSeparator c = true) {parts : List (List α)}
    (nonempty : parts ≠ []) :
    splitWhere isSeparator ([c].intercalate parts) = parts.flatMap (splitWhere isSeparator) := by
  induction parts with
  | nil => exact absurd rfl nonempty
  | cons part rest ih =>
    cases rest with
    | nil => simp
    | cons next others =>
      rw [List.intercalate_cons_cons, List.append_assoc, List.singleton_append, splitWhere,
        List.splitOnP_append_cons _ _ cuts, List.flatMap_cons, ← ih (List.cons_ne_nil _ _)]
      rfl

/-- The first piece reaches up to the first separator, and each of the others stands
between two. One more separator ends the last of them. -/
private theorem bounds_of_splitWhere [BEq α] [LawfulBEq α] {c : α} {first : List α}
    {others : List (List α)} (pieces : splitWhere (· == c) s = first :: others)
    (absent : c ∉ piece) :
    (piece ++ [c] <+: s ++ [c] ↔ piece = first) ∧
      (c :: (piece ++ [c]) <:+: s ++ [c] ↔ piece ∈ others) := by
  induction s generalizing piece first others with
  | nil =>
    cases pieces
    constructor
    · cases piece <;> simp
    · refine iff_of_false ?_ List.not_mem_nil
      intro inside
      have := inside.length_le
      simp at this
  | cons x rest ih =>
    obtain ⟨next, later, split⟩ :=
      List.exists_cons_of_ne_nil (List.splitOnP_ne_nil (· == c) rest)
    obtain ⟨atNext, inLater⟩ := ih split absent
    rw [splitWhere, List.splitOnP_cons_eq_if_modifyHead, split] at pieces
    by_cases here : x = c
    · subst here
      simp only [beq_self_eq_true, ↓reduceIte, List.cons.injEq] at pieces
      obtain ⟨rfl, rfl⟩ := pieces
      constructor
      · cases piece with
        | nil => simp
        | cons y piece =>
          have : y ≠ x := fun same => absent (same ▸ List.mem_cons_self)
          simp [this]
      · rw [List.cons_append, List.infix_cons_iff, List.cons_prefix_cons, inLater, atNext,
          List.mem_cons]
        simp
    · have kept : (x == c) = false := beq_eq_false_iff_ne.mpr here
      simp only [kept, Bool.false_eq_true, ↓reduceIte, List.modifyHead_cons,
        List.cons.injEq] at pieces
      obtain ⟨rfl, rfl⟩ := pieces
      constructor
      · cases piece with
        | nil => simp [Ne.symm here]
        | cons y piece =>
          obtain ⟨atNext, _⟩ := ih split (fun member => absent (List.mem_cons_of_mem _ member))
          rw [List.cons_append, List.cons_append, List.cons_prefix_cons, atNext, List.cons.injEq]
      · rw [List.cons_append, List.infix_cons_iff, List.cons_prefix_cons, inLater]
        simp [Ne.symm here]

/-- The pieces are what stands between two separators and holds none, where one more
separator is put at either end. -/
theorem mem_splitWhere_iff [BEq α] [LawfulBEq α] {c : α} :
    piece ∈ splitWhere (· == c) s ↔ c ∉ piece ∧ c :: (piece ++ [c]) <:+: c :: (s ++ [c]) := by
  obtain ⟨first, others, pieces⟩ :=
    List.exists_cons_of_ne_nil (List.splitOnP_ne_nil (· == c) s)
  have bounds (absent : c ∉ piece) :
      c :: (piece ++ [c]) <:+: c :: (s ++ [c]) ↔ piece ∈ splitWhere (· == c) s := by
    obtain ⟨atFirst, inOthers⟩ := bounds_of_splitWhere pieces absent
    rw [List.infix_cons_iff, List.cons_prefix_cons, atFirst, inOthers, splitWhere, pieces,
      List.mem_cons]
    simp
  constructor
  · intro isPiece
    have absent : c ∉ piece := fun member => by
      simpa using not_separator_of_mem_splitWhere isPiece member
    exact ⟨absent, (bounds absent).mpr isPiece⟩
  · rintro ⟨absent, between⟩
    exact (bounds absent).mp between

end IdentityRelay.Text
