import IdentityRelay.Text.Blank

/-! Cutting a list at a separator: once at its first occurrence, or everywhere.
A cut loses nothing: the two sides around the separator are the whole list. -/
namespace IdentityRelay.Text
variable {α : Type}

private def cutFrom [BEq α] (separator : List α) (seen : List α) : List α → Option (List α × List α)
  | [] => if separator.isEmpty then some (seen.reverse, []) else none
  | c :: rest =>
    if separator.isPrefixOf (c :: rest) then
      some (seen.reverse, (c :: rest).drop separator.length)
    else cutFrom separator (c :: seen) rest

/-- The parts before and after the first occurrence of `separator`. -/
def cut? [BEq α] (separator s : List α) : Option (List α × List α) := cutFrom separator [] s

/-- The pieces of a list between its separators. There is one piece more than
there are separators. -/
def splitWhere (isSeparator : α → Bool) (s : List α) : List (List α) := s.splitOnP isSeparator

/-- No piece holds a separator. -/
theorem not_separator_of_mem_splitWhere {isSeparator : α → Bool} {s piece : List α} {c : α}
    (isPiece : piece ∈ splitWhere isSeparator s) (member : c ∈ piece) : isSeparator c = false := by
  unfold splitWhere at isPiece
  induction s generalizing piece with
  | nil =>
    simp only [List.splitOnP_nil, List.mem_singleton] at isPiece
    simp [isPiece] at member
  | cons first rest ih =>
    rw [List.splitOnP_cons_eq_if_modifyHead] at isPiece
    obtain ⟨head, tail, pieces⟩ := List.exists_cons_of_ne_nil (List.splitOnP_ne_nil isSeparator rest)
    split at isPiece
    · rcases List.mem_cons.mp isPiece with same | later
      · simp [same] at member
      · exact ih later member
    · rename_i kept
      rw [pieces, List.modifyHead_cons] at isPiece
      rcases List.mem_cons.mp isPiece with same | later
      · rw [same] at member
        rcases List.mem_cons.mp member with own | inHead
        · simpa [own] using kept
        · exact ih (by simp [pieces]) inHead
      · exact ih (by simp [pieces, later]) member

/-- The maximal runs of characters that are not blank. -/
def words (s : List Char) : List (List Char) :=
  (splitWhere isBlank s).filter (fun piece => !piece.isEmpty)

private theorem cutFrom_eq_map [BEq α] (separator seen s : List α) :
    cutFrom separator seen s =
      (cutFrom separator [] s).map (fun parts => (seen.reverse ++ parts.1, parts.2)) := by
  induction s generalizing seen with
  | nil => simp only [cutFrom]; split <;> simp
  | cons c rest ih =>
    simp only [cutFrom]
    split
    · simp
    · rw [ih (c :: seen), ih [c], Option.map_map]
      simp [Function.comp_def]

/-- A cut is made at the first position where the separator stands. -/
theorem cut?_cons [BEq α] (separator : List α) (c : α) (s : List α) :
    cut? separator (c :: s) =
      if separator.isPrefixOf (c :: s) then some ([], (c :: s).drop separator.length)
      else (cut? separator s).map (fun parts => (c :: parts.1, parts.2)) := by
  simp only [cut?, cutFrom]
  split
  · rfl
  · simpa using cutFrom_eq_map separator [c] s

theorem cut?_nil [BEq α] (separator : List α) :
    cut? separator [] = if separator.isEmpty then some ([], []) else none := rfl

private theorem append_of_cutFrom [BEq α] [LawfulBEq α] {separator seen s before after : List α}
    (found : cutFrom separator seen s = some (before, after)) :
    seen.reverse ++ s = before ++ separator ++ after := by
  induction s generalizing seen with
  | nil =>
    simp only [cutFrom] at found
    split at found
    · rename_i empty
      simp only [Option.some.injEq, Prod.mk.injEq] at found
      simp [← found.1, ← found.2, List.isEmpty_iff.mp empty]
    · cases found
  | cons c rest ih =>
    simp only [cutFrom] at found
    split at found
    · rename_i starts
      obtain ⟨tail, whole⟩ := List.isPrefixOf_iff_prefix.mp starts
      simp only [Option.some.injEq, Prod.mk.injEq] at found
      rw [← found.1, ← found.2, ← whole]
      simp
    · simpa using ih found

/-- The parts of a cut, with the separator between them, are the whole list. -/
theorem append_of_cut? [BEq α] [LawfulBEq α] {separator s before after : List α}
    (found : cut? separator s = some (before, after)) : s = before ++ separator ++ after := by
  simpa using append_of_cutFrom found

theorem length_of_cut? [BEq α] [LawfulBEq α] {separator s before after : List α}
    (found : cut? separator s = some (before, after)) :
    s.length = before.length + separator.length + after.length := by
  simp [append_of_cut? found, Nat.add_assoc]

end IdentityRelay.Text
