import IdentityRelay.Text.Split

/-! Where a cut is made: at the first occurrence of the separator, which
elements behind it cannot move. -/
namespace IdentityRelay.Text
variable {α : Type} [BEq α] [LawfulBEq α] {separator s before after : List α}

theorem cut?_append (found : cut? separator s = some (before, after)) (more : List α) :
    cut? separator (s ++ more) = some (before, after ++ more) := by
  induction s generalizing before after with
  | nil =>
    rw [cut?_nil] at found
    split at found
    · rename_i empty
      cases found
      rw [List.isEmpty_iff] at empty
      subst empty
      cases more with
      | nil => rfl
      | cons c rest => simp [cut?_cons]
    · cases found
  | cons c rest ih =>
    rw [cut?_cons] at found
    rw [List.cons_append, cut?_cons]
    split at found
    · rename_i starts
      have longer : separator <+: (c :: rest) ++ more :=
        (List.isPrefixOf_iff_prefix.mp starts).trans (List.prefix_append _ _)
      have fits : separator.length ≤ (c :: rest).length :=
        (List.isPrefixOf_iff_prefix.mp starts).length_le
      cases found
      rw [← List.cons_append, if_pos (List.isPrefixOf_iff_prefix.mpr longer),
        List.drop_append_of_le_length fits]
    · rename_i stays
      obtain ⟨⟨inner, behind⟩, innerFound, same⟩ := Option.map_eq_some_iff.mp found
      cases same
      have whole := append_of_cut? innerFound
      have fits : separator.length ≤ (c :: rest).length := by
        have := congrArg List.length whole
        simp at this ⊢
        omega
      have stays' : ¬ separator.isPrefixOf (c :: (rest ++ more)) = true := by
        intro starts
        apply stays
        rw [List.isPrefixOf_iff_prefix] at starts ⊢
        exact List.prefix_of_prefix_length_le starts (List.prefix_append (c :: rest) more) fits
      rw [if_neg stays', ih innerFound]
      rfl

/-- Whenever the separator occurs, a cut is made there or earlier. -/
theorem cut?_of_append (separator s t : List α) :
    ∃ before after, cut? separator (s ++ separator ++ t) = some (before, after) ∧
      before.length ≤ s.length := by
  induction s with
  | nil =>
    cases separator with
    | nil =>
      cases t with
      | nil => exact ⟨[], [], rfl, Nat.le_refl _⟩
      | cons c rest => exact ⟨[], c :: rest, by simp [cut?_cons], Nat.le_refl _⟩
    | cons first others => exact ⟨[], t, by simp [cut?_cons], Nat.le_refl _⟩
  | cons c rest ih =>
    obtain ⟨inner, behind, found, bound⟩ := ih
    simp only [List.cons_append, cut?_cons]
    split
    · exact ⟨[], _, rfl, Nat.zero_le _⟩
    · refine ⟨c :: inner, behind, ?_, Nat.succ_le_succ bound⟩
      rw [found]
      rfl

/-- What stands behind the separator has no part in where a cut is made. -/
theorem cut?_of_cut? (found : cut? separator s = some (before, after)) (more : List α) :
    cut? separator (before ++ separator ++ more) = some (before, more) := by
  obtain ⟨front, behind, first, _⟩ := cut?_of_append separator before []
  rw [List.append_nil] at first
  have same : some (front, behind ++ after) = some (before, after) := by
    rw [← cut?_append first after, ← append_of_cut? found, found]
  obtain ⟨rfl, rest⟩ := Prod.mk.inj (Option.some.inj same)
  have none : behind = [] := by simpa using rest
  rw [cut?_append first more, none, List.nil_append]

theorem length_le_of_cut? {front back : List α} (found : cut? separator s = some (before, after))
    (whole : s = front ++ separator ++ back) : before.length ≤ front.length := by
  obtain ⟨_, _, earlier, bound⟩ := cut?_of_append separator front back
  rw [← whole, found] at earlier
  cases earlier
  exact bound

theorem not_infix_of_cut? (nonempty : separator ≠ [])
    (found : cut? separator s = some (before, after)) : ¬ separator <:+: before := by
  rintro ⟨front, back, rfl⟩
  have whole : s = front ++ separator ++ (back ++ separator ++ after) := by
    simp [append_of_cut? found]
  have bound := length_le_of_cut? found whole
  have := List.length_pos_iff.mpr nonempty
  simp only [List.length_append] at bound
  omega

theorem cut?_eq_none_iff : cut? separator s = none ↔ ¬ separator <:+: s := by
  constructor
  · rintro missing ⟨before, after, rfl⟩
    obtain ⟨_, _, found, _⟩ := cut?_of_append separator before after
    rw [missing] at found
    cases found
  · intro absent
    cases found : cut? separator s with
    | none => rfl
    | some parts =>
      obtain ⟨before, after⟩ := parts
      exact absurd ⟨before, after, (append_of_cut? found).symm⟩ absent

theorem cut?_append_of_not_mem {x : α} {more front : List α} (absent : x ∉ front) (s : List α) :
    cut? (x :: more) (front ++ s) =
      (cut? (x :: more) s).map fun parts => (front ++ parts.1, parts.2) := by
  induction front with
  | nil => simp
  | cons c rest ih =>
    rw [List.mem_cons, not_or] at absent
    rw [List.cons_append, cut?_cons, ih absent.2, Option.map_map]
    simp [absent.1, Function.comp_def]

theorem cut?_singleton {x : α} (absent : x ∉ s) (rest : List α) :
    cut? [x] (s ++ x :: rest) = some (s, rest) := by
  rw [cut?_append_of_not_mem absent, cut?_cons]
  simp

theorem parts_of_cut?_singleton {x : α} (found : cut? [x] s = some (before, after)) :
    before = s.takeWhile (· != x) ∧ after = (s.dropWhile (· != x)).drop 1 := by
  induction s generalizing before after with
  | nil => cases found
  | cons c rest ih =>
    rw [cut?_cons] at found
    by_cases here : x = c
    · subst here
      simp only [List.isPrefixOf, beq_self_eq_true, Bool.true_and, ↓reduceIte, Option.some.injEq,
        Prod.mk.injEq] at found
      obtain ⟨rfl, rfl⟩ := found
      simp
    · have elsewhere : (c != x) = true := by simpa using Ne.symm here
      simp only [List.isPrefixOf, beq_eq_false_iff_ne.mpr here, Bool.false_and, Bool.false_eq_true,
        ↓reduceIte] at found
      obtain ⟨⟨inner, behind⟩, innerFound, same⟩ := Option.map_eq_some_iff.mp found
      cases same
      obtain ⟨rfl, rfl⟩ := ih innerFound
      simp [elsewhere]

end IdentityRelay.Text
