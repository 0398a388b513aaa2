import IdentityRelay.Text.Blank

/-! What is left when unwanted elements are dropped at both ends: a part of the
list that begins and ends with wanted elements, and the list itself if it does. -/
namespace IdentityRelay.Text
variable {α : Type} {unwanted : α → Bool} {s : List α}

theorem stripEnd_isPrefix (unwanted : α → Bool) (s : List α) : stripEnd unwanted s <+: s := by
  rw [← List.reverse_suffix, stripEnd, List.reverse_reverse]
  exact List.dropWhile_suffix _

theorem mem_of_mem_strip {c : α} (member : c ∈ strip unwanted s) : c ∈ s :=
  (List.dropWhile_suffix _).subset ((stripEnd_isPrefix _ _).subset member)

theorem mem_strip_or {c : α} (member : c ∈ s) : c ∈ strip unwanted s ∨ unwanted c = true := by
  have dropped : ∀ t : List α, ∀ c ∈ t, c ∈ t.dropWhile unwanted ∨ unwanted c = true := by
    intro t c member
    rw [← List.takeWhile_append_dropWhile (p := unwanted) (l := t)] at member
    rcases List.mem_append.mp member with front | back
    · exact .inr (List.all_eq_true.mp List.all_takeWhile c front)
    · exact .inl back
  rcases dropped s c member with left | blank
  · rw [strip, stripEnd, List.mem_reverse]
    exact dropped _ c (List.mem_reverse.mpr left)
  · exact .inr blank

theorem strip_congr {other : α → Bool} (same : ∀ c ∈ s, unwanted c = other c) :
    strip unwanted s = strip other s := by
  have dropped : ∀ t : List α, t ⊆ s → t.dropWhile unwanted = t.dropWhile other := by
    intro t within
    induction t with
    | nil => rfl
    | cons c rest ih =>
      rw [List.dropWhile_cons, List.dropWhile_cons, same c (within List.mem_cons_self),
        ih (List.subset_of_cons_subset within)]
  have within : (s.dropWhile other).reverse ⊆ s := fun _ member =>
    (List.dropWhile_suffix _).subset (List.mem_reverse.mp member)
  rw [strip, strip, stripEnd, stripEnd, dropped s (List.Subset.refl s), dropped _ within]

private theorem not_unwanted_of_mem_head?_dropWhile {c : α}
    (first : c ∈ (s.dropWhile unwanted).head?) : unwanted c = false := by
  have wanted := List.head?_dropWhile_not unwanted s
  rw [Option.mem_def.mp first] at wanted
  exact wanted

theorem not_unwanted_of_mem_head?_strip {c : α} (first : c ∈ (strip unwanted s).head?) :
    unwanted c = false := by
  obtain ⟨dropped, whole⟩ := stripEnd_isPrefix unwanted (s.dropWhile unwanted)
  apply not_unwanted_of_mem_head?_dropWhile
  rw [← whole, List.head?_append]
  rw [strip] at first
  rw [Option.mem_def.mp first]
  rfl

theorem not_unwanted_of_mem_getLast?_stripEnd {c : α}
    (last : c ∈ (stripEnd unwanted s).getLast?) : unwanted c = false := by
  rw [stripEnd, List.getLast?_reverse] at last
  exact not_unwanted_of_mem_head?_dropWhile last

theorem not_unwanted_of_mem_getLast?_strip {c : α} (last : c ∈ (strip unwanted s).getLast?) :
    unwanted c = false := not_unwanted_of_mem_getLast?_stripEnd last

theorem strip_cons_of_unwanted {c : α} (blank : unwanted c = true) (s : List α) :
    strip unwanted (c :: s) = strip unwanted s := by
  simp [strip, blank]

private theorem dropWhile_eq_self (first : ∀ c ∈ s.head?, unwanted c = false) :
    s.dropWhile unwanted = s := by
  cases s with
  | nil => rfl
  | cons c rest => simp [first c rfl]

theorem stripEnd_eq_self (last : ∀ c ∈ s.getLast?, unwanted c = false) :
    stripEnd unwanted s = s := by
  rw [stripEnd, dropWhile_eq_self, List.reverse_reverse]
  simpa [List.head?_reverse] using last

theorem strip_eq_self (first : ∀ c ∈ s.head?, unwanted c = false)
    (last : ∀ c ∈ s.getLast?, unwanted c = false) : strip unwanted s = s := by
  rw [strip, dropWhile_eq_self first, stripEnd_eq_self last]

theorem stripEnd_append_singleton (unwanted : α → Bool) (s : List α) (c : α) :
    stripEnd unwanted (s ++ [c]) = if unwanted c then stripEnd unwanted s else s ++ [c] := by
  cases wanted : unwanted c <;> simp [stripEnd, wanted]

theorem stripEnd_append {front : List α} (last : ∀ c ∈ front.getLast?, unwanted c = false)
    (s : List α) : stripEnd unwanted (front ++ s) = front ++ stripEnd unwanted s := by
  obtain ⟨reversed, rfl⟩ : ∃ reversed : List α, reversed.reverse = s := ⟨_, s.reverse_reverse⟩
  induction reversed with
  | nil =>
    rw [List.reverse_nil, List.append_nil, stripEnd_eq_self last]
    exact (List.append_nil _).symm
  | cons c rest ih =>
    rw [List.reverse_cons, ← List.append_assoc, stripEnd_append_singleton,
      stripEnd_append_singleton]
    cases unwanted c with
    | true => exact ih
    | false => exact List.append_assoc _ _ _

theorem strip_eq_self_of_forall (wanted : ∀ c ∈ s, unwanted c = false) : strip unwanted s = s :=
  strip_eq_self (fun c first => wanted c (List.mem_of_mem_head? first))
    (fun c last => wanted c (List.mem_of_mem_getLast? last))

/-! ### Unwanted elements around a list -/

theorem strip_append_left {front : List α} (dropped : ∀ c ∈ front, unwanted c = true)
    (s : List α) : strip unwanted (front ++ s) = strip unwanted s := by
  rw [strip, List.dropWhile_append_of_pos dropped, ← strip]

theorem strip_eq_nil (dropped : ∀ c ∈ s, unwanted c = true) : strip unwanted s = [] := by
  rw [← List.append_nil s]
  exact strip_append_left dropped []

theorem stripEnd_append_right {back : List α} (dropped : ∀ c ∈ back, unwanted c = true)
    (s : List α) : stripEnd unwanted (s ++ back) = stripEnd unwanted s := by
  have reversed : ∀ c ∈ back.reverse, unwanted c = true := by simpa using dropped
  rw [stripEnd, List.reverse_append, List.dropWhile_append_of_pos reversed, ← stripEnd]

theorem strip_append_right {back : List α} (dropped : ∀ c ∈ back, unwanted c = true)
    (s : List α) : strip unwanted (s ++ back) = strip unwanted s := by
  rw [strip, List.dropWhile_append]
  split
  · rename_i none
    rw [strip, List.isEmpty_iff.mp none]
    exact strip_eq_nil dropped
  · rw [stripEnd_append_right dropped, ← strip]

theorem strip_dropWhile (unwanted : α → Bool) (s : List α) :
    strip unwanted (s.dropWhile unwanted) = strip unwanted s := by
  have dropped : ∀ c ∈ s.takeWhile unwanted, unwanted c = true :=
    List.all_eq_true.mp List.all_takeWhile
  rw [← strip_append_left dropped, List.takeWhile_append_dropWhile]

theorem exists_stripEnd_append (unwanted : α → Bool) (s : List α) :
    ∃ back, (∀ c ∈ back, unwanted c = true) ∧ stripEnd unwanted s ++ back = s := by
  refine ⟨(s.reverse.takeWhile unwanted).reverse, ?_, ?_⟩
  · intro c member
    exact List.all_eq_true.mp List.all_takeWhile c (List.mem_reverse.mp member)
  · rw [stripEnd, ← List.reverse_append, List.takeWhile_append_dropWhile, List.reverse_reverse]

theorem strip_stripEnd (unwanted : α → Bool) (s : List α) :
    strip unwanted (stripEnd unwanted s) = strip unwanted s := by
  obtain ⟨back, dropped, whole⟩ := exists_stripEnd_append unwanted s
  rw [← strip_append_right dropped, whole]

/-- Around a wanted element a list is stripped on both sides by itself. -/
theorem strip_append_cons {c : α} (wanted : unwanted c = false) (front back : List α) :
    strip unwanted (front ++ c :: back) =
      front.dropWhile unwanted ++ c :: stripEnd unwanted back := by
  have left : (front ++ c :: back).dropWhile unwanted =
      front.dropWhile unwanted ++ [c] ++ back := by
    rw [List.dropWhile_append, List.dropWhile_cons_of_neg (by simp [wanted])]
    split
    · rename_i none
      simp [List.isEmpty_iff.mp none]
    · simp
  have last : ∀ d ∈ (front.dropWhile unwanted ++ [c]).getLast?, unwanted d = false := by
    simp [wanted]
  rw [strip, left, stripEnd_append last, List.append_assoc, List.singleton_append]

theorem exists_append_strip (unwanted : α → Bool) (s : List α) :
    ∃ front back, (∀ c ∈ front, unwanted c = true) ∧ (∀ c ∈ back, unwanted c = true) ∧
      front ++ strip unwanted s ++ back = s := by
  obtain ⟨back, dropped, whole⟩ := exists_stripEnd_append unwanted (s.dropWhile unwanted)
  refine ⟨s.takeWhile unwanted, back, List.all_eq_true.mp List.all_takeWhile, dropped, ?_⟩
  rw [List.append_assoc, strip, whole, List.takeWhile_append_dropWhile]

end IdentityRelay.Text
