import IdentityRelay.Proofs.Http.Parse

/-! Whether a refused message stays refused when more bytes arrive. It does, with
one exception: a buffer that breaks off inside the separator behind a head of
nearly the largest length is refused although the whole head is not too long. -/
namespace IdentityRelay.Http.Request
variable {buffer more : Bytes} {error : ParseError}

/-- The buffer ends inside the separator behind a head within the limit, and is
itself longer than the limit; the bytes to come begin with the rest of the separator. -/
def BreaksSeparator (buffer more : Bytes) : Prop :=
  ∃ head front back rest : Bytes, back ≠ [] ∧ separator = front ++ back ∧
    buffer = head ++ front ∧ more = back ++ rest ∧
    head.length ≤ headLimit ∧ headLimit < buffer.length

private theorem breaksSeparator_of_cut? {head rest : Bytes}
    (missing : Text.cut? separator buffer = none) (long : headLimit < buffer.length)
    (found : Text.cut? separator (buffer ++ more) = some (head, rest))
    (within : head.length ≤ headLimit) : BreaksSeparator buffer more := by
  have absent := Text.cut?_eq_none_iff.mp missing
  rcases List.append_eq_append_iff.mp (Text.append_of_cut? found) with
    ⟨back, whole, tail⟩ | ⟨inner, whole, _⟩
  · rcases List.append_eq_append_iff.mp whole with ⟨front, same, parts⟩ | ⟨_, same, _⟩
    · refine ⟨head, front, back, rest, ?_, parts, same, tail, within, long⟩
      rintro rfl
      rw [List.append_nil] at parts
      exact absurd ⟨head, [], by rw [same, parts, List.append_nil]⟩ absent
    · rw [same, List.length_append] at within
      omega
  · exact absurd ⟨head, inner, whole.symm⟩ absent

private theorem parse_append_ne_headersTooLarge (broken : BreaksSeparator buffer more) :
    parse (buffer ++ more) ≠ .error .headersTooLarge := by
  obtain ⟨head, front, back, rest, _, parts, rfl, rfl, within, _⟩ := broken
  obtain ⟨before, after, found, bound⟩ := Text.cut?_of_append separator head rest
  rw [parts] at found
  simp only [List.append_assoc] at found ⊢
  exact parse_ne_headersTooLarge (parts ▸ found) (Nat.le_trans bound within)

private theorem headersTooLarge_kept (refused : parse buffer = .error .headersTooLarge)
    (whole : ¬ BreaksSeparator buffer more) :
    parse (buffer ++ more) = .error .headersTooLarge := by
  cases found : Text.cut? separator buffer with
  | some parts =>
    -- The head alone was too long, and no bytes behind it are looked at.
    obtain ⟨head, rest⟩ := parts
    have long : headLimit < head.length := by
      apply Nat.lt_of_not_le
      intro within
      exact parse_ne_headersTooLarge found within refused
    rw [parse_of_some (Text.cut?_append found more), if_pos long]
  | none =>
    -- The buffer counted as a head without end; now its end may be in sight.
    have long : headLimit < buffer.length := by
      apply Nat.lt_of_not_le
      intro within
      rw [parse_of_none found, if_neg (Nat.not_lt_of_le within)] at refused
      cases refused
    cases found' : Text.cut? separator (buffer ++ more) with
    | none =>
      have longer : headLimit < (buffer ++ more).length := by
        rw [List.length_append]
        omega
      rw [parse_of_none found', if_pos longer]
    | some parts =>
      obtain ⟨head, rest⟩ := parts
      have long' : headLimit < head.length := by
        apply Nat.lt_of_not_le
        intro within
        exact whole (breaksSeparator_of_cut? found long found' within)
      rw [parse_of_some found', if_pos long']

/-- A message that is refused stays refused for the same reason, exactly unless its
buffer breaks off inside a separator that the limit would still have admitted. -/
theorem refusal_kept_iff (refused : parse buffer = .error error) (final : error ≠ .incomplete)
    (more : Bytes) :
    parse (buffer ++ more) = .error error ↔
      ¬ (error = .headersTooLarge ∧ BreaksSeparator buffer more) := by
  constructor
  · rintro kept ⟨rfl, broken⟩
    exact parse_append_ne_headersTooLarge broken kept
  · intro whole
    by_cases tooLarge : error = .headersTooLarge
    · subst tooLarge
      exact headersTooLarge_kept refused fun broken => whole ⟨rfl, broken⟩
    · have settled : parse buffer ≠ .error .incomplete := by
        rw [refused]
        exact fun same => final (Except.error.inj same)
      have within : parse buffer ≠ .error .headersTooLarge := by
        rw [refused]
        exact fun same => tooLarge (Except.error.inj same)
      rw [parse_append settled within, refused]

/-- One carriage return behind a head of the largest length, which is refused, and
what is not refused any more when the other three bytes of the separator arrive. -/
theorem refusal_kept_iff_at_limit :
    parse (List.replicate headLimit 97 ++ [13]) = .error .headersTooLarge ∧
      ParseError.headersTooLarge ≠ .incomplete ∧
      parse (List.replicate headLimit 97 ++ [13] ++ [10, 13, 10]) ≠ .error .headersTooLarge := by
  have missing : Text.cut? separator (List.replicate headLimit 97 ++ [13]) = none := by
    rw [Text.cut?_eq_none_iff]
    intro within
    have : (10 : UInt8) ∈ List.replicate headLimit 97 ++ [13] := within.subset (by decide)
    simp [List.mem_replicate] at this
  have refused : parse (List.replicate headLimit 97 ++ [13]) = .error .headersTooLarge := by
    rw [parse_of_none missing, if_pos (by simp)]
  have broken : BreaksSeparator (List.replicate headLimit 97 ++ [13]) [10, 13, 10] :=
    ⟨List.replicate headLimit 97, [13], [10, 13, 10], [], by decide, rfl, rfl, rfl, by simp,
      by simp⟩
  have final : ParseError.headersTooLarge ≠ .incomplete := by decide
  exact ⟨refused, final, fun kept =>
    (refusal_kept_iff refused final [10, 13, 10]).mp kept ⟨rfl, broken⟩⟩

end IdentityRelay.Http.Request
