import IdentityRelay.Http.Framing
import IdentityRelay.Proofs.Http.Chunked

/-! The body of a request behind its head, in either framing: what it takes of the
bytes, what can be wrong with it, and that further bytes leave it alone. -/
namespace IdentityRelay.Http.Framing
variable {framing : Framing} {bytes body : Bytes} {taken : Nat} {error : ParseError}

theorem contentLength_error {headers : Headers}
    (failed : contentLength headers = .error error) : error = .invalidContentLength := by
  simp only [contentLength] at failed
  split at failed
  · cases failed
  · split at failed
    · cases failed
    · exact (Except.error.inj failed).symm
  · exact (Except.error.inj failed).symm

/-- The length that fields announce: each of them, or zero where there are none. -/
theorem contentLength_eq_ok_iff {headers : Headers} {length : Nat} :
    contentLength headers = .ok length ↔
      (∀ value ∈ headers.values "Content-Length",
        Text.readSize? 10 (Text.trim value.toList) = some length) ∧
      (headers.values "Content-Length" = [] → length = 0) := by
  simp only [contentLength]
  generalize headers.values "Content-Length" = values
  cases read : values.mapM fun value => Text.readSize? 10 (Text.trim value.toList) with
  | none =>
    constructor
    · intro failed
      cases failed
    · rintro ⟨each, _⟩
      exact absurd read (mapM_ne_none each)
  | some lengths =>
    rw [forall_read_iff read]
    have sameSize := congrArg List.length (mapM_eq_some_iff.mp read)
    simp only [List.length_map] at sameSize
    cases lengths with
    | nil =>
      have none : values = [] := by simpa using sameSize
      simp [none, eq_comm]
    | cons first others =>
      have some : values ≠ [] := by
        rintro rfl
        simp at sameSize
      simp only
      split
      · rename_i agree
        have all : ∀ other ∈ others, other = first := by simpa using agree
        constructor
        · intro same
          cases same
          refine ⟨?_, fun none => absurd none some⟩
          intro other member
          rcases List.mem_cons.mp member with rfl | later
          · rfl
          · exact all other later
        · rintro ⟨each, _⟩
          rw [each first List.mem_cons_self]
      · rename_i differ
        constructor
        · intro failed
          cases failed
        · rintro ⟨each, _⟩
          have all : ∀ other ∈ others, other = first := fun other member =>
            (each other (List.mem_cons_of_mem _ member)).trans (each first List.mem_cons_self).symm
          exact absurd (by simpa using all) differ

theorem ofHeaders_error {headers : Headers} (failed : ofHeaders headers = .error error) :
    error = .invalidContentLength := by
  unfold ofHeaders at failed
  split at failed
  · cases failed
  · exact contentLength_error (map_eq_error_iff.mp failed)

theorem readBody_sized (length : Nat) (bytes : Bytes) :
    readBody (.sized length) bytes =
      if bytes.length < length then .error .incomplete else .ok (bytes.take length, length) := by
  have same : (bytes.take length).length < length ↔ bytes.length < length := by
    rw [List.length_take]
    omega
  simp only [readBody, same]

theorem readBody_error (failed : framing.readBody bytes = .error error) :
    error = .incomplete ∨ error = .invalidChunk := by
  cases framing with
  | chunked => exact Chunked.decodeFrom_error failed
  | sized length =>
    rw [readBody_sized] at failed
    split at failed
    · exact .inl (Except.error.inj failed).symm
    · cases failed

theorem readBody_le (read : framing.readBody bytes = .ok (body, taken)) : taken ≤ bytes.length := by
  cases framing with
  | chunked => exact Chunked.decodeFrom_le read
  | sized length =>
    rw [readBody_sized] at read
    split at read
    · cases read
    · cases read
      omega

theorem readBody_take (read : framing.readBody bytes = .ok (body, taken)) :
    framing.readBody (bytes.take taken) = .ok (body, taken) := by
  cases framing with
  | chunked => exact Chunked.decodeFrom_take read
  | sized length =>
    rw [readBody_sized] at read
    split at read
    · cases read
    · rename_i enough
      cases read
      have whole : ¬ (bytes.take taken).length < taken := by
        rw [List.length_take]
        omega
      rw [readBody_sized, if_neg whole, List.take_take, Nat.min_self]

/-- A body that is read or refused stays so, whatever follows. -/
theorem readBody_append (settled : framing.readBody bytes ≠ .error .incomplete) (more : Bytes) :
    framing.readBody (bytes ++ more) = framing.readBody bytes := by
  cases framing with
  | chunked => exact Chunked.decodeFrom_append settled more
  | sized length =>
    rw [readBody_sized] at settled
    have enough : length ≤ bytes.length := by
      apply Nat.le_of_not_lt
      intro short
      exact settled (if_pos short)
    have enough' : length ≤ (bytes ++ more).length := by simp; omega
    rw [readBody_sized, readBody_sized, if_neg (Nat.not_lt_of_le enough),
      if_neg (Nat.not_lt_of_le enough'), List.take_append_of_le_length enough]

end IdentityRelay.Http.Framing
