import IdentityRelay.Http.Chunked
import IdentityRelay.Proofs.Outcome
import IdentityRelay.Proofs.Text.Cut

/-! Chunked bodies line by line, and what is known of a body once it is decoded or
refused: the decoder never looks behind the bytes that decided it. All of it is
read off the ways in which decoding can go. -/
namespace IdentityRelay.Http.Chunked
variable {offset : Nat} {rest line after : Bytes}

theorem trailerLength_of_none (missing : Text.cut? crlf rest = none) :
    trailerLength rest = .error .incomplete := by
  rw [trailerLength]
  split
  · rfl
  all_goals simp_all

theorem trailerLength_of_some (found : Text.cut? crlf rest = some (line, after)) :
    trailerLength rest =
      if line.isEmpty then .ok 2 else (trailerLength after).map (line.length + 2 + ·) := by
  rw [trailerLength]
  split
  · simp_all
  · simp_all
  · rename_i line' after' nonempty found'
    rw [found] at found'
    cases found'
    have : line.isEmpty = false := by
      cases line with
      | nil => exact absurd rfl nonempty
      | cons => rfl
    rw [this]
    cases trailerLength after <;> rfl

def chunkEnd : Bytes → Except ParseError Bytes
  | first :: second :: next => if first = 13 ∧ second = 10 then .ok next else .error .invalidChunk
  | _ => .error .incomplete

/-- What a chunk with this size line and these bytes behind the line amounts to. -/
def decodeLine (offset : Nat) (line after : Bytes) : Except ParseError (Bytes × Nat) :=
  match sizeOfLine? line with
  | none => .error .invalidChunk
  | some 0 => (trailerLength after).map fun taken => ([], line.length + 2 + taken)
  | some size =>
    if Text.wordLimit ≤ offset + line.length + 2 + size + 2 then .error .invalidChunk
    else (chunkEnd (after.drop size)).bind fun next =>
      (decodeFrom (offset + line.length + 2 + size + 2) next).map fun (payload, taken) =>
        (after.take size ++ payload, line.length + 2 + size + 2 + taken)

theorem decodeLine_of_chunk {size : Nat} {next : Bytes} (read : sizeOfLine? line = some size)
    (positive : 0 < size) (small : offset + line.length + 2 + size + 2 < Text.wordLimit)
    (ends : chunkEnd (after.drop size) = .ok next) :
    decodeLine offset line after =
      (decodeFrom (offset + line.length + 2 + size + 2) next).map fun (payload, taken) =>
        (after.take size ++ payload, line.length + 2 + size + 2 + taken) := by
  cases size with
  | zero => exact absurd positive (Nat.lt_irrefl 0)
  | succ count => simp only [decodeLine, read, if_neg (Nat.not_le_of_lt small), ends, Except.bind]

theorem decodeFrom_of_none (missing : Text.cut? crlf rest = none) :
    decodeFrom offset rest = .error .incomplete := by
  rw [decodeFrom]
  split
  · rfl
  · simp_all

theorem decodeFrom_of_some (found : Text.cut? crlf rest = some (line, after)) :
    decodeFrom offset rest = decodeLine offset line after := by
  rw [decodeFrom]
  split
  · simp_all
  · rename_i line' after' found'
    rw [found] at found'
    cases found'
    unfold decodeLine
    cases size : sizeOfLine? line with
    | none => rfl
    | some count =>
      cases count with
      | zero => cases trailerLength after <;> rfl
      | succ count =>
        simp only
        split
        · rfl
        · split
          · rename_i next ends
            rw [ends]
            simp only [chunkEnd, and_self, ↓reduceIte, Except.bind]
            cases decodeFrom _ _ <;> rfl
          · rename_i first second others different ends
            have : ¬ (first = 13 ∧ second = 10) := fun both => different both.1 both.2
            simp only [ends, chunkEnd, this, ↓reduceIte, Except.bind]
          · rename_i short
            rcases ends : after.drop (count + 1) with _ | ⟨first, _ | ⟨second, others⟩⟩
            · rfl
            · rfl
            · exact absurd ends (short first second others)

private theorem length_after_lt (found : Text.cut? crlf rest = some (line, after)) :
    after.length < rest.length := by
  have whole := Text.length_of_cut? found
  simp only [crlf, List.length_cons, List.length_nil] at whole
  omega

private theorem take_line (found : Text.cut? crlf rest = some (line, after)) (count : Nat) :
    rest.take (line.length + 2 + count) = line ++ crlf ++ after.take count := by
  have front : (line ++ crlf).length = line.length + 2 := by simp [crlf]
  rw [Text.append_of_cut? found, ← front, List.take_length_add_append]

theorem trailerLength_append (settled : trailerLength rest ≠ .error .incomplete) (more : Bytes) :
    trailerLength (rest ++ more) = trailerLength rest := by
  induction same : rest.length using Nat.strongRecOn generalizing rest with
  | ind size ih =>
    cases found : Text.cut? crlf rest with
    | none => exact absurd (trailerLength_of_none found) settled
    | some parts =>
      obtain ⟨line, after⟩ := parts
      rw [trailerLength_of_some found] at settled ⊢
      rw [trailerLength_of_some (Text.cut?_append found more)]
      split
      · rfl
      · rename_i nonempty
        have shorter : after.length < size := same ▸ length_after_lt found
        rw [ih after.length shorter _ rfl]
        intro open_
        simp [nonempty, open_, Except.map] at settled

theorem trailerLength_le {taken : Nat} (ended : trailerLength rest = .ok taken) :
    taken ≤ rest.length := by
  induction same : rest.length using Nat.strongRecOn generalizing rest taken with
  | ind size ih =>
    cases found : Text.cut? crlf rest with
    | none => simp [trailerLength_of_none found] at ended
    | some parts =>
      obtain ⟨line, after⟩ := parts
      have whole := Text.length_of_cut? found
      simp only [crlf, List.length_cons, List.length_nil] at whole
      rw [trailerLength_of_some found] at ended
      split at ended
      · cases ended
        omega
      · obtain ⟨behind, inner, sum⟩ := map_eq_ok_iff.mp ended
        have bound := ih after.length (by omega) inner rfl
        omega

theorem trailerLength_take {taken : Nat} (ended : trailerLength rest = .ok taken) :
    trailerLength (rest.take taken) = .ok taken := by
  induction same : rest.length using Nat.strongRecOn generalizing rest taken with
  | ind size ih =>
    cases found : Text.cut? crlf rest with
    | none => simp [trailerLength_of_none found] at ended
    | some parts =>
      obtain ⟨line, after⟩ := parts
      have shorter : after.length < size := same ▸ length_after_lt found
      rw [trailerLength_of_some found] at ended
      split at ended
      · rename_i empty
        cases ended
        obtain rfl := List.isEmpty_iff.mp empty
        have front : rest.take 2 = [] ++ crlf ++ after.take 0 := take_line found 0
        rw [front, trailerLength_of_some (Text.cut?_of_cut? found _), if_pos empty]
      · rename_i nonempty
        obtain ⟨behind, inner, rfl⟩ := map_eq_ok_iff.mp ended
        rw [take_line found, trailerLength_of_some (Text.cut?_of_cut? found _), if_neg nonempty,
          ih after.length shorter inner rfl]
        rfl

theorem trailerLength_error {error : ParseError} (failed : trailerLength rest = .error error) :
    error = .incomplete := by
  induction same : rest.length using Nat.strongRecOn generalizing rest with
  | ind size ih =>
    cases found : Text.cut? crlf rest with
    | none =>
      rw [trailerLength_of_none found] at failed
      exact (Except.error.inj failed).symm
    | some parts =>
      obtain ⟨line, after⟩ := parts
      rw [trailerLength_of_some found] at failed
      split at failed
      · cases failed
      · have shorter : after.length < size := same ▸ length_after_lt found
        exact ih after.length shorter (map_eq_error_iff.mp failed) rfl

private theorem chunkEnd_append {bytes : Bytes} (settled : chunkEnd bytes ≠ .error .incomplete)
    (more : Bytes) : chunkEnd (bytes ++ more) = (chunkEnd bytes).map (· ++ more) := by
  match bytes with
  | [] => exact absurd rfl settled
  | [_] => exact absurd rfl settled
  | first :: second :: next =>
    simp only [chunkEnd, List.cons_append]
    split <;> rfl

theorem chunkEnd_eq (bytes : Bytes) :
    chunkEnd bytes = if bytes.length < 2 then .error .incomplete
      else if bytes.take 2 = crlf then .ok (bytes.drop 2) else .error .invalidChunk := by
  match bytes with
  | [] => rfl
  | [_] => rfl
  | first :: second :: next =>
    have enough : ¬ (first :: second :: next).length < 2 := by simp
    rw [if_neg enough]
    simp [chunkEnd, crlf]

theorem eq_of_chunkEnd {bytes next : Bytes} (ends : chunkEnd bytes = .ok next) :
    bytes = crlf ++ next := by
  match bytes with
  | [] => cases ends
  | [_] => cases ends
  | first :: second :: others =>
    simp only [chunkEnd] at ends
    split at ends
    · rename_i both
      cases ends
      rw [both.1, both.2]
      rfl
    · cases ends

theorem fits_of_chunkEnd {size : Nat}
    (settled : chunkEnd (after.drop size) ≠ .error .incomplete) : size ≤ after.length := by
  rcases Nat.lt_or_ge after.length size with short | fits
  · rw [List.drop_eq_nil_of_le (Nat.le_of_lt short)] at settled
    exact absurd rfl settled
  · exact fits

theorem chunkEnd_error {bytes : Bytes} {error : ParseError} (failed : chunkEnd bytes = .error error) :
    error = .incomplete ∨ error = .invalidChunk := by
  match bytes with
  | [] => exact .inl (Except.error.inj failed).symm
  | [_] => exact .inl (Except.error.inj failed).symm
  | first :: second :: others =>
    simp only [chunkEnd] at failed
    split at failed
    · cases failed
    · exact .inr (Except.error.inj failed).symm

/-- How decoding goes: it ends at a line, at the size on it, in the last chunk or
behind the data of a chunk, or it goes on behind a chunk. -/
inductive Decodes : Nat → Bytes → Except ParseError (Bytes × Nat) → Prop where
  | unended {offset : Nat} {rest : Bytes} (missing : Text.cut? crlf rest = none) :
      Decodes offset rest (.error .incomplete)
  | unsized {offset : Nat} {rest line after : Bytes}
      (found : Text.cut? crlf rest = some (line, after)) (unread : sizeOfLine? line = none) :
      Decodes offset rest (.error .invalidChunk)
  | last {offset : Nat} {rest line after : Bytes}
      (found : Text.cut? crlf rest = some (line, after)) (zero : sizeOfLine? line = some 0) :
      Decodes offset rest
        ((trailerLength after).map fun taken => ([], line.length + 2 + taken))
  | oversized {offset size : Nat} {rest line after : Bytes}
      (found : Text.cut? crlf rest = some (line, after)) (read : sizeOfLine? line = some size)
      (positive : 0 < size)
      (large : Text.wordLimit ≤ offset + line.length + 2 + size + 2) :
      Decodes offset rest (.error .invalidChunk)
  | broken {offset size : Nat} {rest line after : Bytes} {error : ParseError}
      (found : Text.cut? crlf rest = some (line, after)) (read : sizeOfLine? line = some size)
      (positive : 0 < size) (small : offset + line.length + 2 + size + 2 < Text.wordLimit)
      (failed : chunkEnd (after.drop size) = .error error) : Decodes offset rest (.error error)
  | chunk {offset size : Nat} {rest line after next : Bytes}
      {outcome : Except ParseError (Bytes × Nat)}
      (found : Text.cut? crlf rest = some (line, after)) (read : sizeOfLine? line = some size)
      (positive : 0 < size) (small : offset + line.length + 2 + size + 2 < Text.wordLimit)
      (ends : chunkEnd (after.drop size) = .ok next)
      (inner : Decodes (offset + line.length + 2 + size + 2) next outcome) :
      Decodes offset rest (outcome.map fun (payload, taken) =>
        (after.take size ++ payload, line.length + 2 + size + 2 + taken))

private theorem decodeLine_of_unended {size : Nat} {error : ParseError}
    (read : sizeOfLine? line = some size) (positive : 0 < size)
    (small : offset + line.length + 2 + size + 2 < Text.wordLimit)
    (failed : chunkEnd (after.drop size) = .error error) :
    decodeLine offset line after = .error error := by
  cases size with
  | zero => exact absurd positive (Nat.lt_irrefl 0)
  | succ count => simp only [decodeLine, read, if_neg (Nat.not_le_of_lt small), failed, Except.bind]

private theorem decodeLine_of_oversized {size : Nat} (read : sizeOfLine? line = some size)
    (positive : 0 < size) (large : Text.wordLimit ≤ offset + line.length + 2 + size + 2) :
    decodeLine offset line after = .error .invalidChunk := by
  cases size with
  | zero => exact absurd positive (Nat.lt_irrefl 0)
  | succ count => simp only [decodeLine, read, if_pos large]

private theorem length_next {size : Nat} {next : Bytes}
    (found : Text.cut? crlf rest = some (line, after))
    (ends : chunkEnd (after.drop size) = .ok next) :
    line.length + 2 + size + 2 + next.length = rest.length := by
  have whole := Text.length_of_cut? found
  have chunk := congrArg List.length (eq_of_chunkEnd ends)
  have fits : size ≤ after.length := fits_of_chunkEnd (by rw [ends]; exact nofun)
  simp only [crlf, List.length_drop, List.length_append, List.length_cons,
    List.length_nil] at whole chunk
  omega

theorem decodes (offset : Nat) (rest : Bytes) : Decodes offset rest (decodeFrom offset rest) := by
  induction same : rest.length using Nat.strongRecOn generalizing offset rest with
  | ind size ih =>
    cases found : Text.cut? crlf rest with
    | none =>
      rw [decodeFrom_of_none found]
      exact .unended found
    | some parts =>
      obtain ⟨line, after⟩ := parts
      rw [decodeFrom_of_some found]
      cases read : sizeOfLine? line with
      | none =>
        rw [decodeLine, read]
        exact .unsized found read
      | some count =>
        by_cases positive : 0 < count
        · by_cases small : offset + line.length + 2 + count + 2 < Text.wordLimit
          · cases ends : chunkEnd (after.drop count) with
            | error error =>
              rw [decodeLine_of_unended read positive small ends]
              exact .broken found read positive small ends
            | ok next =>
              -- A chunk takes its size line and its data, so what is behind it is shorter.
              have sizes := length_next found ends
              rw [decodeLine_of_chunk read positive small ends]
              exact .chunk found read positive small ends (ih next.length (by omega) _ next rfl)
          · have large := Nat.le_of_not_lt small
            rw [decodeLine_of_oversized read positive large]
            exact .oversized found read positive large
        · obtain rfl : count = 0 := by omega
          rw [decodeLine, read]
          exact .last found read

namespace Decodes
variable {outcome : Except ParseError (Bytes × Nat)}

private theorem append (went : Decodes offset rest outcome) (settled : outcome ≠ .error .incomplete)
    (more : Bytes) : decodeFrom offset (rest ++ more) = outcome := by
  induction went with
  | unended missing => exact absurd rfl settled
  | unsized found unread =>
    rw [decodeFrom_of_some (Text.cut?_append found more), decodeLine, unread]
  | @last offset rest line after found zero =>
    have trailer : trailerLength after ≠ .error .incomplete := by
      intro missing
      rw [missing] at settled
      exact settled rfl
    rw [decodeFrom_of_some (Text.cut?_append found more), decodeLine, zero]
    simp only [trailerLength_append trailer]
  | oversized found read positive large =>
    rw [decodeFrom_of_some (Text.cut?_append found more)]
    exact decodeLine_of_oversized read positive large
  | @broken offset size rest line after error found read positive small failed =>
    have unended : chunkEnd (after.drop size) ≠ .error .incomplete := by
      rw [failed]
      simpa using settled
    have fits := fits_of_chunkEnd unended
    rw [decodeFrom_of_some (Text.cut?_append found more)]
    apply decodeLine_of_unended read positive small
    rw [List.drop_append_of_le_length fits, chunkEnd_append unended, failed]
    rfl
  | @chunk offset size rest line after next outcome found read positive small ends inner ih =>
    have ended : chunkEnd (after.drop size) ≠ .error .incomplete := by
      intro missing
      cases ends.symm.trans missing
    have fits := fits_of_chunkEnd ended
    have ends' : chunkEnd ((after ++ more).drop size) = .ok (next ++ more) := by
      rw [List.drop_append_of_le_length fits, chunkEnd_append ended, ends]
      rfl
    have later : outcome ≠ .error .incomplete := by
      rintro rfl
      exact settled rfl
    rw [decodeFrom_of_some (Text.cut?_append found more),
      decodeLine_of_chunk read positive small ends', ih later, List.take_append_of_le_length fits]

private theorem le (went : Decodes offset rest outcome) {payload : Bytes} {taken : Nat}
    (decoded : outcome = .ok (payload, taken)) : taken ≤ rest.length := by
  induction went generalizing payload taken with
  | last found zero =>
    obtain ⟨behind, inner, sum⟩ := map_eq_ok_iff.mp decoded
    cases sum
    have whole := Text.length_of_cut? found
    have bound := trailerLength_le inner
    simp only [crlf, List.length_cons, List.length_nil] at whole
    omega
  | chunk found read positive small ends inner ih =>
    obtain ⟨⟨_, behind⟩, same, sum⟩ := map_eq_ok_iff.mp decoded
    cases sum
    have sizes := length_next found ends
    have bound := ih same
    omega
  | _ => cases decoded

private theorem take (went : Decodes offset rest outcome) {payload : Bytes} {taken : Nat}
    (decoded : outcome = .ok (payload, taken)) :
    decodeFrom offset (rest.take taken) = .ok (payload, taken) := by
  induction went generalizing payload taken with
  | @last offset rest line after found zero =>
    obtain ⟨behind, inner, sum⟩ := map_eq_ok_iff.mp decoded
    cases sum
    rw [take_line found, decodeFrom_of_some (Text.cut?_of_cut? found _), decodeLine, zero]
    simp only [trailerLength_take inner]
    rfl
  | @chunk offset size rest line after next outcome found read positive small ends inner ih =>
    obtain ⟨⟨data, behind⟩, same, sum⟩ := map_eq_ok_iff.mp decoded
    cases sum
    -- Behind the data stand the line end and as much as the rest of the body takes.
    have kept : (after.take (size + 2 + behind)).take size = after.take size := by
      rw [List.take_take, Nat.min_eq_left (by omega)]
    have ends' : chunkEnd ((after.take (size + 2 + behind)).drop size) = .ok (next.take behind) := by
      have left : size + 2 + behind - size = 2 + behind := by omega
      rw [List.drop_take, left, eq_of_chunkEnd ends, crlf, Nat.add_comm]
      rfl
    have whole : line.length + 2 + size + 2 + behind = line.length + 2 + (size + 2 + behind) := by
      omega
    rw [whole, take_line found, decodeFrom_of_some (Text.cut?_of_cut? found _),
      decodeLine_of_chunk read positive small ends', ih same, kept]
    simp only [Except.map, whole]
  | _ => cases decoded

private theorem fault (went : Decodes offset rest outcome) {error : ParseError}
    (failed : outcome = .error error) : error = .incomplete ∨ error = .invalidChunk := by
  induction went with
  | unended missing => exact .inl (Except.error.inj failed).symm
  | last found zero => exact .inl (trailerLength_error (map_eq_error_iff.mp failed))
  | broken found read positive small unended =>
    exact chunkEnd_error (unended.trans (congrArg Except.error (Except.error.inj failed)))
  | chunk found read positive small ends inner ih => exact ih (map_eq_error_iff.mp failed)
  | _ => exact .inr (Except.error.inj failed).symm

end Decodes

/-- A body that is decoded or refused stays so, whatever follows. -/
theorem decodeFrom_append (settled : decodeFrom offset rest ≠ .error .incomplete) (more : Bytes) :
    decodeFrom offset (rest ++ more) = decodeFrom offset rest :=
  (decodes offset rest).append settled more

theorem decodeFrom_le {payload : Bytes} {taken : Nat}
    (decoded : decodeFrom offset rest = .ok (payload, taken)) : taken ≤ rest.length :=
  (decodes offset rest).le decoded

/-- The bytes that a body takes are all that it needs. -/
theorem decodeFrom_take {payload : Bytes} {taken : Nat}
    (decoded : decodeFrom offset rest = .ok (payload, taken)) :
    decodeFrom offset (rest.take taken) = .ok (payload, taken) :=
  (decodes offset rest).take decoded

theorem decodeFrom_error {error : ParseError} (failed : decodeFrom offset rest = .error error) :
    error = .incomplete ∨ error = .invalidChunk :=
  (decodes offset rest).fault failed

end IdentityRelay.Http.Chunked
