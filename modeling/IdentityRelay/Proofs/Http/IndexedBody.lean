import IdentityRelay.Proofs.Http.Chunked

/-! Chunked bodies read by position, as a reader does that keeps the bytes where they are:
bytes are taken by slices, positions are added as machine words, and either may go wrong.
Within the bytes that memory can hold neither does, and what is read is what the decoder
reads off a list. -/
namespace IdentityRelay.Http.Indexed

/-- The largest number of bytes in one buffer, half of the machine words. -/
def bufferLimit : Nat := 0x7FFF_FFFF_FFFF_FFFF

/-- Why a reader stops: at a fault of the message, or at a position that it must not use. -/
inductive Stop where
  | fault (error : ParseError)
  /-- A slice that ends before it begins, or behind the bytes. -/
  | outOfBounds
  /-- A sum that is no machine word. -/
  | overflow
  deriving DecidableEq, Repr

def slice (bytes : Bytes) (first last : Nat) : Except Stop Bytes :=
  if first ≤ last ∧ last ≤ bytes.length then .ok ((bytes.drop first).take (last - first))
  else .error .outOfBounds

def sum (a b : Nat) : Except Stop Nat :=
  if a + b < Text.wordLimit then .ok (a + b) else .error .overflow

def sum? (a b : Nat) : Option Nat := if a + b < Text.wordLimit then some (a + b) else none

def find? (wanted bytes : Bytes) : Option Nat :=
  (Text.cut? wanted bytes).map fun (before, _) => before.length

def lineAt (body : Bytes) (position : Nat) : Except Stop (Bytes × Nat) := do
  let rest ← slice body position body.length
  let some lineEnd := find? crlf rest | throw (.fault .incomplete)
  let line ← slice body position (← sum position lineEnd)
  return (line, ← sum position (← sum lineEnd 2))

/-- What the loop over the chunks comes to, and the position behind it. -/
inductive Part where
  /-- The size line of the last chunk. -/
  | last (next : Nat)
  | chunk (data : Bytes) (next : Nat)
  deriving DecidableEq, Repr

def Part.next : Part → Nat
  | last next => next
  | chunk _ next => next

/-- The data of a chunk behind its size line. A chunk must not end beyond the machine words,
nor may the line end behind it. -/
def dataAt (body : Bytes) (position size : Nat) : Except Stop Part := do
  let some chunkEnd := (sum? position size).filter fun chunkEnd => (sum? chunkEnd 2).isSome
    | throw (.fault .invalidChunk)
  let next ← sum chunkEnd 2
  if body.length < next then throw (.fault .incomplete)
  let data ← slice body position chunkEnd
  let ending ← slice body chunkEnd next
  if ending ≠ crlf then throw (.fault .invalidChunk)
  return .chunk data next

/-- One pass of the loop over the chunks. -/
def partAt (body : Bytes) (position : Nat) : Except Stop Part := do
  let (line, next) ← lineAt body position
  let some size := Chunked.sizeOfLine? line | throw (.fault .invalidChunk)
  if size = 0 then return .last next
  dataAt body next size

section
variable {bytes wanted before after line body data : Bytes} {first last position next size : Nat}

theorem slice_eq_ok_iff : slice bytes first last = .ok data ↔
    first ≤ last ∧ last ≤ bytes.length ∧ data = (bytes.drop first).take (last - first) := by
  unfold slice
  split <;> grind

theorem slice_of_le (lower : first ≤ last) (upper : last ≤ bytes.length) :
    slice bytes first last = .ok ((bytes.drop first).take (last - first)) :=
  slice_eq_ok_iff.mpr ⟨lower, upper, rfl⟩

theorem slice_to_end (within : first ≤ bytes.length) :
    slice bytes first bytes.length = .ok (bytes.drop first) := by
  rw [slice_of_le within (Nat.le_refl _), List.take_of_length_le (by simp)]

theorem sum_eq_ok_iff {a b : Nat} : sum a b = .ok next ↔ a + b < Text.wordLimit ∧ next = a + b := by
  unfold sum
  split <;> grind

theorem sum_of_lt {a b : Nat} (small : a + b < Text.wordLimit) : sum a b = .ok (a + b) :=
  if_pos small

theorem find?_of_some (found : Text.cut? wanted bytes = some (before, after)) :
    find? wanted bytes = some before.length := by
  rw [find?, found, Option.map_some]

theorem find?_of_none (missing : Text.cut? wanted bytes = none) : find? wanted bytes = none := by
  rw [find?, missing, Option.map_none]

theorem forward_of_lineAt (read : lineAt body position = .ok (line, next)) :
    position < next ∧ next ≤ body.length := by
  unfold lineAt at read
  obtain ⟨rest, taken, read⟩ := bind_eq_ok_iff.mp read
  obtain ⟨lower, _, rfl⟩ := slice_eq_ok_iff.mp taken
  cases found : Text.cut? crlf ((body.drop position).take (body.length - position)) with
  | none =>
    rw [find?_of_none found] at read
    cases read
  | some parts =>
    have sizes := Text.length_of_cut? found
    rw [find?_of_some found] at read
    obtain ⟨_, _, read⟩ := bind_eq_ok_iff.mp read
    obtain ⟨_, _, read⟩ := bind_eq_ok_iff.mp read
    obtain ⟨width, added, read⟩ := bind_eq_ok_iff.mp read
    obtain ⟨_, addedAgain, read⟩ := bind_eq_ok_iff.mp read
    obtain ⟨_, rfl⟩ := sum_eq_ok_iff.mp added
    obtain ⟨_, rfl⟩ := sum_eq_ok_iff.mp addedAgain
    cases read
    simp only [crlf, List.length_take, List.length_drop, List.length_cons, List.length_nil] at sizes
    omega

theorem forward_of_dataAt {part : Part} (read : dataAt body position size = .ok part) :
    position < part.next ∧ part.next ≤ body.length := by
  unfold dataAt at read
  cases ends : (sum? position size).filter fun chunkEnd => (sum? chunkEnd 2).isSome with
  | none =>
    rw [ends] at read
    cases read
  | some chunkEnd =>
    rw [ends] at read
    obtain ⟨next, added, read⟩ := bind_eq_ok_iff.mp read
    obtain ⟨_, rfl⟩ := sum_eq_ok_iff.mp added
    split at read
    · cases read
    · rename_i enough
      obtain ⟨data, taken, read⟩ := bind_eq_ok_iff.mp read
      obtain ⟨lower, _⟩ := slice_eq_ok_iff.mp taken
      obtain ⟨_, _, read⟩ := bind_eq_ok_iff.mp read
      split at read
      · cases read
      · cases read
        exact ⟨by simp only [Part.next]; omega, Nat.le_of_not_lt enough⟩

theorem forward_of_partAt {part : Part} (read : partAt body position = .ok part) :
    position < part.next ∧ part.next ≤ body.length := by
  unfold partAt at read
  obtain ⟨⟨line, behind⟩, readLine, read⟩ := bind_eq_ok_iff.mp read
  have forward := forward_of_lineAt readLine
  cases sized : Chunked.sizeOfLine? line with
  | none =>
    simp only [sized] at read
    cases read
  | some size =>
    simp only [sized] at read
    split at read
    · cases read
      exact forward
    · have further := forward_of_dataAt read
      exact ⟨Nat.lt_trans forward.1 further.1, further.2⟩

/-- One pass leads from a position to the next: through a size line, with the chunk behind it
if there is one, or through a trailer line. -/
inductive Leads (body : Bytes) (position : Nat) : Nat → Prop where
  | part {part : Part} (read : partAt body position = .ok part) : Leads body position part.next
  | trailer {line : Bytes} {next : Nat} (read : lineAt body position = .ok (line, next)) :
      Leads body position next

theorem Leads.forward (leads : Leads body position next) :
    position < next ∧ next ≤ body.length := by
  cases leads with
  | part read => exact forward_of_partAt read
  | trailer read => exact forward_of_lineAt read

/-- So many passes, one after the other. -/
inductive Passes (body : Bytes) : Nat → Nat → Nat → Prop where
  | none {position : Nat} : Passes body 0 position position
  | step {count position next last : Nat} (leads : Leads body position next)
      (rest : Passes body count next last) : Passes body (count + 1) position last

/-- There are no more passes than there are bytes. -/
theorem Passes.bounded {count : Nat} (passes : Passes body count position last)
    (within : position ≤ body.length) : position + count ≤ last ∧ last ≤ body.length := by
  induction passes with
  | none => exact ⟨Nat.le_refl _, within⟩
  | step leads rest ih =>
    obtain ⟨later, inside⟩ := leads.forward
    obtain ⟨bound, ended⟩ := ih inside
    exact ⟨by omega, ended⟩

end

def trailersFrom (body : Bytes) (position : Nat) : Except Stop Nat :=
  match _ : lineAt body position with
  | .error stop => .error stop
  | .ok ([], next) => .ok next
  | .ok (_ :: _, next) => trailersFrom body next
termination_by body.length - position
decreasing_by
  have := forward_of_lineAt ‹_›
  omega

/-- The payload of the chunks behind what was received of it, and the position behind the
trailer section. -/
def partsFrom (body : Bytes) (position : Nat) (received : Bytes) : Except Stop (Bytes × Nat) :=
  match _ : partAt body position with
  | .error stop => .error stop
  | .ok (.last next) => (trailersFrom body next).map fun ended => (received, ended)
  | .ok (.chunk data next) => partsFrom body next (received ++ data)
termination_by body.length - position
decreasing_by
  have := forward_of_partAt ‹_›
  simp only [Part.next] at this
  omega

def decode (body : Bytes) : Except Stop (Bytes × Nat) := partsFrom body 0 []

section
variable {body received line after : Bytes} {position next size : Nat}

theorem trailersFrom_eq_bind : trailersFrom body position =
    (lineAt body position).bind fun (line, next) =>
      if line.isEmpty then .ok next else trailersFrom body next := by
  rw [trailersFrom]
  split <;> simp_all [Except.bind]

theorem partsFrom_eq_bind : partsFrom body position received =
    (partAt body position).bind fun
      | .last next => (trailersFrom body next).map fun ended => (received, ended)
      | .chunk data next => partsFrom body next (received ++ data) := by
  rw [partsFrom]
  split <;> simp_all [Except.bind]

theorem behind_line (found : Text.cut? crlf (body.drop position) = some (line, after)) :
    after = body.drop (position + line.length + 2) ∧
      position + line.length + 2 + after.length ≤ body.length := by
  have whole := Text.append_of_cut? found
  have front : (line ++ crlf).length = line.length + 2 := by simp [crlf]
  constructor
  · rw [Nat.add_assoc, ← List.drop_drop, whole, ← front, List.drop_left]
  · have sizes := congrArg List.length whole
    simp only [List.length_append, List.length_drop, front] at sizes
    omega

section Within
variable (fits : body.length ≤ bufferLimit) (within : position ≤ body.length)

include within in
theorem lineAt_of_none (missing : Text.cut? crlf (body.drop position) = none) :
    lineAt body position = .error (.fault .incomplete) := by
  simp only [lineAt, slice_to_end within, bind, Except.bind, find?_of_none missing]
  rfl

include fits within in
theorem lineAt_of_some (found : Text.cut? crlf (body.drop position) = some (line, after)) :
    lineAt body position = .ok (line, position + line.length + 2) := by
  have whole := Text.append_of_cut? found
  obtain ⟨_, inside⟩ := behind_line found
  have small : body.length + 2 < Text.wordLimit :=
    Nat.lt_of_le_of_lt (Nat.add_le_add_right fits 2) (by decide)
  have lineEnd : sum position line.length = .ok (position + line.length) := sum_of_lt (by omega)
  have taken : slice body position (position + line.length) = .ok line := by
    rw [slice_of_le (by omega) (by omega), Nat.add_sub_cancel_left, whole, List.append_assoc,
      List.take_left]
  have width : sum line.length 2 = .ok (line.length + 2) := sum_of_lt (by omega)
  have next : sum position (line.length + 2) = .ok (position + (line.length + 2)) :=
    sum_of_lt (by omega)
  simp only [lineAt, slice_to_end within, bind, Except.bind, find?_of_some found, lineEnd, taken,
    width, next]
  rfl

end Within

theorem behind_chunk {rest : Bytes} (behind : after = body.drop position)
    (ends : Chunked.chunkEnd (after.drop size) = .ok rest) :
    rest = body.drop (position + size + 2) ∧ position + size + 2 ≤ body.length := by
  have whole : body.drop (position + size) = crlf ++ rest := by
    rw [← Chunked.eq_of_chunkEnd ends, behind, List.drop_drop]
  constructor
  · rw [← List.drop_drop, whole]
    rfl
  · have sizes := congrArg List.length whole
    simp only [crlf, List.length_append, List.length_drop, List.length_cons,
      List.length_nil] at sizes
    omega

theorem chunkEnd?_eq (position size : Nat) :
    ((sum? position size).filter fun chunkEnd => (sum? chunkEnd 2).isSome) =
      if Text.wordLimit ≤ position + size + 2 then none else some (position + size) := by
  by_cases large : Text.wordLimit ≤ position + size + 2
  · rw [if_pos large, Option.filter_eq_none_iff]
    intro chunkEnd added
    simp only [sum?] at added ⊢
    split at added <;> grind
  · have small : position + size < Text.wordLimit := by omega
    simp only [sum?, if_pos small, if_neg large, Option.filter_some]
    grind

/-- What the data of a chunk comes to, told by the bytes behind its size line. -/
theorem dataAt_eq (behind : after = body.drop position) :
    dataAt body position size =
      (if Text.wordLimit ≤ position + size + 2 then .error .invalidChunk
      else (Chunked.chunkEnd (after.drop size)).map fun _ =>
        Part.chunk (after.take size) (position + size + 2)).mapError .fault := by
  have rest : after.drop size = body.drop (position + size) := by rw [behind, List.drop_drop]
  have sizes := congrArg List.length rest
  rw [List.length_drop, List.length_drop] at sizes
  unfold dataAt
  rw [chunkEnd?_eq]
  by_cases large : Text.wordLimit ≤ position + size + 2
  · simp only [if_pos large]
    rfl
  · have next : sum (position + size) 2 = .ok (position + size + 2) := sum_of_lt (by omega)
    simp only [if_neg large, next, bind, Except.bind]
    rw [Chunked.chunkEnd_eq]
    by_cases short : body.length < position + size + 2
    · have few : (after.drop size).length < 2 := by
        rw [List.length_drop]
        omega
      rw [if_pos short, if_pos few]
      rfl
    · have enough : ¬ (after.drop size).length < 2 := by
        rw [List.length_drop]
        omega
      have data : slice body position (position + size) = .ok (after.take size) := by
        rw [slice_of_le (by omega) (by omega), Nat.add_sub_cancel_left, behind]
      have ending : slice body (position + size) (position + size + 2) =
          .ok ((after.drop size).take 2) := by
        rw [slice_of_le (by omega) (by omega), Nat.add_sub_cancel_left, rest]
      simp only [if_neg short, if_neg enough, data, ending, pure, Except.pure]
      by_cases ended : (after.drop size).take 2 = crlf
      · simp only [ended, ne_eq, not_true_eq_false, if_true]
        rfl
      · simp only [ended, ne_eq, not_false_eq_true, if_true, if_false]
        rfl

section Loops
variable (fits : body.length ≤ bufferLimit)
include fits

theorem trailersFrom_eq (within : position ≤ body.length) :
    trailersFrom body position =
      ((Chunked.trailerLength (body.drop position)).map (position + ·)).mapError .fault := by
  induction left : body.length - position using Nat.strongRecOn generalizing position with
  | ind bound ih =>
    rw [trailersFrom_eq_bind]
    cases found : Text.cut? crlf (body.drop position) with
    | none =>
      rw [lineAt_of_none within found, Chunked.trailerLength_of_none found]
      rfl
    | some parts =>
      obtain ⟨line, after⟩ := parts
      obtain ⟨behind, inside⟩ := behind_line found
      rw [lineAt_of_some fits within found, Chunked.trailerLength_of_some found]
      simp only [Except.bind]
      split
      · rename_i empty
        rw [List.isEmpty_iff.mp empty]
        rfl
      · rw [ih (body.length - (position + line.length + 2)) (by omega) (by omega) rfl, ← behind]
        cases Chunked.trailerLength after with
        | error error => rfl
        | ok length =>
          simp only [Except.map, mapError_ok, Except.ok.injEq]
          omega

theorem partAt_of_sized (within : position ≤ body.length)
    (found : Text.cut? crlf (body.drop position) = some (line, after))
    (read : Chunked.sizeOfLine? line = some size) :
    partAt body position =
      if size = 0 then .ok (.last (position + line.length + 2))
      else dataAt body (position + line.length + 2) size := by
  simp only [partAt, lineAt_of_some fits within found, read, bind, Except.bind]
  rfl

theorem partAt_of_unsized (within : position ≤ body.length)
    (found : Text.cut? crlf (body.drop position) = some (line, after))
    (unread : Chunked.sizeOfLine? line = none) :
    partAt body position = .error (.fault .invalidChunk) := by
  simp only [partAt, lineAt_of_some fits within found, unread, bind, Except.bind]
  rfl

/-- The loop over the chunks goes as decoding goes. -/
theorem partsFrom_eq {rest : Bytes} {outcome : Except ParseError (Bytes × Nat)}
    (went : Chunked.Decodes position rest outcome) (whole : rest = body.drop position)
    (within : position ≤ body.length) (received : Bytes) :
    partsFrom body position received =
      (outcome.map fun (payload, taken) => (received ++ payload, position + taken)).mapError
        .fault := by
  induction went generalizing received with
  | unended missing =>
    rw [whole] at missing
    rw [partsFrom_eq_bind, partAt, lineAt_of_none within missing]
    rfl
  | unsized found unread =>
    rw [whole] at found
    rw [partsFrom_eq_bind, partAt_of_unsized fits within found unread]
    rfl
  | @last position rest line after found zero =>
    rw [whole] at found
    obtain ⟨behind, inside⟩ := behind_line found
    rw [partsFrom_eq_bind, partAt_of_sized fits within found zero, if_pos rfl]
    simp only [Except.bind]
    rw [trailersFrom_eq fits (by omega), ← behind]
    cases Chunked.trailerLength after with
    | error error => rfl
    | ok length => simp [Except.map, mapError_ok, Nat.add_assoc]
  | oversized found read positive large =>
    rw [whole] at found
    rw [partsFrom_eq_bind, partAt_of_sized fits within found read, if_neg (by omega),
      dataAt_eq (behind_line found).1, if_pos large]
    rfl
  | broken found read positive small failed =>
    rw [whole] at found
    rw [partsFrom_eq_bind, partAt_of_sized fits within found read, if_neg (by omega),
      dataAt_eq (behind_line found).1, if_neg (by omega), failed]
    rfl
  | @chunk position size rest line after next outcome found read positive small ends inner ih =>
    rw [whole] at found
    obtain ⟨behind, inside⟩ := behind_line found
    obtain ⟨rest, ended⟩ := behind_chunk behind ends
    rw [partsFrom_eq_bind, partAt_of_sized fits within found read, if_neg (by omega),
      dataAt_eq behind, if_neg (by omega), ends]
    simp only [Except.map, mapError_ok, Except.bind]
    rw [ih rest ended]
    cases outcome with
    | error error => rfl
    | ok decoded => simp [Except.map, mapError_ok, Nat.add_assoc]

/-- A body that memory can hold is decoded as a list is, and nothing goes wrong on the way. -/
theorem decode_eq : decode body = (Chunked.decode body).mapError .fault := by
  rw [decode, Chunked.decode, partsFrom_eq fits (Chunked.decodes 0 body) rfl (Nat.zero_le _)]
  cases Chunked.decodeFrom 0 body with
  | error error => rfl
  | ok decoded => simp [Except.map, mapError_ok]

end Loops

end

end IdentityRelay.Http.Indexed
