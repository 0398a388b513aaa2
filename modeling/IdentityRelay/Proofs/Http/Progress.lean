import IdentityRelay.Proofs.Http.Parse
import IdentityRelay.Proofs.Text.Encoding
import IdentityRelay.Proofs.Text.Words

/-! How requests are taken off the front of a buffer. A request needs the bytes that it
takes and no others, and takes at least those of the shortest request line and the
empty line behind it, so that only so many requests fit into a buffer. -/
namespace IdentityRelay.Http

namespace RequestHead
variable {head line : Bytes} {method : Method} {target version : String}

private theorem three_le_length_name (method : Method) : 3 ≤ method.name.toList.length := by
  cases method <;> decide

private theorem length_of_known (known : (version == "HTTP/1.1" || version == "HTTP/1.0") = true) :
    version.toList.length = 8 := by
  have either : version = "HTTP/1.1" ∨ version = "HTTP/1.0" := by simpa using known
  rcases either with rfl | rfl <;> decide

/-- A method of three letters, a target of one character, a version of eight, and two
blanks: a request line has no fewer bytes. -/
theorem le_length_of_ofRequestLine (read : ofRequestLine line = .ok (method, target, version)) :
    14 ≤ line.length := by
  unfold ofRequestLine at read
  split at read
  · rename_i methodWord targetWord versionWord found
    obtain ⟨text, decoded, words⟩ := Option.map_eq_some_iff.mp found
    have isWord : targetWord ∈ Text.words text.toList := by simp [words]
    have targetLength := List.length_pos_iff.mpr (Text.visible_of_mem_words isWord).1
    have fits := Text.length_words_le text.toList
    have bytes := Utf8.length_le_encode text
    rw [words] at fits
    rw [Utf8.encode_of_decode? decoded] at bytes
    simp only [List.flatten_cons, List.flatten_nil, List.length_append, List.length_cons,
      List.length_nil] at fits
    split at read
    · cases read
    · rename_i method named
      have methodLength := three_le_length_name method
      rw [Method.name_of_ofName? named, String.toList_ofList] at methodLength
      simp only at read
      split at read
      · rename_i known
        have versionLength := length_of_known known
        rw [String.toList_ofList] at versionLength
        omega
      · cases read
  · cases read

theorem length_dropReturn_le (line : Bytes) : (dropReturn line).length ≤ line.length := by
  unfold dropReturn
  split
  · rw [List.length_dropLast]
    exact Nat.sub_le _ _
  · exact Nat.le_refl _

theorem length_le_of_mem_lines (member : line ∈ lines head) : line.length ≤ head.length := by
  obtain ⟨piece, isPiece, rfl⟩ := List.mem_map.mp member
  exact Nat.le_trans (length_dropReturn_le piece) (Text.length_le_of_mem_splitWhere isPiece)

theorem le_length_of_framed {fields : RequestHead} {framing : Framing}
    (read : framed head = .ok (fields, framing)) : 14 ≤ head.length := by
  obtain ⟨requestLine, rest, split, readLine, _⟩ := exists_lines_of_framed read
  have first : requestLine ∈ lines head := by simp [split]
  exact Nat.le_trans (le_length_of_ofRequestLine readLine) (length_le_of_mem_lines first)

end RequestHead

namespace Request
variable {buffer left : Bytes} {request : Request} {taken : Nat} {requests : List (Request × Nat)}

/-- A request takes at least the shortest request line and the end of the head. -/
theorem le_taken_of_parse (parsed : parse buffer = .ok (request, taken)) : 18 ≤ taken := by
  obtain ⟨head, rest, fields, framing, length, _, _, framed, _, _, rfl⟩ :=
    exists_parts_of_parse parsed
  have := RequestHead.le_length_of_framed framed
  omega

/-- The bytes that a request takes are all that it needs. -/
theorem parse_take (parsed : parse buffer = .ok (request, taken)) :
    parse (buffer.take taken) = .ok (request, taken) := by
  obtain ⟨head, rest, fields, framing, length, found, within, framed, read, same, rfl⟩ :=
    exists_parts_of_parse parsed
  rw [take_behind_head found, parse_of_some (Text.cut?_of_cut? found _),
    if_neg (Nat.not_lt_of_le within), framed]
  simp only [Except.bind, Framing.readBody_take read, Except.map, ← same]

theorem parse_take_append (parsed : parse buffer = .ok (request, taken)) (more : Bytes) :
    parse (buffer.take taken ++ more) = .ok (request, taken) := by
  have again := parse_take parsed
  rw [parse_append (by rw [again]; exact nofun) (by rw [again]; exact nofun), again]

theorem parse_take_ne_ok (parsed : parse buffer = .ok (request, taken)) {shorter : Nat}
    (less : shorter < taken) (outcome : Request × Nat) :
    parse (buffer.take shorter) ≠ .ok outcome := by
  obtain ⟨other, length⟩ := outcome
  intro early
  have bound := le_of_parse early
  have whole := parse_append (by rw [early]; exact nofun) (by rw [early]; exact nofun)
    (buffer.drop shorter)
  rw [List.take_append_drop, parsed, early] at whole
  cases whole
  rw [List.length_take] at bound
  omega

/-- Requests that are taken off a buffer one after the other, each with the number of
bytes that it took, and what is left behind them. -/
inductive Takes : Bytes → List (Request × Nat) → Bytes → Prop where
  | nil {buffer : Bytes} : Takes buffer [] buffer
  | cons {buffer left : Bytes} {request : Request} {taken : Nat} {later : List (Request × Nat)}
      (parsed : parse buffer = .ok (request, taken)) (rest : Takes (buffer.drop taken) later left) :
      Takes buffer ((request, taken) :: later) left

theorem Takes.length_le (takes : Takes buffer requests left) :
    18 * requests.length + left.length ≤ buffer.length := by
  induction takes with
  | nil => simp
  | @cons buffer left request taken later parsed rest ih =>
    have least := le_taken_of_parse parsed
    have most := le_of_parse parsed
    rw [List.length_drop] at ih
    rw [List.length_cons]
    omega

/-- Requests are taken until what is left does not begin with one. -/
theorem takes_parseAll (buffer : Bytes) :
    Takes buffer (parseAll buffer).1 (parseAll buffer).2.2 ∧
      ∃ error, parse (parseAll buffer).2.2 = .error error := by
  induction same : buffer.length using Nat.strongRecOn generalizing buffer with
  | ind size ih =>
    rw [parseAll]
    split
    · rename_i empty
      rw [List.isEmpty_iff.mp empty]
      exact ⟨.nil, _, parse_nil⟩
    · split
      · rename_i error failed
        exact ⟨.nil, error, failed⟩
      · rename_i request taken parsed
        have shorter : (buffer.drop taken).length < size := by
          have := pos_of_parse parsed
          rw [List.length_drop]
          omega
        obtain ⟨rest, ends⟩ := ih _ shorter _ rfl
        exact ⟨.cons parsed rest, ends⟩

/-- A request depends on the bytes that it takes alone, and neither on fewer nor on more.
Taking one after the other comes to an end, and each takes eighteen bytes or more. -/
theorem parse_progress :
    (∀ buffer request taken, parse buffer = .ok (request, taken) →
      18 ≤ taken ∧ taken ≤ buffer.length ∧
      (∀ more, parse (buffer.take taken ++ more) = .ok (request, taken)) ∧
      ∀ shorter < taken, ∀ outcome, parse (buffer.take shorter) ≠ .ok outcome) ∧
    ∀ input,
      (∀ requests left, Takes input requests left → requests.length ≤ input.length / 18) ∧
      Takes input (parseAll input).1 (parseAll input).2.2 ∧
      ∃ error, parse (parseAll input).2.2 = .error error := by
  constructor
  · intro buffer request taken parsed
    exact ⟨le_taken_of_parse parsed, le_of_parse parsed, parse_take_append parsed,
      fun _ less => parse_take_ne_ok parsed less⟩
  · intro input
    refine ⟨?_, takes_parseAll input⟩
    intro requests left takes
    have bound := takes.length_le
    rw [Nat.le_div_iff_mul_le (by decide)]
    omega

def shortestTwice : Bytes := Utf8.encode "GET / HTTP/1.1\r\n\r\nPUT * HTTP/1.0\r\n\r\n"

def shortestGet : Request where
  method := .get
  target := "/"
  version := "HTTP/1.1"
  headers := .empty
  body := []

def shortestPut : Request where
  method := .put
  target := "*"
  version := "HTTP/1.0"
  headers := .empty
  body := []

/-- Both bounds are met: a request of eighteen bytes, and as many as the bytes allow. -/
theorem parse_progress_of_shortest :
    parse shortestTwice = .ok (shortestGet, 18) ∧
      (∀ more, parse (shortestTwice.take 18 ++ more) = .ok (shortestGet, 18)) ∧
      Takes shortestTwice [(shortestGet, 18), (shortestPut, 18)] [] ∧
      [(shortestGet, 18), (shortestPut, 18)].length ≤ shortestTwice.length / 18 := by
  have parsed : parse shortestTwice = .ok (shortestGet, 18) := by rfl
  have next : parse (shortestTwice.drop 18) = .ok (shortestPut, 18) := by rfl
  have takes : Takes shortestTwice [(shortestGet, 18), (shortestPut, 18)] [] :=
    .cons parsed (.cons next .nil)
  exact ⟨parsed, (parse_progress.1 _ _ _ parsed).2.2.1, takes,
    (parse_progress.2 shortestTwice).1 _ _ takes⟩

end Request

end IdentityRelay.Http
