import IdentityRelay.Http.RequestHead
import IdentityRelay.Proofs.Text.Cut

/-! Lines that are ended by CRLF. A head that is made of such lines is cut at its
empty line and nowhere earlier, and falls into the same lines again. -/
namespace IdentityRelay.Http
variable {line first : Bytes} {rest : List Bytes}

/-- What can stand on a line: no line feed, and no carriage return at the end. -/
structure IsLine (line : Bytes) : Prop where
  noLineFeed : 10 ∉ line
  noReturn : line.getLast? ≠ some 13

def headOfLines (first : Bytes) (rest : List Bytes) : Bytes := first ++ rest.flatMap (crlf ++ ·)

theorem headOfLines_cons (first next : Bytes) (rest : List Bytes) :
    headOfLines first (next :: rest) = first ++ crlf ++ headOfLines next rest := by
  simp [headOfLines]

theorem flatMap_append_crlf (first : Bytes) (rest : List Bytes) :
    (first :: rest).flatMap (· ++ crlf) = headOfLines first rest ++ crlf := by
  induction rest generalizing first with
  | nil => simp [headOfLines]
  | cons next rest ih =>
    rw [List.flatMap_cons, ih, headOfLines_cons]
    simp only [List.append_assoc]

/-- A separator that begins with CRLF does not begin inside a line. -/
private theorem cut?_skip_line (inLine : 10 ∉ line) (tail more : Bytes) :
    Text.cut? (13 :: 10 :: tail) (line ++ 13 :: more) =
      (Text.cut? (13 :: 10 :: tail) (13 :: more)).map (fun parts => (line ++ parts.1, parts.2)) := by
  induction line with
  | nil => simp
  | cons c line ih =>
    rw [List.mem_cons, not_or] at inLine
    have elsewhere : ¬ (13 :: 10 :: tail).isPrefixOf (c :: (line ++ 13 :: more)) = true := by
      cases line with
      | nil => simp [List.isPrefixOf]
      | cons d line =>
        have : (10 : UInt8) ≠ d := fun same => inLine.2 (same ▸ List.mem_cons_self)
        simp [List.isPrefixOf, this]
    rw [List.cons_append, Text.cut?_cons, if_neg elsewhere, ih inLine.2, Option.map_map]
    rfl

private theorem cut?_separator_end (inLine : 10 ∉ line) (more : Bytes) :
    Text.cut? separator (line ++ separator ++ more) = some (line, more) := by
  have skipped := cut?_skip_line inLine [13, 10] (10 :: 13 :: 10 :: more)
  have whole : line ++ separator ++ more = line ++ 13 :: 10 :: 13 :: 10 :: more := by
    simp [separator, crlf]
  rw [whole, separator, crlf, List.cons_append, List.cons_append, List.nil_append, skipped]
  simp [Text.cut?_cons]

/-- A line that has another line behind it, and not an empty one, is not the last of a head. -/
private theorem cut?_separator_step (inLine : 10 ∉ line) {next more : Bytes} (inNext : 10 ∉ next)
    (nonempty : next ≠ []) (ended : ∃ behind, more = 13 :: behind) :
    Text.cut? separator (line ++ crlf ++ (next ++ more)) =
      (Text.cut? separator (next ++ more)).map
        (fun parts => (line ++ crlf ++ parts.1, parts.2)) := by
  have skipped := cut?_skip_line inLine [13, 10] (10 :: (next ++ more))
  have whole : line ++ crlf ++ (next ++ more) = line ++ 13 :: 10 :: (next ++ more) := by
    simp [crlf]
  have elsewhere : ¬ [13, 10].isPrefixOf (next ++ more) = true := by
    obtain ⟨behind, rfl⟩ := ended
    match next, nonempty with
    | [c], _ => simp [List.isPrefixOf]
    | c :: d :: others, _ =>
      have : (10 : UInt8) ≠ d := fun same => inNext (by simp [same])
      simp [List.isPrefixOf, this]
  have atEnd : ¬ [13, 10, 13, 10].isPrefixOf (13 :: 10 :: (next ++ more)) = true := by
    simpa [List.isPrefixOf] using elsewhere
  have afterReturn : ¬ [13, 10, 13, 10].isPrefixOf (10 :: (next ++ more)) = true := by
    simp [List.isPrefixOf]
  rw [whole, separator, crlf, List.cons_append, List.cons_append, List.nil_append, skipped,
    Text.cut?_cons, if_neg atEnd, Text.cut?_cons, if_neg afterReturn, Option.map_map,
    Option.map_map]
  simp [Function.comp_def]

/-- A head is cut off at its empty line: none of its lines can be taken for it. -/
theorem cut?_headOfLines (inFirst : 10 ∉ first) (inRest : ∀ line ∈ rest, 10 ∉ line ∧ line ≠ [])
    (body : Bytes) :
    Text.cut? separator (headOfLines first rest ++ separator ++ body) =
      some (headOfLines first rest, body) := by
  induction rest generalizing first with
  | nil => simpa [headOfLines] using cut?_separator_end inFirst body
  | cons next rest ih =>
    obtain ⟨inNext, nonempty⟩ := inRest next List.mem_cons_self
    have later := ih inNext fun line member => inRest line (List.mem_cons_of_mem _ member)
    have ended : ∃ behind, rest.flatMap (crlf ++ ·) ++ separator ++ body = 13 :: behind := by
      cases rest with
      | nil => exact ⟨_, rfl⟩
      | cons line rest => exact ⟨_, rfl⟩
    have step := cut?_separator_step inFirst inNext nonempty ended
    have whole : headOfLines first (next :: rest) ++ separator ++ body =
        first ++ crlf ++ (next ++ (rest.flatMap (crlf ++ ·) ++ separator ++ body)) := by
      simp [headOfLines]
    have inner : next ++ (rest.flatMap (crlf ++ ·) ++ separator ++ body) =
        headOfLines next rest ++ separator ++ body := by
      simp [headOfLines]
    rw [whole, step, inner, later, headOfLines_cons]
    rfl

private theorem dropReturn_append (line : Bytes) : RequestHead.dropReturn (line ++ [13]) = line := by
  simp [RequestHead.dropReturn]

private theorem dropReturn_line (isLine : IsLine line) : RequestHead.dropReturn line = line := by
  simp [RequestHead.dropReturn, isLine.noReturn]

theorem lines_headOfLines (isFirst : IsLine first) (isRest : ∀ line ∈ rest, IsLine line) :
    RequestHead.lines (headOfLines first rest) = first :: rest := by
  induction rest generalizing first with
  | nil =>
    have whole : ∀ b ∈ first, (b == 10) = false := by
      intro b member
      rw [beq_eq_false_iff_ne]
      exact fun same => isFirst.noLineFeed (same ▸ member)
    simp [headOfLines, RequestHead.lines, Text.splitWhere, List.splitOnP_eq_singleton whole,
      dropReturn_line isFirst]
  | cons next rest ih =>
    have later := ih (isRest next List.mem_cons_self)
      fun line member => isRest line (List.mem_cons_of_mem _ member)
    have whole : ∀ b ∈ first ++ [13], (b == 10) = false := by
      intro b member
      rw [beq_eq_false_iff_ne]
      rintro rfl
      simpa using isFirst.noLineFeed (by simpa using member)
    have split := List.splitOnP_append_cons_of_forall_mem whole 10 rfl (headOfLines next rest)
    have parts : headOfLines first (next :: rest) = first ++ [13] ++ 10 :: headOfLines next rest := by
      simp [headOfLines_cons, crlf]
    rw [RequestHead.lines, Text.splitWhere] at later ⊢
    rw [parts, split, List.map_cons, later, dropReturn_append]

end IdentityRelay.Http
