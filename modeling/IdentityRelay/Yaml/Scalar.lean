import IdentityRelay.Text.Ascii
import IdentityRelay.Yaml.Cursor

/-! Scalars of a YAML text: plain, between quotes, or as a block of lines. -/
namespace IdentityRelay.Yaml

/-- What stands between two words: blanks, or line breaks with the blanks behind
each of them. -/
structure Gap where
  blanks : List Char
  /-- Each break with the blanks at the start of the line behind it. -/
  breaks : List (List Char × List Char)
  deriving DecidableEq, Repr

namespace Gap

private def breaksFrom (fuel : Nat) (cursor : Cursor) : List (List Char × List Char) × Cursor :=
  match fuel, cursor.takeBreak? with
  | fuel + 1, some (mark, cursor) =>
    let (blanks, cursor) := cursor.span isGap
    let (rest, cursor) := breaksFrom fuel cursor
    ((mark, blanks) :: rest, cursor)
  | _, _ => ([], cursor)

def read (cursor : Cursor) : Gap × Cursor :=
  let (blanks, cursor) := cursor.span isGap
  let (breaks, cursor) := breaksFrom cursor.rest.length cursor
  ({ blanks, breaks }, cursor)

/-- What a gap stands for: its blanks, a space for one break, or the breaks but the first. -/
def folded (gap : Gap) : List Char :=
  match gap.breaks.map Prod.fst with
  | [] => gap.blanks
  | [['\n']] => [' ']
  | ['\n'] :: rest => rest.flatten
  | marks => marks.flatten

end Gap

/-- A scalar with the place behind it. -/
structure ScalarText where
  text : List Char
  cursor : Cursor
  /-- Whether the scalar was left at the start of a line. -/
  atLineStart : Bool := false
  deriving DecidableEq, Repr

/-- The brackets, braces and the comma of flow collections. -/
def isFlowMark (c : Char) : Bool := [',', '[', ']', '\x7b', '\x7d'].contains c

/-- A word of a plain scalar. In a flow collection a colon must not stand before a mark. -/
def plainWord? (inFlow : Bool) : List Char → Option (List Char)
  | [] => some []
  | c :: rest =>
    let beforeMark := rest.head?.any fun next => isFlowMark next || next == '?'
    if isGap c || isBreak c then some []
    else if c == ':' && inFlow && beforeMark then none
    else if c == ':' && endsWord rest || inFlow && isFlowMark c then some []
    else (plainWord? inFlow rest).map (c :: ·)

/-- A plain scalar behind what was read of it and the gap after that. Its lines are
indented by at least `indent`, where a tab is no indentation. -/
def plainFrom (inFlow : Bool) (indent : Nat) (read : List Char) (gap : Gap) (cursor : Cursor) :
    Nat → Option ScalarText
  | 0 => none
  | fuel + 1 => do
    let stop := { text := read, cursor, atLineStart := !gap.breaks.isEmpty }
    if cursor.isAtMark || cursor.rest.head? == some '#' then return stop
    let word ← plainWord? inFlow cursor.rest
    if word.isEmpty then return stop
    let read := read ++ gap.folded ++ word
    let (gap, cursor) := Gap.read (cursor.skip word.length)
    guard (gap.breaks.all fun (_, blanks) => !(blanks.take indent).contains '\t')
    if !inFlow && cursor.column < indent then
      return { text := read, cursor, atLineStart := !gap.breaks.isEmpty }
    if gap.blanks.isEmpty && gap.breaks.isEmpty then
      return { text := read, cursor, atLineStart := false }
    plainFrom inFlow indent read gap cursor fuel

def plain? (inFlow : Bool) (indent : Nat) (cursor : Cursor) : Option ScalarText :=
  plainFrom inFlow indent [] ⟨[], []⟩ cursor (cursor.rest.length + 1)

/-- The character that a letter behind a backslash stands for. -/
def escapeOfLetter? (c : Char) : Option Char :=
  match c with
  | '0' => some '\x00'
  | 'a' => some '\x07'
  | 'b' => some '\x08'
  | 't' | '\t' => some '\t'
  | 'n' => some '\n'
  | 'v' => some '\x0b'
  | 'f' => some '\x0c'
  | 'r' => some '\r'
  | 'e' => some '\x1b'
  | ' ' | '"' | '/' | '\\' => some c
  | 'N' => some '\x85'
  | '_' => some '\xa0'
  | 'L' => some '\u2028'
  | 'P' => some '\u2029'
  | _ => none

def charOfNumber? (number : Nat) : Option Char :=
  if valid : number.isValidChar then some (Char.ofNatAux number valid) else none

/-- The character of an escape without its backslash, and the length of the escape. -/
def escape? (s : List Char) : Option (Char × Nat) := do
  let letter ← s.head?
  let numbered (count : Nat) : Option (Char × Nat) := do
    let digits ← ((s.drop 1).take count).mapM (Text.digit? 16)
    guard (digits.length == count)
    return (← charOfNumber? (Text.ofDigits 16 digits), count + 1)
  match letter with
  | 'x' => numbered 2
  | 'u' => numbered 4
  | 'U' => numbered 8
  | letter => return (← escapeOfLetter? letter, 1)

/-- How a word between quotes ends. -/
inductive WordEnd where
  | quote
  | gap
  | escapedBreak
  | endOfText
  deriving DecidableEq, Repr

/-- A word between quotes: its text, its length and how it ends. -/
def quotedWord? (single : Bool) : Nat → List Char → Option (List Char × Nat × WordEnd)
  | 0, _ => none
  | _, [] => some ([], 0, .endOfText)
  | fuel + 1, c :: rest =>
    let more (c : Char) (count : Nat) := do
      let (text, length, ending) ← quotedWord? single fuel (rest.drop (count - 1))
      return (c :: text, count + length, ending)
    if isGap c || isBreak c then some ([], 0, .gap)
    else if single then
      if c == '\'' then
        if rest.head? == some '\'' then more '\'' 2 else some ([], 0, .quote)
      else more c 1
    else if c == '"' then some ([], 0, .quote)
    else if c == '\\' then
      if rest.head?.any isBreak then some ([], 0, .escapedBreak)
      else do
        let (escaped, length) ← escape? rest
        more escaped (length + 1)
    else more c 1

/-- The rest of a scalar between quotes, up to the quote at its end. -/
def quotedFrom (single : Bool) (read : List Char) (cursor : Cursor) : Nat → Option ScalarText
  | 0 => none
  | fuel + 1 => do
    guard (!cursor.isAtMark)
    let (word, length, ending) ← quotedWord? single (cursor.rest.length + 1) cursor.rest
    let read := read ++ word
    let cursor := cursor.skip length
    match ending with
    | .endOfText => none
    | .quote => return { text := read, cursor := cursor.skip 1 }
    | .gap =>
      let (gap, cursor) := Gap.read cursor
      quotedFrom single (read ++ gap.folded) cursor fuel
    | .escapedBreak =>
      let (gap, cursor) := Gap.read (cursor.skip 1)
      quotedFrom single (read ++ ((gap.breaks.drop 1).map Prod.fst).flatten) cursor fuel

/-- A scalar between quotes; the opening quote is the next character. -/
def quoted? (single : Bool) (cursor : Cursor) : Option ScalarText :=
  quotedFrom single [] (cursor.skip 1) (cursor.rest.length + 1)

/-- What becomes of the line breaks at the end of a block. -/
inductive Chomping where
  | strip | clip | keep
  deriving DecidableEq, Repr

/-- The chomping and the indentation that the head of a block gives, in any order,
and what follows them. -/
def blockHead? (s : List Char) : Option (Chomping × Option Nat × List Char) :=
  let chomping? : List Char → Option Chomping × List Char
    | '+' :: rest => (some .keep, rest)
    | '-' :: rest => (some .strip, rest)
    | rest => (none, rest)
  let indent? : List Char → Option Nat × List Char
    | c :: rest => if c.isDigit then (some (c.toNat - 48), rest) else (none, c :: rest)
    | [] => (none, [])
  let (first?, rest) := chomping? s
  let (indent, rest) := indent? rest
  let (second?, rest) := if first?.isNone && indent.isSome then chomping? rest else (none, rest)
  if indent == some 0 then none
  else some ((first?.or second?).getD .clip, indent, rest)

/-- Passes empty lines of a block: their breaks, the deepest indentation on the
way, and the place behind them. A tab is no indentation. -/
def emptyLines? (indent? : Option Nat) (cursor : Cursor) :
    Nat → Option (List Char × Nat × Cursor)
  | 0 => none
  | fuel + 1 => do
    let isIndentation (column : Nat) := indent?.all (column < ·)
    let spaces := (cursor.rest.takeWhile (· == ' ')).length
    let cursor := cursor.skip (match indent? with
      | none => spaces
      | some indent => min spaces (indent - cursor.column))
    guard (!(isIndentation cursor.column && cursor.rest.head? == some '\t'))
    match cursor.takeBreak? with
    | none => return ([], cursor.column, cursor)
    | some (mark, next) =>
      let (marks, deepest, next) ← emptyLines? indent? next fuel
      return (mark ++ marks, max cursor.column deepest, next)

/-- The lines of a block. `lead` is the break behind the line before, `breaks` are
those of the empty lines after it, and `leadBlank` tells whether that line began
with a blank. In a folded block a single break between lines becomes a space. -/
def blockLines (literal : Bool) (chomping : Chomping) (indent : Nat) (read lead breaks : List Char)
    (leadBlank : Bool) (cursor : Cursor) : Nat → Option ScalarText
  | 0 => none
  | fuel + 1 => do
    if cursor.column == indent && !cursor.rest.isEmpty then
      let blank := cursor.rest.head?.any isGap
      let folds := !literal && lead == ['\n'] && !leadBlank && !blank
      let joint := if folds then (if breaks.isEmpty then [' '] else []) else lead
      let (line, cursor) := cursor.span (fun _ => true)
      let (lead, cursor) := (cursor.takeBreak?).getD ([], cursor)
      let read := read ++ joint ++ breaks ++ line
      let (breaks, _, cursor) ← emptyLines? (some indent) cursor (cursor.rest.length + 1)
      blockLines literal chomping indent read lead breaks blank cursor fuel
    else
      let ending := match chomping with
        | .strip => []
        | .clip => lead
        | .keep => lead ++ breaks
      return { text := read ++ ending, cursor }

/-- A block of lines, literal or folded; its mark is the next character. `parent`
is the indentation around the block, plus one. -/
def block? (literal : Bool) (parent : Nat) (cursor : Cursor) : Option ScalarText := do
  let (chomping, indent?, rest) ← blockHead? (cursor.rest.drop 1)
  let cursor := (cursor.skip (cursor.rest.length - rest.length)).skipGaps
  let cursor := if cursor.rest.head? == some '#' then (cursor.span fun _ => true).2 else cursor
  guard (cursor.rest.isEmpty || cursor.takeBreak?.isSome)
  let cursor := (cursor.takeBreak?.map Prod.snd).getD cursor
  let given? := indent?.map (parent - 1 + ·)
  let (breaks, deepest, cursor) ← emptyLines? given? cursor (cursor.rest.length + 1)
  let indent := given?.getD (max deepest (max parent 1))
  blockLines literal chomping indent [] [] breaks false cursor (cursor.rest.length + 1)

end IdentityRelay.Yaml
