import IdentityRelay.Yaml.Scalar

/-! The tokens of a YAML text. Indentation is made explicit: a block collection has
a token where it begins and one where it ends, and a key is marked even where the
text shows it only by the colon behind it. -/
namespace IdentityRelay.Yaml

inductive Token where
  | version (major minor : Nat)
  | tagHandle (handle text : String)
  | documentStart | documentEnd
  | blockSequence | blockMapping | blockEnd
  | flowSequence | flowSequenceEnd | flowMapping | flowMappingEnd
  | blockEntry | flowEntry
  | key | value
  | alias (name : String)
  | anchor (name : String)
  | tag (handle rest : String)
  | scalar (text : String) (isPlain : Bool)
  deriving DecidableEq, Repr

/-- A place at which a key may have begun that only a colon will confirm. -/
structure KeyPlace where
  /-- Whether nothing but a key can stand here. -/
  isRequired : Bool
  /-- How many tokens there are before it. -/
  tokens : Nat
  index : Nat
  line : Nat
  column : Nat
  deriving DecidableEq, Repr

/-- What was read of a text. -/
structure Scan where
  cursor : Cursor
  /-- The tokens so far, the last one first. -/
  tokens : List Token := []
  /-- The column of the innermost block collection; -1 outside of all. -/
  indent : Int := -1
  /-- The columns of the block collections around it. -/
  outer : List Int := []
  /-- Whether a key may begin at the next token. -/
  keyAllowed : Bool := true
  /-- The last place where a key may have begun, for each open flow collection and,
  at the end, for the text around them. -/
  places : List (Option KeyPlace) := [none]
  deriving DecidableEq, Repr

namespace Scan

def keyLimit : Nat := 1024

def inFlow (scan : Scan) : Bool := 1 < scan.places.length

def push (scan : Scan) (token : Token) : Scan := { scan with tokens := token :: scan.tokens }

/-- Puts tokens behind the first `count` ones. -/
def insert (scan : Scan) (count : Nat) (tokens : List Token) : Scan :=
  let later := scan.tokens.length - count
  { scan with tokens := scan.tokens.take later ++ tokens.reverse ++ scan.tokens.drop later }

/-- Passes blanks, comments and empty lines. A new line may begin with a key. -/
def skipToToken (scan : Scan) : Nat → Scan
  | 0 => scan
  | fuel + 1 =>
    let tabs := scan.inFlow || !scan.keyAllowed
    let (_, cursor) := scan.cursor.span fun c => c == ' ' || (tabs && c == '\t')
    let cursor := if cursor.rest.head? == some '#' then (cursor.span fun _ => true).2 else cursor
    match cursor.takeBreak? with
    | none => { scan with cursor }
    | some (_, cursor) =>
      skipToToken { scan with cursor, keyAllowed := scan.keyAllowed || !scan.inFlow } fuel

/-- Gives up the places where no key can be any more, because the line has ended or
the key would be too long. A required key must not be given up. -/
def dropStale (scan : Scan) : Option Scan := do
  let isStale (place : KeyPlace) :=
    place.line < scan.cursor.line || place.index + keyLimit < scan.cursor.index
  guard (!scan.places.any fun place? => place?.any fun place => isStale place && place.isRequired)
  return { scan with places := scan.places.map fun place? => place?.filter (!isStale ·) }

/-- Ends the block collections that are indented deeper than `column`. -/
def unroll (scan : Scan) (column : Int) : Scan :=
  if scan.inFlow then scan
  else
    let columns := scan.indent :: scan.outer
    let ended := columns.takeWhile (column < ·)
    match columns.drop ended.length with
    | indent :: outer =>
      { scan with
        indent, outer
        tokens := List.replicate ended.length Token.blockEnd ++ scan.tokens }
    | [] => scan

/-- Begins a block collection at `column` behind the first `count` tokens, unless
there is one already. -/
def roll (scan : Scan) (column count : Nat) (token : Token) : Scan :=
  if !scan.inFlow && scan.indent < column then
    { scan.insert count [token] with indent := column, outer := scan.indent :: scan.outer }
  else scan

def rollHere (scan : Scan) (token : Token) : Scan :=
  scan.roll scan.cursor.column scan.tokens.length token

/-- Gives up the place of the innermost collection. -/
def dropPlace (scan : Scan) : Option Scan :=
  match scan.places with
  | some place :: places =>
    if place.isRequired then none else some { scan with places := none :: places }
  | _ => some scan

/-- Notes that a key may begin here. -/
def savePlace (scan : Scan) : Option Scan :=
  if !scan.keyAllowed then some scan
  else do
    let scan ← scan.dropPlace
    let place : KeyPlace := {
      isRequired := !scan.inFlow && scan.indent == scan.cursor.column
      tokens := scan.tokens.length
      index := scan.cursor.index
      line := scan.cursor.line
      column := scan.cursor.column }
    return { scan with places := some place :: scan.places.drop 1 }

def skip (scan : Scan) (count : Nat) : Scan := { scan with cursor := scan.cursor.skip count }

def setKeyAllowed (scan : Scan) (keyAllowed : Bool) : Scan := { scan with keyAllowed }

def documentMark (scan : Scan) (token : Token) : Option Scan := do
  let scan ← (scan.unroll (-1)).dropPlace
  return ((scan.setKeyAllowed false).skip 3).push token

/-- The end of a directive: blanks, perhaps a comment, and the end of the line. -/
def endDirective (scan : Scan) (rest : List Char) (token : Token) : Option Scan := do
  let passed := scan.cursor.rest.length - rest.length
  let cursor := (scan.cursor.skip passed).skipGaps
  let cursor := if cursor.rest.head? == some '#' then (cursor.span fun _ => true).2 else cursor
  guard (cursor.rest.isEmpty || cursor.takeBreak?.isSome)
  return { scan.push token with cursor := (cursor.takeBreak?.map Prod.snd).getD cursor }

def isNameChar (c : Char) : Bool := c.isAlphanum || c == '-' || c == '_'

/-- A decimal number of at most nine digits, and what follows it. -/
def number? (s : List Char) : Option (Nat × List Char) := do
  let digits := s.takeWhile Char.isDigit
  guard (1 ≤ digits.length && digits.length ≤ 9)
  return (Text.ofDigits 10 (digits.filterMap (Text.digit? 10)), s.drop digits.length)

/-- The handle of a tag: an exclamation mark, perhaps a name and another mark. -/
def handle? (s : List Char) : Option (List Char × List Char) :=
  match s with
  | '!' :: rest =>
    let name := rest.takeWhile isNameChar
    let rest := rest.drop name.length
    match rest with
    | '!' :: rest => some ('!' :: name ++ ['!'], rest)
    | rest => some ('!' :: name, rest)
  | _ => none

/-- The text of a tag, with the bytes of percent escapes, and what follows it. -/
def tagText? (isVerbatim : Bool) : Nat → List Char → Option (List UInt8 × List Char)
  | 0, _ => none
  | _, [] => some ([], [])
  | fuel + 1, c :: rest =>
    let isTagChar := isNameChar c || ";/?:@&=+$.!~*'()".toList.contains c ||
      (isVerbatim && [',', '[', ']'].contains c)
    if c == '%' then
      match rest with
      | high :: low :: rest => do
        let byte := 16 * (← Text.digit? 16 high) + (← Text.digit? 16 low)
        let (text, rest) ← tagText? isVerbatim fuel rest
        return (UInt8.ofNat byte :: text, rest)
      | _ => none
    else if isTagChar then do
      let (text, rest) ← tagText? isVerbatim fuel rest
      return (c.toUInt8 :: text, rest)
    else some ([], c :: rest)

/-- The text of a tag behind `start`, which must not be empty as a whole. -/
def readTagText? (isVerbatim : Bool) (start s : List Char) : Option (String × List Char) := do
  let (bytes, rest) ← tagText? isVerbatim (s.length + 1) s
  let text ← String.fromUTF8? ⟨bytes.toArray⟩
  let whole := String.ofList start ++ text
  return (whole, rest)

/-- A directive: the version of the language, or a handle of tags. -/
def directive (scan : Scan) : Option Scan := do
  let scan ← (scan.unroll (-1)).dropPlace
  let scan := scan.setKeyAllowed false
  let line := scan.cursor.rest.drop 1
  let name := line.takeWhile isNameChar
  let rest := line.drop name.length
  guard (endsWord rest)
  let rest := rest.dropWhile isGap
  if name == "YAML".toList then
    let (major, rest) ← number? rest
    guard (rest.head? == some '.')
    let (minor, rest) ← number? (rest.drop 1)
    scan.endDirective rest (.version major minor)
  else if name == "TAG".toList then
    let (handle, rest) ← handle? rest
    guard (handle.getLast? == some '!' && rest.head?.any isGap)
    let (text, rest) ← readTagText? true [] (rest.dropWhile isGap)
    guard (!text.isEmpty && endsWord rest)
    scan.endDirective rest (.tagHandle (String.ofList handle) text)
  else none

def openFlow (scan : Scan) (token : Token) : Option Scan := do
  let scan ← scan.savePlace
  return (({ scan with places := none :: scan.places }.setKeyAllowed true).skip 1).push token

def closeFlow (scan : Scan) (token : Token) : Option Scan := do
  let scan ← scan.dropPlace
  let places := if scan.inFlow then scan.places.drop 1 else scan.places
  return (({ scan with places }.setKeyAllowed false).skip 1).push token

def flowEntry (scan : Scan) : Option Scan := do
  return (((← scan.dropPlace).setKeyAllowed true).skip 1).push .flowEntry

def blockEntry (scan : Scan) : Option Scan := do
  guard (scan.inFlow || scan.keyAllowed)
  return ((((← (scan.rollHere .blockSequence).dropPlace)).setKeyAllowed true).skip 1).push .blockEntry

def explicitKey (scan : Scan) : Option Scan := do
  guard (scan.inFlow || scan.keyAllowed)
  let scan ← (scan.rollHere .blockMapping).dropPlace
  return ((scan.setKeyAllowed !scan.inFlow).skip 1).push .key

/-- A colon before a value. What stands at the noted place turns out to be a key. -/
def value (scan : Scan) : Option Scan := do
  match scan.places with
  | some place :: places =>
    let scan := { scan with places := none :: places }.insert place.tokens [.key]
    let scan := scan.roll place.column place.tokens .blockMapping
    return ((scan.setKeyAllowed false).skip 1).push .value
  | _ =>
    guard (scan.inFlow || scan.keyAllowed)
    let scan := scan.rollHere .blockMapping
    return ((scan.setKeyAllowed !scan.inFlow).skip 1).push .value

def anchor (scan : Scan) (token : String → Token) : Option Scan := do
  let scan := (← scan.savePlace).setKeyAllowed false
  let rest := scan.cursor.rest.drop 1
  let name := rest.takeWhile isNameChar
  let after := rest.drop name.length
  guard (!name.isEmpty &&
    (endsWord after || after.head?.any (['?', ':', ',', ']', '\x7d', '%', '@', '\x60'].contains ·)))
  return (scan.skip (name.length + 1)).push (token (String.ofList name))

/-- The handle and the rest of a tag, and what follows it. -/
def tag? (s : List Char) : Option (String × String × List Char) := do
  match s with
  | '!' :: '<' :: rest =>
    let (text, rest) ← readTagText? true [] rest
    guard (!text.isEmpty && rest.head? == some '>')
    return ("", text, rest.drop 1)
  | s =>
    let (handle, rest) ← handle? s
    if 2 ≤ handle.length && handle.getLast? == some '!' then
      let (text, rest) ← readTagText? false [] rest
      guard (!text.isEmpty)
      return (String.ofList handle, text, rest)
    else
      let (text, rest) ← readTagText? false (handle.drop 1) rest
      return if text.isEmpty then ("", "!", rest) else ("!", text, rest)

def tag (scan : Scan) : Option Scan := do
  let scan := (← scan.savePlace).setKeyAllowed false
  let (handle, text, rest) ← tag? scan.cursor.rest
  guard (endsWord rest || (scan.inFlow && rest.head? == some ','))
  return (scan.skip (scan.cursor.rest.length - rest.length)).push (.tag handle text)

def quoted (scan : Scan) (single : Bool) : Option Scan := do
  let scan := (← scan.savePlace).setKeyAllowed false
  let scalar ← quoted? single scan.cursor
  return { scan with cursor := scalar.cursor }.push (.scalar (String.ofList scalar.text) false)

def block (scan : Scan) (literal : Bool) : Option Scan := do
  let scan := (← scan.dropPlace).setKeyAllowed true
  let scalar ← block? literal (scan.indent + 1).toNat scan.cursor
  return { scan with cursor := scalar.cursor }.push (.scalar (String.ofList scalar.text) false)

/-- A plain scalar. If it ends where a line begins, a key may follow. -/
def plain (scan : Scan) : Option Scan := do
  let scan := (← scan.savePlace).setKeyAllowed false
  let scalar ← plain? scan.inFlow (scan.indent + 1).toNat scan.cursor
  return { scan with cursor := scalar.cursor, keyAllowed := scalar.atLineStart }.push
    (.scalar (String.ofList scalar.text) true)

/-- The characters that cannot begin a plain scalar. -/
def isIndicator (c : Char) : Bool := "-?:,[]\x7b\x7d#&*!|>'\"%@\x60".toList.contains c

def token (scan : Scan) (c : Char) (rest : List Char) : Option Scan :=
  let isLoose := scan.inFlow || endsWord rest
  let isFirst := scan.cursor.column == 0
  if isFirst && c == '%' then scan.directive
  else if isFirst && startsWithMark '-' (c :: rest) then scan.documentMark .documentStart
  else if isFirst && startsWithMark '.' (c :: rest) then scan.documentMark .documentEnd
  else match c with
    | '[' => scan.openFlow .flowSequence
    | '\x7b' => scan.openFlow .flowMapping
    | ']' => scan.closeFlow .flowSequenceEnd
    | '\x7d' => scan.closeFlow .flowMappingEnd
    | ',' => scan.flowEntry
    | '*' => scan.anchor .alias
    | '&' => scan.anchor .anchor
    | '!' => scan.tag
    | '\'' => scan.quoted true
    | '"' => scan.quoted false
    | c =>
      if c == '-' && endsWord rest then scan.blockEntry
      else if c == '?' && isLoose then scan.explicitKey
      else if c == ':' && isLoose then scan.value
      else if c == '|' && !scan.inFlow then scan.block true
      else if c == '>' && !scan.inFlow then scan.block false
      else if !(endsWord [c] || isIndicator c) || (c == '-' && !rest.head?.any isGap) ||
          (!scan.inFlow && (c == '?' || c == ':')) then scan.plain
      else none

def toEnd (scan : Scan) : Nat → Option (List Token)
  | 0 => none
  | fuel + 1 => do
    let scan ← (scan.skipToToken (scan.cursor.rest.length + 1)).dropStale
    match scan.cursor.rest with
    | [] => return (← (scan.unroll (-1)).dropPlace).tokens.reverse
    | c :: rest => (← (scan.unroll scan.cursor.column).token c rest).toEnd fuel

end Scan

/-- Whether a YAML text may hold a character. -/
def isAllowed (c : Char) : Bool :=
  let n := c.toNat
  c == '\t' || c == '\n' || c == '\r' || (0x20 ≤ n && n ≤ 0x7E) || n == 0x85 ||
    (0xA0 ≤ n && n ≤ 0xFFFD) || 0x10000 ≤ n

/-- The tokens of a text, if it can be divided into tokens. A byte order mark in
front is passed. -/
def tokens? (text : String) : Option (List Token) :=
  let chars := text.toList
  if chars.all isAllowed then
    let cursor : Cursor :=
      if chars.head? == some '\ufeff' then { rest := chars.drop 1, index := 1, column := 1 }
      else { rest := chars }
    Scan.toEnd { cursor } (chars.length + 1)
  else none

end IdentityRelay.Yaml
