/-! A place in a YAML text, with the characters that are left and their line and column. -/
namespace IdentityRelay.Yaml

/-- Space and tab. -/
def isGap (c : Char) : Bool := c == ' ' || c == '\t'

def isBreak (c : Char) : Bool :=
  c == '\n' || c == '\r' || c == '\x85' || c == '\u2028' || c == '\u2029'

/-- Whether a word ends before these characters. -/
def endsWord (rest : List Char) : Bool := rest.head?.all fun c => isGap c || isBreak c

/-- Whether a line begins with a mark of three characters that starts or ends a document. -/
def startsWithMark (mark : Char) (rest : List Char) : Bool :=
  [mark, mark, mark].isPrefixOf rest && endsWord (rest.drop 3)

structure Cursor where
  rest : List Char
  index : Nat := 0
  line : Nat := 0
  column : Nat := 0
  deriving DecidableEq, Repr

namespace Cursor

def skip (cursor : Cursor) (count : Nat) : Cursor :=
  { cursor with
    rest := cursor.rest.drop count
    index := cursor.index + count
    column := cursor.column + count }

/-- The characters up to the first one that fails a test, none of them a line break. -/
def span (cursor : Cursor) (test : Char → Bool) : List Char × Cursor :=
  let taken := cursor.rest.takeWhile fun c => test c && !isBreak c
  (taken, cursor.skip taken.length)

def skipGaps (cursor : Cursor) : Cursor := (cursor.span isGap).2

/-- Passes a line break, which is read as a line feed unless it separates lines or
paragraphs. -/
def takeBreak? (cursor : Cursor) : Option (List Char × Cursor) :=
  let after (rest : List Char) (count : Nat) : Cursor :=
    { rest, index := cursor.index + count, line := cursor.line + 1, column := 0 }
  match cursor.rest with
  | '\r' :: '\n' :: rest => some (['\n'], after rest 2)
  | c :: rest =>
    if c == '\u2028' || c == '\u2029' then some ([c], after rest 1)
    else if isBreak c then some (['\n'], after rest 1)
    else none
  | [] => none

/-- Whether the line begins with a document mark here. -/
def isAtMark (cursor : Cursor) : Bool :=
  cursor.column == 0 && (startsWithMark '-' cursor.rest || startsWithMark '.' cursor.rest)

end Cursor

end IdentityRelay.Yaml
