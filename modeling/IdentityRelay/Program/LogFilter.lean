import IdentityRelay.Text.Ascii
import IdentityRelay.Text.Split

/-! Which log lines are printed: a list of directives, each a level for all lines or
for those of one part of the program. -/
namespace IdentityRelay

inductive LogLevel where
  | off | error | warn | info | debug | trace
  deriving DecidableEq, Repr

namespace LogLevel

/-- All levels, each at the place of its rank. -/
def all : List LogLevel := [off, error, warn, info, debug, trace]

def name : LogLevel → String
  | off => "off"
  | error => "error"
  | warn => "warn"
  | info => "info"
  | debug => "debug"
  | trace => "trace"

def rank : LogLevel → Nat
  | off => 0
  | error => 1
  | warn => 2
  | info => 3
  | debug => 4
  | trace => 5

/-- A level by its rank, or by its name in any case. -/
def ofText? (s : List Char) : Option LogLevel :=
  match Text.readSize? 10 s with
  | some rank => all[rank]?
  | none => all.find? fun level => Text.sameName level.name (String.ofList s)

end LogLevel

inductive LogFilterFault where
  | directive
  | level
  deriving DecidableEq, Repr

def LogFilterFault.message : LogFilterFault → String
  | .directive => "invalid filter directive"
  | .level => "error parsing level filter: expected one of \"off\", \"error\", \"warn\", " ++
    "\"info\", \"debug\", \"trace\", or a number 0-5"

/-- A level for the lines whose part of the program begins with `target`. -/
structure LogDirective where
  target : List Char
  level : LogLevel
  /-- Whether the directive holds only inside certain activities of the program; a
  start has none of them. -/
  isConfined : Bool := false
  deriving DecidableEq, Repr

namespace LogDirective

/-- Whether a directive can begin with a character. Beyond ASCII all can stand there. -/
private def opens (c : Char) : Bool :=
  c.isAlphanum || ['[', '-', ':', '_'].contains c || 0x7F < c.toNat

/-- What follows the brackets around an activity, behind the opening one. A field in
braces, which is not empty, can stand at their end. -/
private def afterActivity? (s : List Char) : Option (List Char) :=
  match s.dropWhile (fun c => c != ']' && c != '\x7b') with
  | ']' :: rest => some rest
  | '\x7b' :: field =>
    match field.dropWhile (· != '\x7d') with
    | '\x7d' :: ']' :: rest => if field.head? == some '\x7d' then none else some rest
    | _ => none
  | _ => none

private def levelOf (s : List Char) : Except LogFilterFault LogLevel :=
  if s.isEmpty then .ok .trace
  else match LogLevel.ofText? s with
    | some level => .ok level
    | none => .error .level

/-- Reads a directive: a level, or a target with an activity and a level that can
both be left out. Its form is that of the text without the blanks at its ends; the
pieces are then cut at the same places from the whole text, blanks included. -/
def ofText (s : List Char) : Except LogFilterFault LogDirective := do
  let form := Text.trim s
  if !form.head?.any opens then throw .directive
  let target := form.takeWhile fun c => c != '=' && c != '['
  let behind (rest : List Char) := s.drop (form.length - rest.length)
  match form.drop target.length with
  | '[' :: rest =>
    match afterActivity? rest with
    | some [] => return { target := s.take target.length, level := .trace, isConfined := true }
    | some ('=' :: level) =>
      return { target := s.take target.length, level := ← levelOf (behind level), isConfined := true }
    | _ => throw .directive
  | '=' :: level => return { target := s.take target.length, level := ← levelOf (behind level) }
  | _ =>
    match LogLevel.ofText? s with
    | some level => return { target := [], level }
    | none => return { target := s, level := .trace }

end LogDirective

abbrev LogFilter := List LogDirective

namespace LogFilter

/-- Reads directives between commas; empty ones are passed over. -/
def ofText (s : String) : Except LogFilterFault LogFilter :=
  ((Text.splitWhere (· == ',') s.toList).filter (fun piece => !piece.isEmpty)).mapM
    LogDirective.ofText

/-- The level for a part of the program: that of the longest target with which it
begins, the last of several. Without any directive errors are logged. -/
def levelOf (filter : LogFilter) (part : List Char) : LogLevel :=
  if filter.isEmpty then .error
  else
    let fitting := filter.filter fun directive =>
      !directive.isConfined && directive.target.isPrefixOf part
    let best := fitting.foldl (fun best directive =>
      match best with
      | some (other : LogDirective) =>
        if directive.target.length < other.target.length then some other else some directive
      | none => some directive) none
    (best.map LogDirective.level).getD .off

/-- Whether a line of level `info` from a part of the program is logged. -/
def logsInfo (filter : LogFilter) (part : String) : Bool :=
  LogLevel.info.rank ≤ (filter.levelOf part.toList).rank

end LogFilter

end IdentityRelay
