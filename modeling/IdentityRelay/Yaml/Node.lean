import IdentityRelay.Yaml.Token

/-! The documents of a YAML text as trees. Aliases stand for what their anchor
names; a tag is resolved to its full text. -/
namespace IdentityRelay.Yaml

inductive Node where
  /-- A scalar; `isPlain` tells that it stood without quotes and not as a block. -/
  | scalar (text : String) (isPlain : Bool) (tag? : Option String)
  | sequence (items : List Node) (tag? : Option String)
  | mapping (entries : List (Node × Node)) (tag? : Option String)

namespace Node

def empty : Node := .scalar "" true none

/-- What reading a document has to know. -/
structure Reader where
  tokens : List Token
  /-- What each anchor names, the latest first; a node that is being read has an
  anchor that names nothing yet. -/
  anchors : List (String × Option Node) := []
  /-- What the handles of tags stand for. -/
  handles : List (String × String) := []

/-- Reading that may fail. -/
abbrev Reading := StateT Reader Option

def peek : Reading (Option Token) := do return (← get).tokens.head?

def advance : Reading Unit := modify fun reader => { reader with tokens := reader.tokens.drop 1 }

/-- Passes a token if it comes next, and tells whether it did. -/
def accept (token : Token) : Reading Bool := do
  if (← peek) == some token then
    advance
    return true
  else return false

def expect (token : Token) : Reading Unit := do
  if !(← accept token) then failure

def standardHandles : List (String × String) := [("!", "!"), ("!!", "tag:yaml.org,2002:")]

def resolveTag (handle rest : String) : Reading String := do
  if handle.isEmpty then return rest
  match ((← get).handles ++ standardHandles).lookup handle with
  | some text => return text ++ rest
  | none => failure

/-- Gives an anchor its meaning. -/
def bind (anchor? : Option String) (node? : Option Node) : Reading Unit :=
  match anchor? with
  | some anchor => modify fun reader => { reader with anchors := (anchor, node?) :: reader.anchors }
  | none => return ()

/-- The anchor and the tag before a node, in any order. -/
def properties : Reading (Option String × Option String) := do
  let anchor : Reading (Option String) := do
    match ← peek with
    | some (.anchor name) => advance; return some name
    | _ => return none
  let tag : Reading (Option String) := do
    match ← peek with
    | some (.tag handle rest) => advance; return some (← resolveTag handle rest)
    | _ => return none
  match ← anchor with
  | some name => return (some name, ← tag)
  | none =>
    let tag? ← tag
    return (← anchor, tag?)

/-- Whether one of these tokens comes next, or none at all. -/
def isBefore (tokens : List Token) : Reading Bool := do
  return (← peek).all tokens.contains

mutual

/-- A node. `inBlock` allows block collections, `indentless` a block sequence that
is not indented deeper than the key before it. -/
def node (inBlock indentless : Bool) : Nat → Reading Node
  | 0 => failure
  | fuel + 1 => do
    if let some (.alias name) ← peek then
      advance
      match (← get).anchors.lookup name with
      | some (some target) => return target
      | _ => failure
    let (anchor?, tag?) ← properties
    bind anchor? none
    let result ← content inBlock indentless (anchor?.isSome || tag?.isSome) tag? fuel
    bind anchor? (some result)
    return result

/-- The content of a node behind its properties. Without any, only a node that has
properties may be empty. -/
def content (inBlock indentless hasProperties : Bool) (tag? : Option String) :
    Nat → Reading Node
  | 0 => failure
  | fuel + 1 => do
    match ← peek with
    | some (.scalar text isPlain) =>
      advance
      return .scalar text isPlain (tag?.filter (· != "!"))
    | some .flowSequence =>
      advance
      return .sequence (← flowItems true fuel) tag?
    | some .flowMapping =>
      advance
      return .mapping (← flowEntries true fuel) tag?
    | some .blockSequence =>
      if !inBlock then failure
      advance
      let items ← blockItems fuel
      expect .blockEnd
      return .sequence items tag?
    | some .blockMapping =>
      if !inBlock then failure
      advance
      return .mapping (← blockEntries fuel) tag?
    | some .blockEntry =>
      if indentless then return .sequence (← indentlessItems fuel) tag?
      else if hasProperties then return .scalar "" true tag?
      else failure
    | _ => if hasProperties then return .scalar "" true tag? else failure

def blockItems : Nat → Reading (List Node)
  | 0 => failure
  | fuel + 1 => do
    if ← accept .blockEntry then
      let item ← if ← isBefore [.blockEntry, .blockEnd] then pure empty else node true false fuel
      return item :: (← blockItems fuel)
    else return []

def indentlessItems : Nat → Reading (List Node)
  | 0 => failure
  | fuel + 1 => do
    if ← accept .blockEntry then
      let isEmpty ← isBefore [.blockEntry, .key, .value, .blockEnd]
      let item ← if isEmpty then pure empty else node true false fuel
      return item :: (← indentlessItems fuel)
    else return []

def blockEntries : Nat → Reading (List (Node × Node))
  | 0 => failure
  | fuel + 1 => do
    if ← accept .key then
      let key ← blockPart fuel
      let value ← if ← accept .value then blockPart fuel else pure empty
      return (key, value) :: (← blockEntries fuel)
    else
      expect .blockEnd
      return []

def blockPart : Nat → Reading Node
  | 0 => failure
  | fuel + 1 => do
    if ← isBefore [.key, .value, .blockEnd] then return empty else node true true fuel

/-- The items of a flow sequence, up to its end. A key among them is a mapping with
one entry. -/
def flowItems (isFirst : Bool) : Nat → Reading (List Node)
  | 0 => failure
  | fuel + 1 => do
    if ← accept .flowSequenceEnd then return []
    if !isFirst then
      expect .flowEntry
      if ← accept .flowSequenceEnd then return []
    let item ← if ← accept .key then do
        let key ← flowPart [.value, .flowEntry, .flowSequenceEnd] fuel
        let value ← if ← accept .value then
            flowPart [.flowEntry, .flowSequenceEnd] fuel
          else pure empty
        pure (Node.mapping [(key, value)] none)
      else node false false fuel
    return item :: (← flowItems false fuel)

def flowEntries (isFirst : Bool) : Nat → Reading (List (Node × Node))
  | 0 => failure
  | fuel + 1 => do
    if ← accept .flowMappingEnd then return []
    if !isFirst then
      expect .flowEntry
      if ← accept .flowMappingEnd then return []
    let entry ← if ← accept .key then do
        let key ← flowPart [.value, .flowEntry, .flowMappingEnd] fuel
        let value ← if ← accept .value then
            flowPart [.flowEntry, .flowMappingEnd] fuel
          else pure empty
        pure (key, value)
      else do pure (← node false false fuel, empty)
    return entry :: (← flowEntries false fuel)

/-- A key or a value of a flow collection; it is empty before one of `ends`. -/
def flowPart (ends : List Token) : Nat → Reading Node
  | 0 => failure
  | fuel + 1 => do
    if ← isBefore ends then return empty else node false false fuel

end

/-- The directives before a document. There is at most one version, of the first
generation of the language, and one meaning for each handle. -/
def directives (hasVersion : Bool) : Nat → Reading Unit
  | 0 => failure
  | fuel + 1 => do
    match ← peek with
    | some (.version major minor) =>
      if hasVersion || major != 1 || !(minor == 1 || minor == 2) then failure
      advance
      directives true fuel
    | some (.tagHandle handle text) =>
      if ((← get).handles.lookup handle).isSome then failure
      advance
      modify fun reader => { reader with handles := (handle, text) :: reader.handles }
      directives hasVersion fuel
    | _ => return ()

/-- The node of a document, with enough fuel for all its tokens. -/
def root : Reading Node := do node true false (3 * (← get).tokens.length + 3)

private def startsDocument : Token → Bool
  | .version .. | .tagHandle .. | .documentStart => true
  | _ => false

/-- One document with its marks. Only the first may be without a mark at its start. -/
def document (isFirst : Bool) : Reading Node := do
  modify fun reader => { reader with anchors := [], handles := [] }
  let isBare := isFirst && !(← peek).any startsDocument
  let node ← if isBare then root else do
    directives false ((← get).tokens.length + 1)
    expect .documentStart
    let isEmpty := (← peek).all fun token => startsDocument token || token == .documentEnd
    if isEmpty then pure empty else root
  let _ ← accept .documentEnd
  return node

def documents (isFirst : Bool) : Nat → Reading (List Node)
  | 0 => failure
  | fuel + 1 => do
    if !isFirst then
      modify fun reader => { reader with tokens := reader.tokens.dropWhile (· == .documentEnd) }
    if (← peek).isNone then return []
    return (← document isFirst) :: (← documents false fuel)

def ofText? (text : String) : Option (List Node) := do
  let tokens ← tokens? text
  (documents true (tokens.length + 1)).run' { tokens }

end Node

end IdentityRelay.Yaml
