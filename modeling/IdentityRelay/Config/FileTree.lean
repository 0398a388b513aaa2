import IdentityRelay.Config.Document

/-! The files from which settings are read, named relative to one directory. -/
namespace IdentityRelay

inductive FileTree.Entry where
  | directory
  | file (contents : Bytes)
  deriving DecidableEq, Repr

/-- Files and directories by their places: the components of a path from the working
directory, or behind an empty component those of a path from the root. -/
structure FileTree where
  entries : List (List String × FileTree.Entry)
  deriving DecidableEq, Repr

namespace FileTree

def components (path : String) : List String :=
  (Text.splitWhere (· == '/') path.toList).map String.ofList

/-- The place of a path, where it does not lead upwards. -/
def placeOf (path : String) : List String :=
  let named := (components path).filter fun component => !component.isEmpty && component != "."
  if path.startsWith "/" then "" :: named else named

/-- The entry at a place. What lies above an entry is a directory, and so are the
working directory and the root. -/
def at? (tree : FileTree) (place : List String) : Option Entry :=
  match tree.entries.lookup place with
  | some entry => some entry
  | none =>
    if place.isEmpty || place == [""] || tree.entries.any (fun (other, _) => place.isPrefixOf other) then
      some .directory
    else none

def nameLimit : Nat := 255

def pathLimit : Nat := 4095

/-- Follows the components of a path. Only a directory can be entered. -/
def follow (tree : FileTree) (place : List String) : List String → Except ReadFault Entry
  | [] =>
    match tree.at? place with
    | some entry => .ok entry
    | none => .error .notFound
  | component :: rest =>
    match tree.at? place with
    | none => .error .notFound
    | some (.file _) => .error .notDirectory
    | some .directory =>
      if nameLimit < component.utf8ByteSize then .error .nameTooLong
      else if component.isEmpty || component == "." then tree.follow place rest
      else if component == ".." then tree.follow place.dropLast rest
      else tree.follow (place ++ [component]) rest

def find (tree : FileTree) (path : String) : Except ReadFault Entry :=
  if path.toList.contains '\x00' then .error .zeroInName
  else if pathLimit < path.utf8ByteSize then .error .nameTooLong
  else match components path with
    | [""] => .error .notFound
    | "" :: rest => tree.follow [""] rest
    | place => tree.follow [] place

def readText (tree : FileTree) (path : String) : Except ReadFault String := do
  match ← tree.find path with
  | .directory => throw .isDirectory
  | .file contents =>
    match Utf8.decode? contents with
    | some text => return text
    | none => throw .notText

def contains (tree : FileTree) (path : String) : Bool := (tree.find path).isOk

end FileTree

namespace Settings

def defaultPath : String := "wallet-relay.yaml"

def read (files : FileTree) (path : String) : Except ConfigFault Settings := do
  let contents ← (files.readText path).mapError (ConfigFault.read path)
  ofYaml path contents

/-- Reads the named file, or the default one. Only a named file has to exist. -/
def load (files : FileTree) (path? : Option String) : Except ConfigFault Settings :=
  match path? with
  | some path => read files path
  | none => if files.contains defaultPath then read files defaultPath else .ok {}

end Settings

def Config.load (files : FileTree) (path? : Option String) (environment : Environment) :
    Except ConfigFault Config := do
  ((← Settings.load files path?).withEnvironment environment).resolve

end IdentityRelay
