import IdentityRelay.Config.Settings
import IdentityRelay.Yaml.Node

/-! Settings as a YAML document: a mapping whose keys are all known, with a mapping
of its own for the provider. -/
namespace IdentityRelay
open IdentityRelay.Http

namespace Yaml.Node
variable {α : Type}

/-- The spellings of the null value. -/
def nullTexts : List String := ["null", "Null", "NULL", "~"]

def nullTag : String := "tag:yaml.org,2002:null"

def text? : Node → Option String
  | .scalar text _ _ => some text
  | _ => none

/-- A node that may be null, which is written plain, as nothing or by name. Any tag
but that of null makes it a value. -/
def optional (read? : Node → Option α) (node : Node) : Option (Option α) :=
  let value := (read? node).map some
  match node with
  | .scalar text true (some tag) =>
    if tag != nullTag then value
    else if nullTexts.contains text then some none
    else none
  | .scalar text true none =>
    if text.isEmpty || nullTexts.contains text then some none else value
  | _ => value

/-- The entries of a mapping with known keys, none of them twice. Nothing at all is
a mapping without entries. -/
def fields? (known : List String) : Node → Option (List (String × Node))
  | .mapping entries _ => do
    let fields ← entries.mapM fun (key, value) => return (← key.text?, value)
    let keys := fields.map Prod.fst
    guard (keys.all known.contains && keys.eraseDups.length == keys.length)
    return fields
  | .scalar "" true _ => some []
  | _ => none

/-- The value of a field that may be left out or null. -/
def field? (fields : List (String × Node)) (read? : Node → Option α) (key : String) :
    Option (Option α) :=
  match fields.lookup key with
  | some node => optional read? node
  | none => some none

/-- A method by its name; the name can also be a local tag on nothing. -/
def method? : Node → Option Method
  | .scalar text isPlain tag? =>
    match (tag?.map String.toList) with
    | some ('!' :: name) =>
      if isPlain && (text.isEmpty || nullTexts.contains text) then
        Method.ofName? (String.ofList name)
      else none
    | _ => Method.ofName? text
  | _ => none

def methods? : Node → Option (List Method)
  | .sequence items _ => items.mapM method?
  | .scalar "" true _ => some []
  | _ => none

end Yaml.Node

namespace Settings
open Yaml

def ofNode? (node : Node) : Option Settings := do
  let fields ← node.fields? ["listen_addr", "upstream", "allowed_methods", "log_level"]
  let provider ← ((fields.lookup "upstream").getD Node.empty).fields?
    ["base_url", "user_id", "app_key"]
  return {
    listenAddress? := ← Node.field? fields Node.text? "listen_addr"
    baseUrl? := ← Node.field? provider Node.text? "base_url"
    userId? := ← Node.field? provider Node.text? "user_id"
    appKey? := ← Node.field? provider Node.text? "app_key"
    allowedMethods? := ← Node.field? fields Node.methods? "allowed_methods"
    logLevel? := ← Node.field? fields Node.text? "log_level" }

/-- The settings in the text of a file with at most one document. A blank file and
one without a document hold none. -/
def ofYaml (path contents : String) : Except ConfigFault Settings :=
  let settings? : Option Settings :=
    if Text.allBlank contents then some {}
    else match Node.ofText? contents with
      | some [] => some {}
      | some [node] => ofNode? node
      | _ => none
  match settings? with
  | some settings => .ok settings
  | none => .error (.parse path)

end Settings

end IdentityRelay
