/-! The request methods that can be parsed. Which of them are relayed is a
setting. -/
namespace IdentityRelay.Http

inductive Method where
  | get | post | put | delete | head | options | patch
  deriving DecidableEq, Repr

namespace Method

def name : Method → String
  | get => "GET"
  | post => "POST"
  | put => "PUT"
  | delete => "DELETE"
  | head => "HEAD"
  | options => "OPTIONS"
  | patch => "PATCH"

def all : List Method := [get, post, put, delete, head, options, patch]

/-- The method with exactly this name; case matters. -/
def ofName? (name : String) : Option Method := all.find? (fun method => method.name == name)

theorem ofName?_name (method : Method) : ofName? method.name = some method := by
  cases method <;> decide

theorem name_of_ofName? {name : String} {method : Method} (found : ofName? name = some method) :
    method.name = name := by
  simpa using List.find?_some found

end Method

end IdentityRelay.Http
