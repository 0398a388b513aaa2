/-! The environment variables that hold settings. -/
namespace IdentityRelay

inductive Variable where
  | listen | apiHost | userId | appKey | logLevel
  deriving DecidableEq, Repr

namespace Variable

def name : Variable → String
  | listen => "LISTEN"
  | apiHost => "API_HOST"
  | userId => "USER_ID"
  | appKey => "APP_KEY"
  | logLevel => "LOG_LEVEL"

end Variable

/-- The value of each variable that is set. -/
abbrev Environment := Variable → Option String

end IdentityRelay
