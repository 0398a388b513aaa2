import IdentityRelay.Config.Variable
import IdentityRelay.Url.Fault

/-! Why there is no usable configuration. -/
namespace IdentityRelay

/-- Why a text is no base URL for a provider. -/
inductive BaseUrlFault where
  | malformed (fault : Url.Fault)
  | scheme
  | host
  | queryOrFragment
  deriving DecidableEq, Repr

def BaseUrlFault.message : BaseUrlFault → String
  | .malformed fault => fault.message
  | .scheme => "scheme must be http or https"
  | .host => "missing host"
  | .queryOrFragment => "query and fragment are not allowed"

inductive ReadFault where
  | notFound
  | isDirectory
  | notDirectory
  | notText
  /-- The path, or a name in it, is longer than any can be. -/
  | nameTooLong
  | zeroInName
  deriving DecidableEq, Repr

def ReadFault.message : ReadFault → String
  | .notFound => "No such file or directory (os error 2)"
  | .isDirectory => "Is a directory (os error 21)"
  | .notDirectory => "Not a directory (os error 20)"
  | .notText => "stream did not contain valid UTF-8"
  | .nameTooLong => "File name too long (os error 36)"
  | .zeroInName => "file name contained an unexpected NUL byte"

inductive ConfigFault where
  /-- A setting without a default has no value; it is named by its variable. -/
  | missing (setting : Variable)
  | invalidUrl (value : String) (fault : BaseUrlFault)
  | noMethods
  | read (path : String) (fault : ReadFault)
  | parse (path : String)
  deriving DecidableEq, Repr

/-- The text of a fault. For a file that is no settings document the reason is left out. -/
def ConfigFault.message : ConfigFault → String
  | .missing setting => "missing required setting `" ++ setting.name ++ "`"
  | .invalidUrl value fault =>
    "invalid upstream base URL `" ++ value ++ "`: " ++ fault.message
  | .noMethods => "`allowed_methods` must not be empty"
  | .read path fault => "failed to read config file " ++ path ++ ": " ++ fault.message
  | .parse path => "failed to parse config file " ++ path ++ ": "

end IdentityRelay
