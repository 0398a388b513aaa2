import IdentityRelay.Config.Settings

/-! The command line of the relay: options with a value, and the two switches that
print something instead. -/
namespace IdentityRelay

inductive Flag where
  | config | listen | provider | userId | appKey
  deriving DecidableEq, Repr

namespace Flag

def all : List Flag := [config, listen, provider, userId, appKey]

def long : Flag → String
  | config => "config"
  | listen => "listen"
  | provider => "upstream"
  | userId => "user-id"
  | appKey => "app-key"

def short? : Flag → Option Char
  | config => some 'c'
  | listen => some 'l'
  | provider => some 'u'
  | userId | appKey => none

/-- Whether an option takes a value. Only a file has to have a name. -/
def accepts (flag : Flag) (value : String) : Bool := flag != config || !value.isEmpty

end Flag

/-- Why a command line is not carried out. -/
inductive Refusal where
  | unknownArgument
  | invalidValue
  | repeated
  | tooManyValues
  | help
  | version
  deriving DecidableEq, Repr

/-- The value of each option that is given. -/
abbrev Arguments := List (Flag × String)

namespace Arguments

def get? (arguments : Arguments) (flag : Flag) : Option String := arguments.lookup flag

def add (arguments : Arguments) (flag : Flag) (value : String) : Except Refusal Arguments :=
  if (arguments.get? flag).isSome then .error .repeated
  else if !flag.accepts value then .error .invalidValue
  else .ok (arguments ++ [(flag, value)])

/-- An option that was named, and its value if that was seen. -/
inductive Pending where
  | nothing
  | named (flag : Flag)
  | valued (flag : Flag) (value : String)
  deriving DecidableEq, Repr

/-- Adds an option whose value stands behind it, once nothing more can belong to it. -/
def settle (arguments : Arguments) : Pending → Except Refusal Arguments
  | .nothing => .ok arguments
  | .named _ => .error .invalidValue
  | .valued flag value => arguments.add flag value

def switchOf? (long : String) : Option Refusal :=
  match long with
  | "help" => some .help
  | "version" => some .version
  | _ => none

/-- An argument with two dashes, without them. -/
def readLong (arguments : Arguments) (pending : Pending) (s : List Char) :
    Except Refusal (Arguments × Pending) := do
  let (name, value?) := match Text.cut? ['='] s with
    | some (name, value) => (String.ofList name, some (String.ofList value))
    | none => (String.ofList s, none)
  match Flag.all.find? (fun flag => flag.long == name), switchOf? name with
  | some flag, _ =>
    let arguments ← arguments.settle pending
    match value? with
    | some value => return (← arguments.add flag value, .nothing)
    | none => return (arguments, .named flag)
  | none, some switch =>
    if value?.isSome then throw .tooManyValues
    let _ ← arguments.settle pending
    throw switch
  | none, none => throw .unknownArgument

/-- An argument with one dash, without it. A switch ends the reading, so that only
the first letter counts; what follows the letter of an option is its value. -/
def readShort (arguments : Arguments) (pending : Pending) (letter : Char) (rest : List Char) :
    Except Refusal (Arguments × Pending) := do
  match Flag.all.find? (fun flag => flag.short? == some letter), letter with
  | some flag, _ =>
    let arguments ← arguments.settle pending
    match rest with
    | [] => return (arguments, .named flag)
    | '=' :: value | value => return (← arguments.add flag (String.ofList value), .nothing)
  | none, 'h' => let _ ← arguments.settle pending; throw .help
  | none, 'V' => let _ ← arguments.settle pending; throw .version
  | none, _ => throw .unknownArgument

/-- Reads the arguments behind those that were read. -/
def parseFrom (arguments : Arguments) (pending : Pending) :
    List String → Except Refusal Arguments
  | [] => arguments.settle pending
  | argument :: rest =>
    match argument.toList, pending with
    | ['-', '-'], _ => if rest.isEmpty then arguments.settle pending else .error .unknownArgument
    | '-' :: '-' :: name, _ => do
      let (arguments, pending) ← readLong arguments pending name
      parseFrom arguments pending rest
    | '-' :: letter :: letters, _ => do
      let (arguments, pending) ← readShort arguments pending letter letters
      parseFrom arguments pending rest
    | _, .named flag => parseFrom arguments (.valued flag argument) rest
    | _, _ => .error .unknownArgument

def parse (line : List String) : Except Refusal Arguments := parseFrom [] .nothing line

end Arguments

/-- The settings with the options of a command line laid over them. -/
def Settings.withArguments (settings : Settings) (arguments : Arguments) : Settings :=
  { settings with
    listenAddress? := (arguments.get? .listen).or settings.listenAddress?
    baseUrl? := (arguments.get? .provider).or settings.baseUrl?
    userId? := (arguments.get? .userId).or settings.userId?
    appKey? := (arguments.get? .appKey).or settings.appKey? }

def versionText : String := "wallet-relay 0.1.0\n"

def helpText : String :=
  "Relays requests to a Wallet Provider, adding user identity headers\n\n" ++
  "Usage: wallet-relay [OPTIONS]\n\n" ++
  "Options:\n" ++
  "  -c, --config <CONFIG>      Path to a YAML configuration file (default: wallet-relay.yaml, if present)\n" ++
  "  -l, --listen <LISTEN>      Listen address (overrides LISTEN and the config file)\n" ++
  "  -u, --upstream <UPSTREAM>  Upstream base URL (overrides API_HOST and the config file)\n" ++
  "      --user-id <USER_ID>    User identifier sent as x-iowallet-user-id (overrides USER_ID)\n" ++
  "      --app-key <APP_KEY>    Application key sent as x-functions-key (overrides APP_KEY)\n" ++
  "  -h, --help                 Print help\n" ++
  "  -V, --version              Print version\n"

/-- What a refusal prints on standard output. -/
def Refusal.printed? : Refusal → Option String
  | .help => some helpText
  | .version => some versionText
  | _ => none

end IdentityRelay
