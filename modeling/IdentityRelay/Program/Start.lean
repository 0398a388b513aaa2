import IdentityRelay.Config.FileTree
import IdentityRelay.Program.CommandLine
import IdentityRelay.Program.ListenAddress
import IdentityRelay.Program.LogFilter

/-! How the program starts: it reads the command line, loads and checks its
settings, and then either ends with a message or listens. -/
namespace IdentityRelay.Program

/-- What the program meets when it is started. -/
structure Surroundings where
  arguments : List String
  environment : Environment
  /-- The filter of log lines that the environment sets. -/
  logFilter? : Option String := none
  files : FileTree

/-- What comes of a start. -/
inductive Outcome where
  | refused (refusal : Refusal)
  | misconfigured (fault : ConfigFault)
  | badLogFilter (fault : LogFilterFault)
  /-- The lines were logged before the address turned out to be unusable. -/
  | cannotListen (log : List String) (fault : ListenFault)
  | listening (log : List String) (config : Config) (address : ListenAddress)
  deriving DecidableEq, Repr

/-- The parts of the program that log a line of the start. -/
def corePart : String := "wallet_relay"

def listenerPart : String := "wallet_relay::server::listener"

/-- The line about a loaded configuration. It tells whether there is an application
key, but not which. -/
def configLine (config : Config) : String :=
  "INFO Configuration loaded upstream=" ++ config.provider.baseUrl.text ++
    " user_id=" ++ config.provider.userId ++
    " app_key=" ++ toString config.provider.appKey?.isSome

def listenLine (config : Config) (address : ListenAddress) : String :=
  "INFO Listening on " ++ address.text ++ ", relaying to " ++ config.provider.baseUrl.text

def shutdownLine : String := "INFO Shutdown signal received"

/-- The filter of log lines: that of the environment if it can be read, otherwise
that of the configuration. -/
def filter (surroundings : Surroundings) (config : Config) : Except LogFilterFault LogFilter :=
  match surroundings.logFilter?.map LogFilter.ofText with
  | some (.ok filter) => .ok filter
  | _ => LogFilter.ofText config.logLevel

def configure (surroundings : Surroundings) (arguments : Arguments) :
    Except ConfigFault Config := do
  let settings ← Settings.load surroundings.files (arguments.get? .config)
  ((settings.withEnvironment surroundings.environment).withArguments arguments).resolve

def start (surroundings : Surroundings) : Outcome :=
  match Arguments.parse surroundings.arguments with
  | .error refusal => .refused refusal
  | .ok arguments =>
    match configure surroundings arguments with
    | .error fault => .misconfigured fault
    | .ok config =>
      match filter surroundings config with
      | .error fault => .badLogFilter fault
      | .ok filter =>
        let logged (part line : String) := if filter.logsInfo part then [line] else []
        let configLog := logged corePart (configLine config)
        match ListenAddress.parse config.listenAddress with
        | .error fault => .cannotListen configLog fault
        | .ok address =>
          .listening (configLog ++ logged listenerPart (listenLine config address)) config address

def logsShutdown (surroundings : Surroundings) (config : Config) : Bool :=
  match filter surroundings config with
  | .ok filter => filter.logsInfo corePart
  | .error _ => false

namespace Outcome

/-- The exit code of a start that ends at once. A refused command line has its own. -/
def code : Outcome → Nat
  | refused refusal => if refusal.printed?.isSome then 0 else 2
  | listening .. => 0
  | _ => 1

/-- The report of a fault and, if a further fault lies behind it, of that. -/
def report (message : String) (cause? : Option String) : String :=
  "Error: " ++ message ++ "\n" ++
    ((cause?.map fun cause => "\nCaused by:\n    " ++ cause ++ "\n").getD "")

/-- The message of the fault behind the one that is reported, if there is one. -/
def cause? : Outcome → Option String
  | misconfigured (.read _ fault) => some fault.message
  | badLogFilter .level => some LogFilterFault.level.message
  | _ => none

/-- What a start that ends at once reports on standard error. What a refused command
line is told is not fixed here. -/
def standardError (outcome : Outcome) : String :=
  match outcome with
  | misconfigured fault => report fault.message outcome.cause?
  | badLogFilter fault => report fault.message outcome.cause?
  | cannotListen _ fault => report fault.message outcome.cause?
  | refused _ | listening .. => ""

def standardOutput : Outcome → String
  | refused refusal => refusal.printed?.getD ""
  | cannotListen log _ => String.join (log.map (· ++ "\n"))
  | _ => ""

end Outcome

end IdentityRelay.Program
