import IdentityRelay.Program.Start
import IdentityRelay.Server.Connection

/-! The command line of the relay. It serves the one client at standard input and
standard output, as a service that is started for each connection does; a
provider cannot be reached from here, so requests for it are answered as such. -/
namespace IdentityRelay.Main
open IdentityRelay.Program IdentityRelay.Server

/-- The values of the environment variables. -/
def readEnvironment : IO Environment := do
  let listen ← IO.getEnv Variable.listen.name
  let apiHost ← IO.getEnv Variable.apiHost.name
  let userId ← IO.getEnv Variable.userId.name
  let appKey ← IO.getEnv Variable.appKey.name
  let logLevel ← IO.getEnv Variable.logLevel.name
  return fun
    | .listen => listen
    | .apiHost => apiHost
    | .userId => userId
    | .appKey => appKey
    | .logLevel => logLevel

/-- The file at a path, alone in its tree, if there is one. -/
def readFiles (path : String) : IO FileTree := do
  try
    let contents ← IO.FS.readBinFile path
    return ⟨[(FileTree.placeOf path, .file contents.data.toList)]⟩
  catch _ => return ⟨[]⟩

partial def readAll (input : IO.FS.Stream) (read : List Arrival) : IO (List Arrival) := do
  let bytes ← input.read 4096
  if bytes.isEmpty then return read.reverse
  else readAll input (.bytes bytes.data.toList :: read)

/-- Serves the client at standard input. -/
def serve (config : Config) : IO Unit := do
  let arrivals ← readAll (← IO.getStdin) []
  let remote : Relay.Remote := { isReachable := false, replies := [], seen := [] }
  let run := (Connection.opened { arrivals } remote).run
    { provider := config.provider, allowed := config.allowedMethods }
  let output ← IO.getStdout
  for event in run.events do
    match event with
    | .wrote bytes => output.write ⟨bytes.toArray⟩
    | .flushed => output.flush
    | _ => pure ()

end IdentityRelay.Main

open IdentityRelay IdentityRelay.Program

def main (arguments : List String) : IO UInt32 := do
  let path := match Arguments.parse arguments with
    | .ok given => (given.get? .config).getD Settings.defaultPath
    | .error _ => Settings.defaultPath
  let surroundings : Surroundings := {
    arguments
    environment := ← Main.readEnvironment
    logFilter? := ← IO.getEnv "RUST_LOG"
    files := ← Main.readFiles path }
  let outcome := start surroundings
  match outcome with
  | .listening log config _ =>
    for line in log do IO.eprintln line
    Main.serve config
  | outcome =>
    IO.print outcome.standardOutput
    IO.eprint outcome.standardError
  return UInt32.ofNat outcome.code
