import IdentityRelay.Config.Provider
import IdentityRelay.Http.Method

/-! Settings that were gathered but not yet checked, in layers: a file, the
environment, the command line. In each field the last layer that says anything
wins, even if what it says is blank. -/
namespace IdentityRelay
open IdentityRelay.Http

structure Settings where
  listenAddress? : Option String := none
  baseUrl? : Option String := none
  userId? : Option String := none
  appKey? : Option String := none
  allowedMethods? : Option (List Method) := none
  logLevel? : Option String := none
  deriving DecidableEq, Repr

namespace Settings

/-- The settings with the environment laid over them. -/
def withEnvironment (settings : Settings) (environment : Environment) : Settings :=
  { settings with
    listenAddress? := (environment .listen).or settings.listenAddress?
    baseUrl? := (environment .apiHost).or settings.baseUrl?
    userId? := (environment .userId).or settings.userId?
    appKey? := (environment .appKey).or settings.appKey?
    logLevel? := (environment .logLevel).or settings.logLevel? }

end Settings

/-- A checked configuration. -/
structure Config where
  listenAddress : String
  provider : Provider
  /-- The methods that are relayed, without duplicates. -/
  allowedMethods : List Method
  logLevel : String
  deriving DecidableEq, Repr

namespace Config

def defaultListenAddress : String := "127.0.0.1:8080"

def defaultLogLevel : String := "info"

def defaultMethods : List Method := [.get, .post, .put, .delete, .patch]

/-- The methods to relay: each of those given once, where it first stands. -/
def resolveMethods : Option (List Method) → Except ConfigFault (List Method)
  | none => .ok defaultMethods
  | some [] => .error .noMethods
  | some methods => .ok methods.eraseDups

end Config

/-- Checks settings. Of several faults the first of these is reported: no base URL,
no user, no methods, an unusable base URL. -/
def Settings.resolve (settings : Settings) : Except ConfigFault Config := do
  let some baseUrl := nonBlank settings.baseUrl? | throw (.missing .apiHost)
  let some userId := nonBlank settings.userId? | throw (.missing .userId)
  let allowedMethods ← Config.resolveMethods settings.allowedMethods?
  let baseUrl ← Provider.parseBaseUrl baseUrl
  return {
    listenAddress := (nonBlank settings.listenAddress?).getD Config.defaultListenAddress
    provider := { baseUrl, userId, appKey? := nonBlank settings.appKey? }
    allowedMethods
    logLevel := (nonBlank settings.logLevel?).getD Config.defaultLogLevel }

end IdentityRelay
