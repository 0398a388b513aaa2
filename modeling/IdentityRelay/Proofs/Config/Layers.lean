import IdentityRelay.Program.CommandLine
import IdentityRelay.Proofs.Config.BaseUrl
import IdentityRelay.Proofs.Outcome

/-! Settings from three layers. Of each setting the topmost layer that says anything of it
is heard, and no other. What is heard makes a configuration, or it is at fault, and
then the first of four faults is reported. -/
namespace IdentityRelay
open IdentityRelay.Http

section
variable {α : Type} [BEq α] [LawfulBEq α]

private theorem idxOf_lt_of_filter {keep : α → Bool} {s : List α} {first second : α}
    (keepsFirst : keep first = true) (keepsSecond : keep second = true)
    (before : (s.filter keep).idxOf first < (s.filter keep).idxOf second) :
    s.idxOf first < s.idxOf second := by
  induction s with
  | nil => exact before
  | cons c rest ih =>
    rw [List.filter_cons] at before
    split at before
    · simp only [List.idxOf_cons] at before ⊢
      cases isFirst : c == first with
      | true =>
        cases isSecond : c == second with
        | true => simp [isFirst, isSecond] at before
        | false => simp
      | false =>
        cases isSecond : c == second with
        | true => simp [isFirst, isSecond] at before
        | false =>
          simp only [isFirst, isSecond, cond_false] at before ⊢
          exact Nat.succ_lt_succ (ih (Nat.lt_of_succ_lt_succ before))
    · rename_i dropped
      have isFirst : (c == first) = false := by
        rw [beq_eq_false_iff_ne]
        rintro rfl
        exact dropped keepsFirst
      have isSecond : (c == second) = false := by
        rw [beq_eq_false_iff_ne]
        rintro rfl
        exact dropped keepsSecond
      simp only [List.idxOf_cons, isFirst, isSecond, cond_false]
      exact Nat.succ_lt_succ (ih before)

theorem pairwise_eraseDups (s : List α) :
    s.eraseDups.Pairwise fun first second => s.idxOf first < s.idxOf second := by
  induction same : s.length using Nat.strongRecOn generalizing s with
  | ind size ih =>
    cases s with
    | nil => simp
    | cons c rest =>
      have shorter : (rest.filter fun other => !other == c).length < size := by
        have := List.length_filter_le (fun other => !other == c) rest
        rw [List.length_cons] at same
        omega
      have other {b : α} (member : b ∈ (rest.filter fun other => !other == c).eraseDups) :
          (c == b) = false := by
        have kept := (List.mem_filter.mp (List.mem_eraseDups.mp member)).2
        rw [beq_eq_false_iff_ne]
        rintro rfl
        simp at kept
      rw [List.eraseDups_cons, List.pairwise_cons]
      constructor
      · intro b member
        simp [List.idxOf_cons, other member]
      · refine (ih _ shorter _ rfl).imp_of_mem ?_
        intro first second isFirst isSecond before
        have keepsFirst := (List.mem_filter.mp (List.mem_eraseDups.mp isFirst)).2
        have keepsSecond := (List.mem_filter.mp (List.mem_eraseDups.mp isSecond)).2
        simp only [List.idxOf_cons, other isFirst, other isSecond, cond_false]
        exact Nat.succ_lt_succ (idxOf_lt_of_filter keepsFirst keepsSecond before)

end

def topmost? (layers : List (Option String)) : Option String := layers.findSome? id

def Given (value? : Option String) (text : String) : Prop :=
  value? = some text ∧ ∃ c ∈ text.toList, Text.isBlank c = false

def GivenOr (value? : Option String) (default text : String) : Prop :=
  Given value? text ∨ (∀ other, ¬ Given value? other) ∧ text = default

theorem nonBlank_eq_some_iff {value? : Option String} {text : String} :
    nonBlank value? = some text ↔ Given value? text := by
  rw [nonBlank, Option.filter_eq_some_iff]
  simp [Given, Text.allBlank]

theorem nonBlank_eq_none_iff {value? : Option String} :
    nonBlank value? = none ↔ ∀ text, ¬ Given value? text := by
  simp [Option.eq_none_iff_forall_ne_some, nonBlank_eq_some_iff]

theorem givenOr_getD (value? : Option String) (default : String) :
    GivenOr value? default ((nonBlank value?).getD default) := by
  cases found : nonBlank value? with
  | some text => exact .inl (nonBlank_eq_some_iff.mp found)
  | none => exact .inr ⟨nonBlank_eq_none_iff.mp found, rfl⟩

namespace Settings

/-- What the command line says of each setting, or else the environment, or else the file. -/
def layered (file : Settings) (environment : Environment) (arguments : Arguments) : Settings where
  listenAddress? := topmost? [arguments.get? .listen, environment .listen, file.listenAddress?]
  baseUrl? := topmost? [arguments.get? .provider, environment .apiHost, file.baseUrl?]
  userId? := topmost? [arguments.get? .userId, environment .userId, file.userId?]
  appKey? := topmost? [arguments.get? .appKey, environment .appKey, file.appKey?]
  allowedMethods? := file.allowedMethods?
  logLevel? := topmost? [environment .logLevel, file.logLevel?]

private theorem topmost?_cons (upper? : Option String) (lower : List (Option String)) :
    topmost? (upper? :: lower) = upper?.or (topmost? lower) := by
  cases upper? <;> rfl

theorem withArguments_withEnvironment (file : Settings) (environment : Environment)
    (arguments : Arguments) :
    (file.withEnvironment environment).withArguments arguments =
      file.layered environment arguments := by
  have nothing : topmost? [] = none := rfl
  simp [withArguments, withEnvironment, layered, topmost?_cons, nothing]

/-- The methods to relay: the default ones where none are given, otherwise those that are
given, each once and where it is given first. -/
def Relays (given? : Option (List Method)) (methods : List Method) : Prop :=
  match given? with
  | none => methods = [.get, .post, .put, .delete, .patch]
  | some given =>
    (∀ method, method ∈ methods ↔ method ∈ given) ∧ methods.Nodup ∧
      methods.Pairwise fun first second => given.idxOf first < given.idxOf second

/-- Settings with which the relay can run. -/
structure Complete (settings : Settings) : Prop where
  baseUrl : ∃ text url, Given settings.baseUrl? text ∧ Provider.IsBaseUrl text url
  userId : ∃ text, Given settings.userId? text
  methods : settings.allowedMethods? ≠ some []

structure Makes (settings : Settings) (config : Config) : Prop where
  baseUrl : ∃ text, Given settings.baseUrl? text ∧
    Provider.IsBaseUrl text config.provider.baseUrl
  userId : Given settings.userId? config.provider.userId
  appKey : ∀ text, config.provider.appKey? = some text ↔ Given settings.appKey? text
  listenAddress : GivenOr settings.listenAddress? "127.0.0.1:8080" config.listenAddress
  logLevel : GivenOr settings.logLevel? "info" config.logLevel
  methods : Relays settings.allowedMethods? config.allowedMethods

/-- The fault of settings, which is the first in this order. -/
inductive Lacks (settings : Settings) : ConfigFault → Prop where
  | baseUrl (missing : ∀ text, ¬ Given settings.baseUrl? text) : Lacks settings (.missing .apiHost)
  | userId {base : String} (baseUrl : Given settings.baseUrl? base)
      (missing : ∀ text, ¬ Given settings.userId? text) : Lacks settings (.missing .userId)
  | methods {base user : String} (baseUrl : Given settings.baseUrl? base)
      (userId : Given settings.userId? user) (empty : settings.allowedMethods? = some []) :
      Lacks settings .noMethods
  | usableUrl {base user : String} {reason : BaseUrlFault} (baseUrl : Given settings.baseUrl? base)
      (userId : Given settings.userId? user) (some : settings.allowedMethods? ≠ some [])
      (unusable : Provider.Unusable base reason) : Lacks settings (.invalidUrl base reason)

variable {settings : Settings} {base user : String}

theorem resolve_of_noBaseUrl (missing : ∀ text, ¬ Given settings.baseUrl? text) :
    settings.resolve = .error (.missing .apiHost) := by
  simp only [resolve, nonBlank_eq_none_iff.mpr missing]
  rfl

theorem resolve_of_noUserId (baseUrl : Given settings.baseUrl? base)
    (missing : ∀ text, ¬ Given settings.userId? text) :
    settings.resolve = .error (.missing .userId) := by
  simp only [resolve, nonBlank_eq_some_iff.mpr baseUrl, nonBlank_eq_none_iff.mpr missing]
  rfl

/-- With a base URL and a user, the methods are looked at before the base URL is read. -/
theorem resolve_of_given (baseUrl : Given settings.baseUrl? base)
    (userId : Given settings.userId? user) :
    settings.resolve = (Config.resolveMethods settings.allowedMethods?).bind fun allowedMethods =>
      (Provider.parseBaseUrl base).map fun baseUrl =>
        { listenAddress := (nonBlank settings.listenAddress?).getD Config.defaultListenAddress
          provider := { baseUrl, userId := user, appKey? := nonBlank settings.appKey? }
          allowedMethods
          logLevel := (nonBlank settings.logLevel?).getD Config.defaultLogLevel } := by
  simp only [resolve, nonBlank_eq_some_iff.mpr baseUrl, nonBlank_eq_some_iff.mpr userId, bind]
  generalize Provider.parseBaseUrl base = read,
    Config.resolveMethods settings.allowedMethods? = methods
  cases methods with
  | error => rfl
  | ok methods => cases read <;> rfl

theorem resolveMethods_eq_error_iff {given? : Option (List Method)} {fault : ConfigFault} :
    Config.resolveMethods given? = .error fault ↔ given? = some [] ∧ fault = .noMethods := by
  rcases given? with _ | (_ | ⟨first, rest⟩) <;> simp [Config.resolveMethods, eq_comm]

theorem relays_of_resolveMethods {given? : Option (List Method)} {methods : List Method}
    (resolved : Config.resolveMethods given? = .ok methods) : Relays given? methods := by
  have unique (given : List Method) : given.eraseDups.Nodup := by
    refine (pairwise_eraseDups given).imp ?_
    rintro first second before rfl
    exact absurd before (Nat.lt_irrefl _)
  rcases given? with _ | (_ | ⟨first, rest⟩)
  · cases resolved
    rfl
  · cases resolved
  · cases resolved
    exact ⟨fun _ => List.mem_eraseDups, unique _, pairwise_eraseDups _⟩

theorem makes_of_resolve {config : Config} (resolved : settings.resolve = .ok config) :
    settings.Complete ∧ settings.Makes config := by
  by_cases noBaseUrl : ∀ text, ¬ Given settings.baseUrl? text
  · rw [resolve_of_noBaseUrl noBaseUrl] at resolved
    cases resolved
  obtain ⟨base, baseUrl⟩ := Classical.not_forall_not.mp noBaseUrl
  by_cases noUserId : ∀ text, ¬ Given settings.userId? text
  · rw [resolve_of_noUserId baseUrl noUserId] at resolved
    cases resolved
  obtain ⟨user, userId⟩ := Classical.not_forall_not.mp noUserId
  rw [resolve_of_given baseUrl userId] at resolved
  obtain ⟨methods, resolvedMethods, read⟩ := bind_eq_ok_iff.mp resolved
  obtain ⟨url, accepted, rfl⟩ := map_eq_ok_iff.mp read
  have isBase := Provider.parseBaseUrl_eq_ok_iff.mp accepted
  constructor
  · refine ⟨⟨base, url, baseUrl, isBase⟩, ⟨user, userId⟩, ?_⟩
    intro empty
    cases resolvedMethods.symm.trans (resolveMethods_eq_error_iff.mpr ⟨empty, rfl⟩)
  · exact {
      baseUrl := ⟨base, baseUrl, isBase⟩
      userId := userId
      appKey := fun _ => nonBlank_eq_some_iff
      listenAddress := givenOr_getD _ _
      logLevel := givenOr_getD _ _
      methods := relays_of_resolveMethods resolvedMethods }

theorem resolve_of_lacks {fault : ConfigFault} (lacks : settings.Lacks fault) :
    settings.resolve = .error fault := by
  cases lacks with
  | baseUrl missing => exact resolve_of_noBaseUrl missing
  | userId baseUrl missing => exact resolve_of_noUserId baseUrl missing
  | methods baseUrl userId empty =>
    rw [resolve_of_given baseUrl userId, resolveMethods_eq_error_iff.mpr ⟨empty, rfl⟩]
    rfl
  | usableUrl baseUrl userId some unusable =>
    rw [resolve_of_given baseUrl userId,
      Provider.parseBaseUrl_eq_error_iff.mpr ⟨_, rfl, unusable⟩]
    cases methods : Config.resolveMethods settings.allowedMethods? with
    | error fault => exact absurd (resolveMethods_eq_error_iff.mp methods).1 some
    | ok methods => rfl

theorem lacks_of_resolve {fault : ConfigFault} (failed : settings.resolve = .error fault) :
    settings.Lacks fault := by
  by_cases noBaseUrl : ∀ text, ¬ Given settings.baseUrl? text
  · rw [resolve_of_noBaseUrl noBaseUrl] at failed
    exact Except.error.inj failed ▸ .baseUrl noBaseUrl
  obtain ⟨base, baseUrl⟩ := Classical.not_forall_not.mp noBaseUrl
  by_cases noUserId : ∀ text, ¬ Given settings.userId? text
  · rw [resolve_of_noUserId baseUrl noUserId] at failed
    exact Except.error.inj failed ▸ .userId baseUrl noUserId
  obtain ⟨user, userId⟩ := Classical.not_forall_not.mp noUserId
  rw [resolve_of_given baseUrl userId] at failed
  rcases bind_eq_error_iff.mp failed with early | ⟨methods, resolved, late⟩
  · obtain ⟨empty, rfl⟩ := resolveMethods_eq_error_iff.mp early
    exact .methods baseUrl userId empty
  · obtain ⟨reason, rfl, unusable⟩ :=
      Provider.parseBaseUrl_eq_error_iff.mp (map_eq_error_iff.mp late)
    refine .usableUrl baseUrl userId ?_ unusable
    intro empty
    cases resolved.symm.trans (resolveMethods_eq_error_iff.mpr ⟨empty, rfl⟩)

theorem exists_of_complete (complete : settings.Complete) :
    ∃ config, settings.resolve = .ok config := by
  obtain ⟨base, url, baseUrl, isBase⟩ := complete.baseUrl
  obtain ⟨user, userId⟩ := complete.userId
  rw [resolve_of_given baseUrl userId, Provider.parseBaseUrl_eq_ok_iff.mpr isBase]
  cases methods : Config.resolveMethods settings.allowedMethods? with
  | error fault => exact absurd (resolveMethods_eq_error_iff.mp methods).1 complete.methods
  | ok methods => exact ⟨_, rfl⟩

/-- Settings that are laid over one another make a configuration exactly when what is heard
of them is complete, and then they make it of what is heard alone. Otherwise the first
fault of what is heard is reported. -/
theorem resolve_layered (file : Settings) (environment : Environment) (arguments : Arguments) :
    ((∃ config, ((file.withEnvironment environment).withArguments arguments).resolve = .ok config) ↔
      (file.layered environment arguments).Complete) ∧
    (∀ config, ((file.withEnvironment environment).withArguments arguments).resolve = .ok config →
      (file.layered environment arguments).Makes config) ∧
    ∀ fault, ((file.withEnvironment environment).withArguments arguments).resolve = .error fault ↔
      (file.layered environment arguments).Lacks fault := by
  rw [withArguments_withEnvironment]
  refine ⟨⟨?_, exists_of_complete⟩, ?_, fun fault => ⟨lacks_of_resolve, resolve_of_lacks⟩⟩
  · rintro ⟨config, resolved⟩
    exact (makes_of_resolve resolved).1
  · intro config resolved
    exact (makes_of_resolve resolved).2

/-- A file of which only the methods are heard. -/
def overlaidFile : Settings where
  listenAddress? := some "0.0.0.0:80"
  baseUrl? := some "http://file"
  userId? := some "file"
  appKey? := some "file"
  allowedMethods? := some [.get, .put, .get]
  logLevel? := some "debug"

def blankEnvironment : Environment
  | .listen => some " "
  | .apiHost => some " https://example.org/api "
  | .userId => some ""
  | .appKey => some "environment"
  | .logLevel => some "\t"

def blankKeyArguments : Arguments := [(.userId, "flag"), (.appKey, "\u00a0")]

/-- Blank texts above hide what the file says, and a text above a blank one is heard. -/
theorem resolve_layered_of_blanks :
    ∃ config, ((overlaidFile.withEnvironment blankEnvironment).withArguments
        blankKeyArguments).resolve = .ok config ∧
      config.provider.userId = "flag" ∧ config.provider.appKey? = none ∧
      config.listenAddress = "127.0.0.1:8080" ∧ config.logLevel = "info" := by
  have layers := resolve_layered overlaidFile blankEnvironment blankKeyArguments
  have succeeds : (Provider.parseBaseUrl " https://example.org/api ").isOk = true := by
    decide +kernel
  obtain ⟨url, accepted⟩ := exists_of_isOk succeeds
  have complete : (overlaidFile.layered blankEnvironment blankKeyArguments).Complete :=
    { baseUrl := ⟨_, url, ⟨rfl, 'h', by decide, by decide⟩,
        Provider.parseBaseUrl_eq_ok_iff.mp accepted⟩
      userId := ⟨"flag", rfl, 'f', by decide, by decide⟩
      methods := nofun }
  obtain ⟨config, resolved⟩ := layers.1.mpr complete
  have makes := layers.2.1 config resolved
  have blank {text : String} (unheard : nonBlank (some text) = none) :
      ∀ other, ¬ Given (some text) other := nonBlank_eq_none_iff.mp unheard
  refine ⟨config, resolved, ?_, ?_, ?_, ?_⟩
  · exact (Option.some.inj makes.userId.1).symm
  · rw [Option.eq_none_iff_forall_ne_some]
    intro text
    rw [Ne, makes.appKey]
    exact blank (by decide) text
  · rcases makes.listenAddress with given | ⟨_, same⟩
    · exact absurd given (blank (by decide) _)
    · exact same
  · rcases makes.logLevel with given | ⟨_, same⟩
    · exact absurd given (blank (by decide) _)
    · exact same

end Settings

end IdentityRelay
