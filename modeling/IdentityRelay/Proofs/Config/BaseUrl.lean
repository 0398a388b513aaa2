import IdentityRelay.Config.Provider

/-! Which texts are base URLs, and which of the reasons against a text is given. -/
namespace IdentityRelay.Provider
variable {text : String} {url : Url}

abbrev IsWeb (url : Url) : Prop := url.scheme = "http" ∨ url.scheme = "https"

abbrev HasHost (url : Url) : Prop := (url.authority?.bind Url.Authority.host?).isSome = true

abbrev IsBare (url : Url) : Prop := url.query? = none ∧ url.fragment? = none

/-- The text, without the blanks around it, is an HTTP URL with a host and with nothing
behind its path. The host is one of ASCII characters, as `Url.parse` knows no other, and
labels that begin with `xn--` need not spell anything. -/
structure IsBaseUrl (text : String) (url : Url) : Prop where
  read : Url.parse (Text.trimmed text) = .ok url
  web : IsWeb url
  host : HasHost url
  bare : IsBare url

/-- The first reason why a text is no base URL. -/
inductive Unusable (text : String) : BaseUrlFault → Prop where
  | malformed {fault : Url.Fault} (refused : Url.parse (Text.trimmed text) = .error fault) :
      Unusable text (.malformed fault)
  | scheme {url : Url} (read : Url.parse (Text.trimmed text) = .ok url) (foreign : ¬ IsWeb url) :
      Unusable text .scheme
  | host {url : Url} (read : Url.parse (Text.trimmed text) = .ok url) (web : IsWeb url)
      (missing : ¬ HasHost url) : Unusable text .host
  | queryOrFragment {url : Url} (read : Url.parse (Text.trimmed text) = .ok url) (web : IsWeb url)
      (host : HasHost url) (more : ¬ IsBare url) : Unusable text .queryOrFragment

theorem parseBaseUrl_of_error {fault : Url.Fault}
    (refused : Url.parse (Text.trimmed text) = .error fault) :
    parseBaseUrl text = .error (.invalidUrl text (.malformed fault)) := by
  simp only [parseBaseUrl, refused]
  rfl

theorem parseBaseUrl_of_ok (read : Url.parse (Text.trimmed text) = .ok url) :
    parseBaseUrl text =
      if IsWeb url then
        if HasHost url then
          if IsBare url then .ok url else .error (.invalidUrl text .queryOrFragment)
        else .error (.invalidUrl text .host)
      else .error (.invalidUrl text .scheme) := by
  have web : (url.scheme != "http" && url.scheme != "https") = true ↔ ¬ IsWeb url := by simp
  have host : (url.authority?.bind Url.Authority.host?).isNone = true ↔ ¬ HasHost url := by simp
  have bare : (url.query?.isSome || url.fragment?.isSome) = true ↔ ¬ IsBare url := by
    simp [Option.isSome_iff_ne_none, Decidable.or_iff_not_imp_left]
  have checked : parseBaseUrl text =
      if (url.scheme != "http" && url.scheme != "https") = true then
        .error (.invalidUrl text .scheme)
      else if (url.authority?.bind Url.Authority.host?).isNone = true then
        .error (.invalidUrl text .host)
      else if (url.query?.isSome || url.fragment?.isSome) = true then
        .error (.invalidUrl text .queryOrFragment)
      else .ok url := by
    simp only [parseBaseUrl, read]
    rfl
  simp only [checked, web, host, bare, ite_not]

theorem parseBaseUrl_eq_ok_iff : parseBaseUrl text = .ok url ↔ IsBaseUrl text url := by
  constructor
  · intro accepted
    cases read : Url.parse (Text.trimmed text) with
    | error fault =>
      rw [parseBaseUrl_of_error read] at accepted
      cases accepted
    | ok other =>
      rw [parseBaseUrl_of_ok read] at accepted
      split at accepted
      · rename_i web
        split at accepted
        · rename_i host
          split at accepted
          · rename_i bare
            cases accepted
            exact ⟨read, web, host, bare⟩
          · cases accepted
        · cases accepted
      · cases accepted
  · intro isBase
    rw [parseBaseUrl_of_ok isBase.read, if_pos isBase.web, if_pos isBase.host, if_pos isBase.bare]

theorem parseBaseUrl_eq_error_iff {fault : ConfigFault} :
    parseBaseUrl text = .error fault ↔
      ∃ reason, fault = .invalidUrl text reason ∧ Unusable text reason := by
  constructor
  · intro refused
    cases read : Url.parse (Text.trimmed text) with
    | error reason =>
      rw [parseBaseUrl_of_error read] at refused
      exact ⟨_, (Except.error.inj refused).symm, .malformed read⟩
    | ok url =>
      rw [parseBaseUrl_of_ok read] at refused
      split at refused
      · rename_i web
        split at refused
        · rename_i host
          split at refused
          · cases refused
          · rename_i more
            exact ⟨_, (Except.error.inj refused).symm, .queryOrFragment read web host more⟩
        · rename_i missing
          exact ⟨_, (Except.error.inj refused).symm, .host read web missing⟩
      · rename_i foreign
        exact ⟨_, (Except.error.inj refused).symm, .scheme read foreign⟩
  · rintro ⟨reason, rfl, unusable⟩
    cases unusable with
    | malformed refused => exact parseBaseUrl_of_error refused
    | scheme read foreign => rw [parseBaseUrl_of_ok read, if_neg foreign]
    | host read web missing => rw [parseBaseUrl_of_ok read, if_pos web, if_neg missing]
    | queryOrFragment read web host more =>
      rw [parseBaseUrl_of_ok read, if_pos web, if_pos host, if_neg more]

end IdentityRelay.Provider
