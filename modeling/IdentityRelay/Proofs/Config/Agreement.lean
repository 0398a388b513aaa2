import IdentityRelay.Proofs.Config.Layers
import IdentityRelay.Proofs.Text.Strip

/-! A provider that is put together from three texts, and one that settings with these texts
configure. What is configured can also be put together and is the same provider; the other
way round a user of blanks alone is taken here and missed there. -/
namespace IdentityRelay
variable {base user key text : String}

def HasContent (text : String) : Prop := ∃ c ∈ text.toList, Text.isBlank c = false

theorem given_some_iff {other : String} :
    Given (some text) other ↔ text = other ∧ HasContent text := by
  rw [Given, Option.some.injEq]
  constructor <;> rintro ⟨rfl, content⟩ <;> exact ⟨rfl, content⟩

theorem HasContent.ne_empty (content : HasContent text) : text ≠ "" := by
  rintro rfl
  obtain ⟨c, member, _⟩ := content
  cases member

namespace Provider

/-- The provider that three texts make without settings. -/
def assembled (base user key : String) : Except ConfigFault Provider :=
  (ofTexts base user).map (·.withAppKey key)

theorem IsBaseUrl.hasContent {url : Url} (isBase : IsBaseUrl base url) : HasContent base := by
  refine Classical.byContradiction fun blank => ?_
  have dropped : ∀ c ∈ base.toList, Text.isBlank c = true := by simpa [HasContent] using blank
  have read := isBase.read
  rw [Text.trimmed, Text.trim, Text.strip_eq_nil dropped] at read
  cases read

private theorem assembled_eq (base user key : String) :
    assembled base user key =
      if user = "" then .error (.missing .userId)
      else (parseBaseUrl base).map fun baseUrl =>
        { baseUrl, userId := user, appKey? := nonBlank (some key) } := by
  by_cases unnamed : user = ""
  · subst unnamed
    rfl
  · have named : user.isEmpty = false := by simpa using unnamed
    rw [if_neg unnamed, assembled, ofTexts, named]
    cases parseBaseUrl base <;> rfl

theorem assembled_eq_ok_iff {provider : Provider} :
    assembled base user key = .ok provider ↔
      user ≠ "" ∧ ∃ url, IsBaseUrl base url ∧
        { baseUrl := url, userId := user, appKey? := nonBlank (some key) } = provider := by
  rw [assembled_eq]
  split
  · rename_i unnamed
    simp [unnamed]
  · rename_i named
    simp [map_eq_ok_iff, parseBaseUrl_eq_ok_iff, named]

end Provider

namespace Settings
variable {settings : Settings}

/-- The settings with three texts for the provider in the place of any others. -/
def describing (settings : Settings) (base user key : String) : Settings :=
  { settings with baseUrl? := some base, userId? := some user, appKey? := some key }

theorem complete_describing_iff (relays : settings.allowedMethods? ≠ some []) :
    (settings.describing base user key).Complete ↔
      HasContent user ∧ ∃ url, Provider.IsBaseUrl base url := by
  constructor
  · intro complete
    obtain ⟨_, url, baseUrl, isBase⟩ := complete.baseUrl
    obtain ⟨_, userId⟩ := complete.userId
    obtain ⟨rfl, _⟩ := given_some_iff.mp baseUrl
    exact ⟨(given_some_iff.mp userId).2, url, isBase⟩
  · rintro ⟨named, url, isBase⟩
    exact {
      baseUrl := ⟨base, url, given_some_iff.mpr ⟨rfl, isBase.hasContent⟩, isBase⟩
      userId := ⟨user, given_some_iff.mpr ⟨rfl, named⟩⟩
      methods := relays }

theorem assembled_of_resolve {config : Config}
    (resolved : (settings.describing base user key).resolve = .ok config) :
    Provider.assembled base user key = .ok config.provider := by
  have makes := (makes_of_resolve resolved).2
  obtain ⟨_, given, isBase⟩ := makes.baseUrl
  obtain ⟨rfl, _⟩ := given_some_iff.mp given
  obtain ⟨sameUser, named⟩ := given_some_iff.mp makes.userId
  refine Provider.assembled_eq_ok_iff.mpr ⟨named.ne_empty, _, isBase, ?_⟩
  have sameKey : nonBlank (some key) = config.provider.appKey? := by
    ext text
    rw [nonBlank_eq_some_iff, makes.appKey]
    rfl
  rw [sameUser, sameKey]

/-- A provider is put together from any base URL and any user but the empty text, and it is
configured by a base URL and a user that is more than blanks. Where both are done they come
to the same provider, and only a user of nothing but blanks, at least one, tells them apart. -/
theorem assembled_iff_resolve (relays : settings.allowedMethods? ≠ some [])
    (base user key : String) :
    ((∃ provider, Provider.assembled base user key = .ok provider) ↔
      user ≠ "" ∧ ∃ url, Provider.IsBaseUrl base url) ∧
    ((∃ config, (settings.describing base user key).resolve = .ok config) ↔
      HasContent user ∧ ∃ url, Provider.IsBaseUrl base url) ∧
    (∀ config, (settings.describing base user key).resolve = .ok config →
      Provider.assembled base user key = .ok config.provider) ∧
    (((∃ provider, Provider.assembled base user key = .ok provider) ↔
        ∃ config, (settings.describing base user key).resolve = .ok config) ↔
      ¬ (user ≠ "" ∧ ¬ HasContent user ∧ ∃ url, Provider.IsBaseUrl base url)) := by
  have assembles : (∃ provider, Provider.assembled base user key = .ok provider) ↔
      user ≠ "" ∧ ∃ url, Provider.IsBaseUrl base url := by
    simp only [Provider.assembled_eq_ok_iff]
    constructor
    · rintro ⟨_, named, url, isBase, _⟩
      exact ⟨named, url, isBase⟩
    · rintro ⟨named, url, isBase⟩
      exact ⟨_, named, url, isBase, rfl⟩
  have resolves : (∃ config, (settings.describing base user key).resolve = .ok config) ↔
      HasContent user ∧ ∃ url, Provider.IsBaseUrl base url := by
    rw [← complete_describing_iff relays]
    constructor
    · rintro ⟨config, resolved⟩
      exact (makes_of_resolve resolved).1
    · exact exists_of_complete
  refine ⟨assembles, resolves, fun _ => assembled_of_resolve, ?_⟩
  rw [assembles, resolves]
  constructor
  · rintro same ⟨named, blank, isBase⟩
    exact blank (same.mp ⟨named, isBase⟩).1
  · intro apart
    constructor
    · rintro ⟨named, isBase⟩
      exact ⟨Classical.byContradiction fun blank => apart ⟨named, blank, isBase⟩, isBase⟩
    · rintro ⟨content, isBase⟩
      exact ⟨content.ne_empty, isBase⟩

/-- A user of two spaces is taken by the one way and refused by the other. -/
theorem assembled_iff_resolve_of_spaces :
    ∃ url, Provider.IsBaseUrl "https://h" url ∧
      Provider.assembled "https://h" "  " "k" = .ok ⟨url, "  ", some "k"⟩ ∧
      ¬ ∃ config, (Settings.describing {} "https://h" "  " "k").resolve = .ok config := by
  have succeeds : (Provider.parseBaseUrl "https://h").isOk = true := by decide +kernel
  obtain ⟨url, accepted⟩ := exists_of_isOk succeeds
  have isBase := Provider.parseBaseUrl_eq_ok_iff.mp accepted
  obtain ⟨_, resolves, _, _⟩ :=
    @assembled_iff_resolve {} nofun "https://h" "  " "k"
  have blank : ¬ HasContent "  " := fun content =>
    nonBlank_eq_none_iff.mp (by decide) "  " (given_some_iff.mpr ⟨rfl, content⟩)
  refine ⟨url, isBase, Provider.assembled_eq_ok_iff.mpr ⟨by decide, url, isBase, rfl⟩, ?_⟩
  rw [resolves]
  exact fun both => blank both.1

end Settings

end IdentityRelay
