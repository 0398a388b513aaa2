import IdentityRelay.Proofs.Config.BaseUrl
import IdentityRelay.Proofs.Outcome
import IdentityRelay.Proofs.Url.Base
import IdentityRelay.Relay.Target

/-! The addresses that request targets make behind the base URL of a provider. A target
adds a path, a query and a fragment, and can do nothing to what stands before them. -/
namespace IdentityRelay
variable {text target : String} {base url : Url}

theorem Provider.isBase_of_parseBaseUrl (accepted : parseBaseUrl text = .ok base) :
    ∃ service authority, base.IsBase service authority := by
  have isBase := parseBaseUrl_eq_ok_iff.mp accepted
  exact Url.isBase_of_parse isBase.read isBase.web isBase.bare.1 isBase.bare.2

namespace Relay

/-- What a target adds to the text of the base. A query alone goes to the root. -/
def appended? (target : List Char) : Option (List Char) :=
  (pathAndQuery? target).map fun pathAndQuery =>
    if pathAndQuery.head? = some '?' then '/' :: pathAndQuery else pathAndQuery

private theorem joined_eq (base : Url) (pathAndQuery : List Char) :
    joined base pathAndQuery = Text.stripEnd (· == '/') base.render ++
      if pathAndQuery.head? = some '?' then '/' :: pathAndQuery else pathAndQuery := by
  unfold joined
  split
  · rfl
  · rename_i noQuery
    rw [if_neg]
    intro query
    obtain ⟨rest, begins⟩ := List.head?_eq_some_iff.mp query
    exact noQuery rest begins

theorem appended?_isSome_iff (target : List Char) :
    (appended? target).isSome = true ↔
      ['/'] <+: target ∨ [':', '/', '/'] <:+: target ∨ target = ['*'] := by
  rw [appended?, Option.isSome_map]
  unfold pathAndQuery?
  split
  · simp
  · simp
  · rename_i notPath notAsterisk
    have noSlash : ¬ ['/'] <+: target := by
      rintro ⟨rest, begins⟩
      exact notPath rest begins.symm
    have found : (Text.cut? [':', '/', '/'] target).isSome = true ↔
        [':', '/', '/'] <:+: target := by
      rw [← Decidable.not_iff_not, ← Text.cut?_eq_none_iff, Bool.not_eq_true,
        Option.isSome_eq_false_iff, Option.isNone_iff_eq_none]
    rw [Option.isSome_map, found]
    simp [noSlash, show target ≠ ['*'] from notAsterisk]

theorem absolute_of_appended? {target tail : List Char} (appended : appended? target = some tail) :
    ∀ c ∈ tail.head?, c = '/' := by
  obtain ⟨pathAndQuery, taken, rfl⟩ := Option.map_eq_some_iff.mp appended
  split
  · simp
  · rename_i noQuery
    intro c first
    unfold pathAndQuery? at taken
    split at taken
    · cases taken
      cases first
      rfl
    · cases taken
      cases first
    · obtain ⟨⟨before, after⟩, _, rest⟩ := Option.map_eq_some_iff.mp taken
      have stops := List.head?_dropWhile_not (fun c => c != '/' && c != '?') after
      rw [show after.dropWhile (fun c => c != '/' && c != '?') = pathAndQuery from rest,
        Option.mem_def.mp first] at stops
      have notQuery : c ≠ '?' := fun same => noQuery (same ▸ first)
      simpa [notQuery] using stops

theorem targetUrl_eq_ok_iff (accepted : Provider.parseBaseUrl text = .ok base) :
    targetUrl base target = .ok url ↔
      ∃ tail, appended? target.toList = some tail ∧ url = base.below (Url.Tail.ofText tail) := by
  obtain ⟨service, authority, isBase⟩ := Provider.isBase_of_parseBaseUrl accepted
  unfold targetUrl
  cases taken : pathAndQuery? target.toList with
  | none => simp [appended?, taken]
  | some pathAndQuery =>
    have appended : appended? target.toList =
        some (if pathAndQuery.head? = some '?' then '/' :: pathAndQuery else pathAndQuery) := by
      rw [appended?, taken]
      rfl
    have read := Url.parse_behind isBase (absolute_of_appended? appended)
    rw [← joined_eq] at read
    simp only [read, appended, Option.some.injEq, exists_eq_left']
    constructor
    · intro same
      cases same
      rfl
    · rintro rfl
      rfl

/-- Whatever a client asks for goes to the server of the base URL, under its user name, and
only targets of three forms are refused. -/
theorem targetUrl_same_server (accepted : Provider.parseBaseUrl text = .ok base) :
    ((∃ url, targetUrl base target = .ok url) ↔ ['/'] <+: target.toList ∨
        [':', '/', '/'] <:+: target.toList ∨ target = "*") ∧
      ∀ url, targetUrl base target = .ok url →
        url.scheme = base.scheme ∧ url.authority? = base.authority? := by
  constructor
  · have asterisk : target.toList = ['*'] ↔ target = "*" := by
      rw [← String.toList_inj]
      rfl
    rw [← asterisk, ← appended?_isSome_iff, Option.isSome_iff_exists]
    constructor
    · rintro ⟨url, read⟩
      obtain ⟨tail, appended, _⟩ := (targetUrl_eq_ok_iff accepted).mp read
      exact ⟨tail, appended⟩
    · rintro ⟨tail, appended⟩
      exact ⟨_, (targetUrl_eq_ok_iff accepted).mpr ⟨tail, appended, rfl⟩⟩
  · intro url read
    obtain ⟨tail, _, rfl⟩ := (targetUrl_eq_ok_iff accepted).mp read
    exact ⟨base.below_scheme _, base.below_authority _⟩

/-- A target that tries to open another authority does not get there. -/
theorem targetUrl_same_server_of_foreign :
    ∃ base url, Provider.parseBaseUrl "https://relay:key@[::1]:8443/api/" = .ok base ∧
      targetUrl base "//evil@example.org:80/..\\..//\t@x#?://y" = .ok url ∧
      url.authority? = base.authority? := by
  have succeeds : (Provider.parseBaseUrl "https://relay:key@[::1]:8443/api/").isOk = true := by
    decide +kernel
  obtain ⟨base, accepted⟩ := exists_of_isOk succeeds
  have both := @targetUrl_same_server _ "//evil@example.org:80/..\\..//\t@x#?://y" _ accepted
  obtain ⟨url, read⟩ := both.1.mpr (.inl ⟨_, rfl⟩)
  exact ⟨base, url, accepted, read, (both.2 url read).2⟩

end Relay

end IdentityRelay
