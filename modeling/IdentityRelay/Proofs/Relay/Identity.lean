import IdentityRelay.Proofs.Http.Headers
import IdentityRelay.Proofs.Outcome
import IdentityRelay.Relay.Outbound

/-! The header fields that go to the provider: the caller's, without those that are not
for the caller to set, and behind them the configured identity. -/
namespace IdentityRelay.Relay.Outbound
open IdentityRelay.Http
variable {provider : Provider} {name : String}

/-- Whether the caller's fields of a name are left out: the provider has a host of its own,
and the identity is the configured one. -/
def overrides (provider : Provider) (name : String) : Bool :=
  Text.sameName name "host" || Text.sameName name userIdHeader ||
    (provider.appKey?.isSome && Text.sameName name appKeyHeader)

def identity (provider : Provider) : List Header :=
  ⟨userIdHeader, provider.userId⟩ ::
    (provider.appKey?.map fun appKey => ⟨appKeyHeader, appKey⟩).toList

theorem toList_identify (provider : Provider) (headers : Headers) :
    (identify provider headers).toList =
      headers.toList.filter (fun header => !overrides provider header.name) ++
        identity provider := by
  have different : Text.sameName userIdHeader appKeyHeader = false := by decide
  cases configured : provider.appKey? with
  | none =>
    simp [identify, Headers.toList_set, Headers.toList_erase, Headers.isNamed, overrides, identity,
      configured, Bool.and_comm]
  | some appKey =>
    simp [identify, Headers.toList_set, Headers.toList_erase, Headers.isNamed, overrides, identity,
      configured, different, Bool.and_comm]

theorem forall_mem_identity_iff {p : Header → Prop} :
    (∀ header ∈ identity provider, p header) ↔
      p ⟨userIdHeader, provider.userId⟩ ∧
        ∀ appKey ∈ provider.appKey?, p ⟨appKeyHeader, appKey⟩ := by
  rw [identity, List.forall_mem_cons]
  cases provider.appKey? <;> simp

/-- Under any other name the provider is sent what the caller sent. -/
theorem values_identify (kept : overrides provider name = false) (headers : Headers) :
    (identify provider headers).values name = headers.values name := by
  simp only [overrides, Bool.or_eq_false_iff, Bool.and_eq_false_iff] at kept
  obtain ⟨⟨notHost, notUser⟩, notKey⟩ := kept
  have user : ((headers.erase "host").set userIdHeader provider.userId).values name =
      headers.values name := by
    rw [Headers.values_set_of_ne notUser, Headers.values_erase_of_ne notHost]
  unfold identify
  cases configured : provider.appKey? with
  | none => exact user
  | some appKey =>
    rw [configured] at notKey
    have other : Text.sameName name appKeyHeader = false := notKey.resolve_left (by simp)
    exact (Headers.values_set_of_ne other _ _).trans user

section
variable {request : Request} {outbound : Outbound}
  (prepared : prepare provider request = .ok outbound)
include prepared

theorem exists_url_of_prepare :
    ∃ url, targetUrl provider.baseUrl request.target = .ok url ∧
      outbound = ⟨request.method, url, identify provider request.headers, request.body⟩ := by
  unfold prepare at prepared
  obtain ⟨url, joined, made⟩ := bind_eq_ok_iff.mp prepared
  exact ⟨url, joined, (Except.ok.inj made).symm⟩

theorem headers_of_prepare : outbound.headers = identify provider request.headers := by
  obtain ⟨_, _, rfl⟩ := exists_url_of_prepare prepared
  rfl

end

/-- Credentials in the URL add nothing to the caller's fields under any other name. -/
theorem values_sentHeaders (different : Text.sameName name authorizationHeader = false)
    (outbound : Outbound) : outbound.sentHeaders.values name = outbound.headers.values name := by
  unfold sentHeaders
  split
  · split
    · rfl
    · rw [Headers.values_append, Text.sameName_comm, different]
      simp
  · rfl

/-- The URL is sent without its credentials, to the same server and for the same resource. -/
theorem sentUrl_same_server (outbound : Outbound) :
    outbound.sentUrl.credentials? = none ∧
      outbound.sentUrl.scheme = outbound.url.scheme ∧
      (outbound.sentUrl.authority?.map fun authority => (authority.host?, authority.service?)) =
        outbound.url.authority?.map (fun authority => (authority.host?, authority.service?)) ∧
      outbound.sentUrl.path = outbound.url.path ∧
      outbound.sentUrl.query? = outbound.url.query? := by
  unfold sentUrl Url.withoutCredentials
  cases taken : outbound.url.credentials? with
  | none => exact ⟨taken, rfl, rfl, rfl, rfl⟩
  | some credentials =>
    refine ⟨?_, rfl, ?_, rfl, rfl⟩
    · cases outbound.url.authority? <;> rfl
    · cases outbound.url.authority? <;> rfl

end IdentityRelay.Relay.Outbound
