import IdentityRelay.Proofs.Relay.Fields
import IdentityRelay.Relay.Remote

/-! What the application key has a part in. Under another key that can be sent the relay
comes to the same result, and sends the same request with the other key in it. -/
namespace IdentityRelay

namespace Provider

def withKey (provider : Provider) (key : String) : Provider := { provider with appKey? := some key }

theorem describe_withKey (provider : Provider) (first second : String) :
    (provider.withKey first).describe = (provider.withKey second).describe := rfl

end Provider

namespace Relay
open IdentityRelay.Http
variable {provider : Provider} {request : Request} {first second key : String}

/-- A header with this application key as its value, if it carries one. -/
def keyed (key : String) (header : Header) : Header :=
  if Headers.isNamed appKeyHeader header then { header with value := key } else header

def keyHeader (key : String) : Header := ⟨appKeyHeader, key⟩

/-- The same request with this key, if it is sent with one. -/
def Outbound.withKey (outbound : Outbound) (key : String) : Outbound :=
  { outbound with headers := ⟨outbound.headers.toList.map (keyed key)⟩ }

/-- The same provider, had it been asked with this key all along. -/
def Remote.withKey (remote : Remote) (key : String) : Remote :=
  { remote with seen := remote.seen.map (·.withKey key) }

def Outcome.withKey (outcome : Outcome) (key : String) : Outcome :=
  { outcome with call? := outcome.call?.map (·.withKey key), remote := outcome.remote.withKey key }

namespace Outbound

variable {outbound : Outbound} {failure : Failure}

/-- The key comes behind fields of other names, and these are the same under every key. -/
private theorem exists_front (provider : Provider) (headers : Headers) :
    ∃ front, (∀ header ∈ front, Headers.isNamed appKeyHeader header = false) ∧
      ∀ key, (identify (provider.withKey key) headers).toList = front ++ [keyHeader key] := by
  have different : Text.sameName userIdHeader appKeyHeader = false := by decide
  -- What is left out depends on there being a key and not on the key, so any one will do.
  refine ⟨headers.toList.filter (fun header => !overrides (provider.withKey "") header.name) ++
    [⟨userIdHeader, provider.userId⟩], ?_, ?_⟩
  · intro header member
    rcases List.mem_append.mp member with kept | user
    · have other := (List.mem_filter.mp kept).2
      simp only [overrides, Provider.withKey, Bool.not_eq_true', Bool.or_eq_false_iff,
        Option.isSome_some, Bool.true_and] at other
      exact other.2
    · rw [List.mem_singleton.mp user]
      exact different
  · intro key
    rw [toList_identify, List.append_assoc]
    rfl

private theorem toList_identify_withKey (provider : Provider) (first second : String)
    (headers : Headers) :
    (identify (provider.withKey second) headers).toList =
      (identify (provider.withKey first) headers).toList.map (keyed second) := by
  obtain ⟨front, others, split⟩ := exists_front provider headers
  have kept : front.map (keyed second) = front := by
    refine (List.map_congr_left fun header member => ?_).trans (List.map_id front)
    rw [keyed, others header member]
    rfl
  have replaced : keyed second (keyHeader first) = keyHeader second :=
    if_pos (beq_self_eq_true _)
  rw [split, split, List.map_append, kept, List.map_singleton, replaced]

theorem prepare_withKey (provider : Provider) (first second : String) (request : Request) :
    prepare (provider.withKey second) request =
      (prepare (provider.withKey first) request).map (·.withKey second) := by
  have sameBase : (provider.withKey second).baseUrl = (provider.withKey first).baseUrl := rfl
  simp only [prepare, sameBase]
  cases targetUrl (provider.withKey first).baseUrl request.target with
  | error failure => rfl
  | ok url =>
    simp only [bind, Except.bind, pure, Except.pure, Except.map, withKey,
      ← toList_identify_withKey provider first second]

theorem fault?_eq_some_iff : outbound.fault? = some failure ↔ outbound.fields = .error failure := by
  unfold fault?
  cases outbound.fields <;> simp

private theorem mapM_append_key {front : List Header} (sendable : IsSendable key) :
    (front ++ [keyHeader key]).mapM fieldOf = .error failure ↔
      front.mapM fieldOf = .error failure := by
  have isToken : Text.isToken appKeyHeader = true := by decide
  have token : Text.isToken (keyHeader key).name = true := isToken
  have carried : fieldOf (keyHeader key) = .ok (.ofHeader (keyHeader key)) := by
    rcases fieldOf_cases token with ⟨_, carried⟩ | ⟨unsendable, _⟩
    · exact carried
    · exact absurd sendable unsendable
  rw [List.mapM_append]
  cases front.mapM fieldOf <;> simp [carried, bind, Except.bind, pure, Except.pure]

theorem fault?_withKey (firstSendable : IsSendable first) (secondSendable : IsSendable second)
    (prepared : prepare (provider.withKey first) request = .ok outbound) :
    (outbound.withKey second).fault? = outbound.fault? := by
  obtain ⟨front, _, split⟩ := exists_front provider request.headers
  have firstSplit : outbound.headers.toList = front ++ [keyHeader first] := by
    rw [headers_of_prepare prepared, split]
  have secondSplit : (outbound.withKey second).headers.toList = front ++ [keyHeader second] := by
    rw [withKey, headers_of_prepare prepared, ← toList_identify_withKey, split]
  -- The key is carried in both, and so a fault is one of what stands before it.
  apply Option.ext
  intro failure
  rw [fault?_eq_some_iff, fault?_eq_some_iff, fields, fields, firstSplit, secondSplit,
    mapM_append_key firstSendable, mapM_append_key secondSendable]

end Outbound

theorem Remote.call_withKey (remote : Remote) (outbound : Outbound) (key : String) :
    (remote.withKey key).call (outbound.withKey key) =
      ((remote.call outbound).1, (remote.call outbound).2.withKey key) := by
  have sameLimit : (outbound.withKey key).isWithinLimit = outbound.isWithinLimit := rfl
  have sameReach : (remote.withKey key).isReachable = remote.isReachable := rfl
  simp only [call, sameLimit, sameReach]
  split
  · rfl
  · split
    · rfl
    · simp [withKey, Outbound.withKey]

theorem relay_withKey (firstSendable : IsSendable first) (secondSendable : IsSendable second)
    (provider : Provider) (remote : Remote) (request : Request) :
    relay (provider.withKey second) (remote.withKey second) request =
      (relay (provider.withKey first) remote request).withKey second := by
  unfold relay
  rw [Outbound.prepare_withKey provider first second]
  cases prepared : Outbound.prepare (provider.withKey first) request with
  | error failure => rfl
  | ok outbound =>
    simp only [Except.map, Outbound.fault?_withKey firstSendable secondSendable prepared]
    cases outbound.fault? with
    | some failure => rfl
    | none =>
      simp only [Remote.call_withKey]
      rfl

end Relay
end IdentityRelay
