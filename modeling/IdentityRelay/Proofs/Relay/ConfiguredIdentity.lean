import IdentityRelay.Proofs.Relay.Fields
import IdentityRelay.Relay.Remote

/-! The identity under which a request is sent. It is the configured one, whatever identities
the caller's own fields claim: those have no part in the request that is sent. -/
namespace IdentityRelay.Relay
open IdentityRelay.Http
variable {provider : Provider} {outbound : Outbound}

namespace Outbound

theorem values_userId_identify (provider : Provider) (headers : Headers) :
    (identify provider headers).values userIdHeader = [provider.userId] := by
  have different : Text.sameName userIdHeader appKeyHeader = false := by decide
  unfold identify
  cases provider.appKey? with
  | none => exact Headers.values_set_self _ _ _
  | some appKey =>
    rw [Headers.values_set_of_ne different]
    exact Headers.values_set_self _ _ _

/-- Two requests that differ at most in fields that are left out, and in their version. -/
structure SameKept (provider : Provider) (first second : Request) : Prop where
  method : first.method = second.method
  target : first.target = second.target
  headers : first.headers.toList.filter (fun header => !overrides provider header.name) =
    second.headers.toList.filter fun header => !overrides provider header.name
  body : first.body = second.body

theorem SameKept.identify_eq {first second : Request} (same : SameKept provider first second) :
    identify provider first.headers = identify provider second.headers := by
  have lists : (identify provider first.headers).toList =
      (identify provider second.headers).toList := by
    rw [toList_identify, toList_identify, same.headers]
  exact congrArg Headers.mk lists

theorem SameKept.prepare_eq {first second : Request} (same : SameKept provider first second) :
    prepare provider first = prepare provider second := by
  simp only [prepare, same.method, same.target, same.body, same.identify_eq]

/-- The configured user is the only one among the fields of a request that was read. -/
theorem values_userId_fields {buffer : Bytes} {request : Request} {taken : Nat}
    {fields : List Field} (parsed : Request.parse buffer = .ok (request, taken))
    (prepared : prepare provider request = .ok outbound) (carried : outbound.fields = .ok fields) :
    ∃ value, Latin1.encode? provider.userId = some value ∧
      Field.values fields userIdHeader = [value] := by
  obtain ⟨each, same⟩ := (fields_eq_ok_iff (tokens_of_parse parsed prepared)).mp carried
  obtain ⟨_, sendable, _⟩ := (forall_sendable_iff parsed prepared).mp each
  refine ⟨provider.userId.toList.map Char.toUInt8, ?_, ?_⟩
  · refine Latin1.encode?_eq_some_iff.mpr ⟨?_, rfl⟩
    exact fun c member => Nat.lt_succ_of_le (sendable c member).1
  · rw [same, Field.values_map_ofHeader, headers_of_prepare prepared, values_userId_identify]
    rfl

theorem exists_fields_of_fault? (sound : outbound.fault? = none) :
    ∃ fields, outbound.fields = .ok fields := by
  unfold fault? at sound
  cases carried : outbound.fields with
  | ok fields => exact ⟨fields, rfl⟩
  | error failure =>
    rw [carried] at sound
    cases sound

end Outbound

/-- A request is sent as it was prepared, and only if fields can carry it. -/
theorem carried_of_call {remote : Remote} {request : Request}
    (called : (relay provider remote request).call? = some outbound) :
    Outbound.prepare provider request = .ok outbound ∧ ∃ fields, outbound.fields = .ok fields := by
  unfold relay at called
  cases prepared : Outbound.prepare provider request with
  | error failure => simp [prepared] at called
  | ok made =>
    simp only [prepared] at called
    cases fault : made.fault? with
    | some failure => simp [fault] at called
    | none =>
      simp only [fault, Option.some.injEq] at called
      subst called
      exact ⟨rfl, Outbound.exists_fields_of_fault? fault⟩

/-- A request goes out with the caller's fields, without those that are not for the caller to
set, and the configured identity behind them. So the fields that are left out make no
difference, and of the users that the bytes of a caller claim none is sent: the one that is
sent is the configured one. -/
theorem identity_configured (provider : Provider) :
    (∀ (request : Request) (outbound : Outbound), Outbound.prepare provider request = .ok outbound →
      outbound.headers.toList =
        request.headers.toList.filter (fun header => !Outbound.overrides provider header.name) ++
          Outbound.identity provider ∧
      outbound.method = request.method ∧ outbound.body = request.body) ∧
    (∀ first second : Request, Outbound.SameKept provider first second →
      Outbound.prepare provider first = Outbound.prepare provider second) ∧
    ∀ (buffer : Bytes) (request : Request) (taken : Nat),
      Request.parse buffer = .ok (request, taken) →
        (∀ outbound, Outbound.prepare provider request = .ok outbound →
          outbound.headers.values userIdHeader = [provider.userId]) ∧
        ∀ (remote : Remote) (outbound : Outbound),
          (relay provider remote request).call? = some outbound →
            ∃ fields value, outbound.fields = .ok fields ∧
              Latin1.encode? provider.userId = some value ∧
              Field.values fields userIdHeader = [value] := by
  refine ⟨?_, ?_, ?_⟩
  · intro request outbound prepared
    obtain ⟨url, _, rfl⟩ := Outbound.exists_url_of_prepare prepared
    exact ⟨Outbound.toList_identify provider request.headers, rfl, rfl⟩
  · intro first second same
    exact same.prepare_eq
  · intro buffer request taken parsed
    constructor
    · intro outbound prepared
      rw [Outbound.headers_of_prepare prepared, Outbound.values_userId_identify]
    · intro remote outbound called
      obtain ⟨prepared, fields, carried⟩ := carried_of_call called
      obtain ⟨value, encoded, sent⟩ := Outbound.values_userId_fields parsed prepared carried
      exact ⟨fields, value, carried, encoded, sent⟩

/-- A request whose fields claim two other users, a key and a host, in several spellings. -/
def claimingBuffer : Bytes :=
  Utf8.encode ("GET / HTTP/1.1\nX-IOWallet-User-ID: eve\nTE:\n" ++
    " x-iowallet-user-id\t:bob\nX-Functions-Key:0\nHOST:h\nte:\r\n\r\n")

def claimingRequest : Request where
  method := .get
  target := "/"
  version := "HTTP/1.1"
  headers := ⟨[⟨"X-IOWallet-User-ID", "eve"⟩, ⟨"TE", ""⟩, ⟨"x-iowallet-user-id", "bob"⟩,
    ⟨"X-Functions-Key", "0"⟩, ⟨"HOST", "h"⟩, ⟨"te", ""⟩]⟩
  body := []

def modestRequest : Request :=
  { claimingRequest with headers := ⟨[⟨"TE", ""⟩, ⟨"te", ""⟩]⟩ }

theorem identity_configured_of_claims :
    Request.parse claimingBuffer = .ok (claimingRequest, claimingBuffer.length) ∧
      Outbound.prepare loopback claimingRequest = Outbound.prepare loopback modestRequest ∧
      ∃ outbound, (relay loopback ⟨false, [], []⟩ claimingRequest).call? = some outbound ∧
        Outbound.prepare loopback claimingRequest = .ok outbound ∧
        outbound.headers.toList = [⟨"TE", ""⟩, ⟨"te", ""⟩,
          ⟨"x-iowallet-user-id", "zo\xeb"⟩, ⟨"x-functions-key", "a\tb"⟩] ∧
        outbound.headers.values userIdHeader = ["zo\xeb"] ∧
        ∃ fields value, outbound.fields = .ok fields ∧ Latin1.encode? "zo\xeb" = some value ∧
          Field.values fields userIdHeader = [value] := by
  have parsed : Request.parse claimingBuffer = .ok (claimingRequest, claimingBuffer.length) := by
    rfl
  have same : Outbound.SameKept loopback claimingRequest modestRequest :=
    ⟨rfl, rfl, by decide, rfl⟩
  have called : (relay loopback ⟨false, [], []⟩ claimingRequest).call?.isSome = true := by
    decide +kernel
  obtain ⟨outbound, called⟩ := Option.isSome_iff_exists.mp called
  have prepared := (carried_of_call called).1
  obtain ⟨front, equal, sent⟩ := identity_configured loopback
  obtain ⟨single, carried⟩ := sent _ _ _ parsed
  refine ⟨parsed, equal _ _ same, outbound, called, prepared, ?_, single outbound prepared,
    carried _ outbound called⟩
  rw [(front _ _ prepared).1]
  decide

end IdentityRelay.Relay
