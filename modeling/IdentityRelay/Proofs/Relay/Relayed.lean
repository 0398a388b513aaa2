import IdentityRelay.Proofs.Http.Delimited
import IdentityRelay.Proofs.Outcome
import IdentityRelay.Relay.Remote

/-! What the caller is given is delimited, whatever the provider says about the length
of its own answer and however that answer breaks off. -/
namespace IdentityRelay.Relay
open IdentityRelay.Http
variable {remote : Remote} {provider : Provider}

/-- A reply whose fields a client could be sent. -/
def Reply.Printable : Reply → Prop
  | .answer _ headers _ => ∀ header ∈ headers.toList, header.Printable
  | _ => True

def Remote.Printable (remote : Remote) : Prop := ∀ reply ∈ remote.replies, reply.Printable

theorem Failure.response_delimited (failure : Failure) : failure.response.Delimited false := by
  cases failure <;> exact Response.failure_delimited _ _

theorem not_isNamed_of_isRelayed {header : Header} {name : String}
    (relayed : isRelayed header = true)
    (unrelayed : unrelayedHeaders.any (Text.sameName name) = true) :
    Headers.isNamed name header = false := by
  have unnamed : ∀ other ∈ unrelayedHeaders, Headers.isNamed other header = false := by
    simpa [isRelayed] using relayed
  obtain ⟨other, member, same⟩ := List.any_eq_true.mp unrelayed
  rw [Text.sameName, beq_iff_eq] at same
  rw [Headers.isNamed, Text.sameName, same]
  exact unnamed other member

theorem values_filter_isRelayed {name : String}
    (unrelayed : unrelayedHeaders.any (Text.sameName name) = true) (headers : Headers) :
    (headers.filter isRelayed).values name = [] := by
  rw [Headers.values_eq_nil_iff]
  intro header member
  exact not_isNamed_of_isRelayed (List.mem_filter.mp member).2 unrelayed

/-- The fields that are relayed say nothing about where the answer ended. -/
private theorem plain_of_isRelayed {header : Header} (printable : header.Printable)
    (relayed : isRelayed header = true) : header.Plain :=
  ⟨printable, not_isNamed_of_isRelayed relayed (by decide),
    not_isNamed_of_isRelayed relayed (by decide)⟩

theorem Answer.response_delimited {answer : Answer}
    (printable : ∀ header ∈ answer.headers.toList, header.Printable) (method : Method) :
    (answer.response method).Delimited (method == .head) := by
  apply ResponseDraft.build_delimited
  intro header member
  obtain ⟨stored, relayed⟩ := List.mem_filter.mp member
  exact plain_of_isRelayed (printable header stored) relayed

private theorem printable_of_outcome {reply : Reply} (printable : reply.Printable) {method : Method}
    {answer : Answer} (came : Remote.outcome method reply = .ok answer) :
    ∀ header ∈ answer.headers.toList, header.Printable := by
  cases reply with
  | none => cases came
  | late => cases came
  | answer status headers body =>
    obtain ⟨content, _, rfl⟩ := map_eq_ok_iff.mp came
    exact printable

theorem Remote.call_printable (printable : remote.Printable) (outbound : Outbound) :
    (remote.call outbound).2.Printable ∧ ∀ answer, (remote.call outbound).1 = .ok answer →
      ∀ header ∈ answer.headers.toList, header.Printable := by
  unfold Remote.call
  split
  · exact ⟨printable, fun _ came => nomatch came⟩
  · split
    · exact ⟨printable, fun _ came => nomatch came⟩
    · constructor
      · exact fun reply later => printable reply (List.mem_of_mem_tail later)
      · intro answer came
        refine printable_of_outcome ?_ came
        cases replies : remote.replies with
        | nil => trivial
        | cons reply rest => exact printable reply (replies ▸ List.mem_cons_self)

/-- The response to a request is delimited, and so will those to later requests be. -/
theorem relay_delimited (printable : remote.Printable) (provider : Provider) (request : Request) :
    (relay provider remote request).response.Delimited (request.method == .head) ∧
      (relay provider remote request).remote.Printable := by
  cases prepared : Outbound.prepare provider request with
  | error failure =>
    simp only [relay, prepared]
    exact ⟨(Failure.response_delimited failure).weaken _, printable⟩
  | ok outbound =>
    cases fault : outbound.fault? with
    | some failure =>
      simp only [relay, prepared, fault]
      exact ⟨(Failure.response_delimited failure).weaken _, printable⟩
    | none =>
      obtain ⟨later, fields⟩ := Remote.call_printable printable outbound
      simp only [relay, prepared, fault, Outcome.response]
      refine ⟨?_, later⟩
      cases came : (remote.call outbound).1 with
      | error failure => exact (Failure.response_delimited failure).weaken _
      | ok answer => exact Answer.response_delimited (fields answer came) _

end IdentityRelay.Relay
