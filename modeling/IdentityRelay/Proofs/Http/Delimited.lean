import IdentityRelay.Proofs.Http.ResponseWire
import IdentityRelay.Proofs.Text.Words

/-! The responses of the relay are delimited, whichever way they are made: a draft gives
the length of its body once, and to announce the end of the connection changes
nothing about the end of the message. -/
namespace IdentityRelay.Http

theorem printable_length (n : Nat) : Header.Printable ⟨"Content-Length", toString n⟩ where
  token := (by decide : Text.isToken "Content-Length" = true)
  printable := by
    intro c member
    have bounds := Text.bounds_of_isAlphanum (isAlphanum_of_mem_toString member)
    exact .inr ⟨by omega, by omega⟩

/-- A field that can be sent and does not say where a message ends. -/
structure Header.Plain (header : Header) : Prop where
  printable : header.Printable
  unchunked : Headers.isNamed "Transfer-Encoding" header = false
  unmeasured : Headers.isNamed "Content-Length" header = false

namespace ResponseDraft
variable {draft : ResponseDraft}

/-- A draft of plain fields makes a delimited response. -/
theorem build_delimited (plain : ∀ header ∈ draft.headers.toList, header.Plain) :
    draft.build.Delimited draft.answersHead := by
  have unchunked : draft.headers.values "Transfer-Encoding" = [] :=
    Headers.values_eq_nil_iff.mpr fun header member => (plain header member).unchunked
  have unmeasured : draft.headers.values "Content-Length" = [] :=
    Headers.values_eq_nil_iff.mpr fun header member => (plain header member).unmeasured
  by_cases lacks : draft.lacksLength = true
  · have headers : draft.build.headers =
        draft.headers.append "Content-Length" (toString draft.body.length) := if_pos lacks
    constructor
    · intro header member
      rw [headers] at member
      rcases List.mem_append.mp member with stored | new
      · exact (plain header stored).printable
      · rw [List.mem_singleton.mp new]
        exact printable_length _
    · rw [headers, Headers.values_append, unchunked]
      rfl
    · intro _ _
      rw [headers, Headers.values_append, unmeasured]
      rfl
  · have headers : draft.build.headers = draft.headers := if_neg lacks
    constructor
    · rw [headers]
      exact fun header member => (plain header member).printable
    · rw [headers]
      exact unchunked
    · intro wanted allowed
      have allowed : draft.status.allowsBody = true := allowed
      have missing := Headers.contains_eq_false_iff.mpr unmeasured
      exact absurd (by simp [lacksLength, wanted, allowed, missing]) lacks

end ResponseDraft

namespace Response
variable {response : Response} {headOnly : Bool}

theorem Delimited.weaken (delimited : response.Delimited false) (headOnly : Bool) :
    response.Delimited headOnly :=
  ⟨delimited.printable, delimited.unchunked, fun _ => delimited.length rfl⟩

theorem Delimited.closing (delimited : response.Delimited headOnly) :
    response.closing.Delimited headOnly where
  printable := by
    intro header member
    rcases Headers.mem_set member with stored | rfl
    · exact delimited.printable header stored
    · exact ⟨by decide, Text.forall_mem_of_all (by decide)⟩
  unchunked := by
    rw [Response.closing, Headers.values_set_of_ne (by decide)]
    exact delimited.unchunked
  length := by
    intro wanted allowed
    rw [Response.closing, Headers.values_set_of_ne (by decide)]
    exact delimited.length wanted allowed

private theorem plain_contentType : Header.Plain ⟨"Content-Type", "text/plain"⟩ :=
  ⟨⟨by decide, Text.forall_mem_of_all (by decide)⟩, by decide, by decide⟩

theorem failure_delimited (status : Status) (detail : String) :
    (failure status detail).Delimited false := by
  apply ResponseDraft.build_delimited
  intro header member
  rw [List.mem_singleton.mp member]
  exact plain_contentType

private theorem plain_allow (allowed : List Method) :
    Header.Plain ⟨"Allow", String.intercalate ", " (allowed.map Method.name)⟩ := by
  have name : ∀ method : Method, ∀ c ∈ method.name.toList, 0x20 ≤ c.toNat ∧ c.toNat < 0x100 := by
    intro method
    cases method <;> exact Text.forall_mem_of_all (by decide)
  have between : ∀ c ∈ ", ".toList, 0x20 ≤ c.toNat ∧ c.toNat < 0x100 :=
    Text.forall_mem_of_all (by decide)
  refine ⟨⟨(by decide : Text.isToken "Allow" = true), ?_⟩,
    (by decide : Text.sameName "Allow" "Transfer-Encoding" = false),
    (by decide : Text.sameName "Allow" "Content-Length" = false)⟩
  intro c member
  rw [String.toList_intercalate, List.map_map] at member
  refine .inr (Text.forall_mem_intercalate between ?_ c member)
  intro part isPart
  obtain ⟨method, _, rfl⟩ := List.mem_map.mp isPart
  exact name method

theorem methodNotAllowed_delimited (allowed : List Method) :
    (methodNotAllowed allowed).Delimited false := by
  apply ResponseDraft.build_delimited
  intro header member
  rcases List.mem_cons.mp member with rfl | later
  · exact plain_allow allowed
  · rw [List.mem_singleton.mp later]
    exact plain_contentType

end Response

end IdentityRelay.Http
