import IdentityRelay.Proofs.Http.ReadBack
import IdentityRelay.Proofs.Relay.Relayed

/-! What of the provider's answer comes to the caller: all of it but the fields that told how
the answer itself was sent, also on the wire. -/
namespace IdentityRelay.Relay
open IdentityRelay.Http

namespace Answer
variable {answer : Answer}

theorem isRelayed_eq (header : Header) : isRelayed header =
    ["content-encoding", "content-length", "transfer-encoding", "connection"].all
      fun name => !Text.sameName header.name name := by
  simp [isRelayed, unrelayedHeaders, Headers.isNamed]

theorem values_length_filter (headers : Headers) :
    (headers.filter isRelayed).values "Content-Length" = [] :=
  values_filter_isRelayed (by decide) headers

/-- The draft lacks a length whenever one is due. -/
theorem headers_response (answer : Answer) (method : Method) :
    (answer.response method).headers =
      if method ≠ .head ∧ answer.status.allowsBody = true then
        (answer.headers.filter isRelayed).append "Content-Length" (toString answer.body.length)
      else answer.headers.filter isRelayed := by
  have missing := Headers.contains_eq_false_iff.mpr (values_length_filter answer.headers)
  simp only [response, ResponseDraft.build, ResponseDraft.lacksLength, missing]
  simp

theorem toList_response (answer : Answer) (method : Method) :
    (answer.response method).headers.toList = answer.headers.toList.filter isRelayed ++
      if method ≠ .head ∧ answer.status.allowsBody = true then
        [⟨"Content-Length", toString answer.body.length⟩]
      else [] := by
  rw [headers_response]
  split
  · rfl
  · exact (List.append_nil _).symm

theorem values_length_response (answer : Answer) (method : Method) :
    (answer.response method).headers.values "Content-Length" =
      if method ≠ .head ∧ answer.status.allowsBody = true then [toString answer.body.length]
      else [] := by
  rw [headers_response]
  split
  · rw [Headers.values_append, values_length_filter]
    rfl
  · exact values_length_filter answer.headers

theorem oneLine_response (oneLine : ∀ header ∈ answer.headers.toList, header.OneLine)
    (method : Method) : ∀ header ∈ (answer.response method).headers.toList, header.OneLine := by
  intro header member
  rw [toList_response] at member
  rcases List.mem_append.mp member with relayed | length
  · exact oneLine header (List.mem_filter.mp relayed).1
  · split at length
    · rw [List.mem_singleton.mp length]
      exact (printable_length _).oneLine
    · cases length

end Answer

/-- The response to the caller is the provider's answer without the fields that told how it
was sent, with a length of its own where a body can come, and what a reader takes off the
wire is that response. -/
theorem response_transparent (answer : Answer) (method : Method) :
    (answer.response method).status = answer.status ∧
    (answer.response method).body = answer.body ∧
    (answer.response method).headers.toList =
      answer.headers.toList.filter (fun header =>
        ["content-encoding", "content-length", "transfer-encoding", "connection"].all
          fun name => !Text.sameName header.name name) ++
        (if method ≠ .head ∧ answer.status.allowsBody = true then
          [⟨"Content-Length", toString answer.body.length⟩]
        else []) ∧
    (answer.response method).headers.values "Content-Length" =
      (if method ≠ .head ∧ answer.status.allowsBody = true then [toString answer.body.length]
      else []) ∧
    ((∀ header ∈ answer.headers.toList, header.OneLine) →
      Reader.read? (answer.response method).wire =
        some (answer.status.code, (answer.response method).headers,
          if answer.status.allowsBody then answer.body else [])) := by
  refine ⟨rfl, rfl, ?_, Answer.values_length_response answer method, ?_⟩
  · rw [Answer.toList_response]
    exact congrArg (List.filter · _ ++ _) (funext Answer.isRelayed_eq)
  · intro oneLine
    exact Reader.read?_wire (Answer.oneLine_response oneLine method)

/-- An answer under a code without a phrase. One of its values could be taken for a field,
one is empty, and its body for another message. -/
def nestedAnswer : Answer where
  status := ⟨299, by decide⟩
  headers := ⟨[⟨"Set-Cookie", "a: b"⟩, ⟨"CONNECTION", "close"⟩, ⟨"set-cookie", ""⟩,
    ⟨"Content-length", "7"⟩, ⟨"X-Place", "caf\xe9 "⟩]⟩
  body := separator ++ Utf8.encode "HTTP/1.1 200 OK\r\nA: b\r\n\r\n"

theorem response_transparent_of_nestedAnswer :
    (nestedAnswer.response .get).headers.toList = [⟨"Set-Cookie", "a: b"⟩, ⟨"set-cookie", ""⟩,
        ⟨"X-Place", "caf\xe9 "⟩, ⟨"Content-Length", "29"⟩] ∧
      (∀ header ∈ nestedAnswer.headers.toList, header.OneLine) ∧
      Reader.read? (nestedAnswer.response .get).wire =
        some (299, (nestedAnswer.response .get).headers, nestedAnswer.body) := by
  obtain ⟨_, _, fields, _, read⟩ := response_transparent nestedAnswer .get
  have oneLine : ∀ header ∈ nestedAnswer.headers.toList, header.OneLine := by
    decide +kernel
  refine ⟨?_, oneLine, read oneLine⟩
  rw [fields]
  decide

end IdentityRelay.Relay
