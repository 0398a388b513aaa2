import IdentityRelay.Http.Framing
import IdentityRelay.Http.RequestHead

/-! Reading requests from the front of a buffer. -/
namespace IdentityRelay.Http.Request

/-- The request at the front of `buffer`, and how many bytes it took. Faults of
the head are found before those of the body. -/
def parse (buffer : Bytes) : Except ParseError (Request × Nat) := do
  let (head, rest) ← RequestHead.cut buffer
  let { method, target, version, headers } ← RequestHead.parse head
  let framing ← Framing.ofHeaders headers
  let (body, length) ← framing.readBody rest
  return ({ method, target, version, headers, body }, head.length + 4 + length)

theorem parse_nil : parse [] = .error .incomplete := rfl

/-- A request takes at least one byte of its buffer. -/
theorem pos_of_parse {buffer : Bytes} {request : Request} {taken : Nat}
    (parsed : parse buffer = .ok (request, taken)) : 0 < taken ∧ 0 < buffer.length := by
  constructor
  · simp only [parse, bind, Except.bind] at parsed
    repeat' split at parsed
    all_goals cases parsed
    omega
  · cases buffer with
    | nil => rw [parse_nil] at parsed; cases parsed
    | cons => simp

/-- The requests at the front of `buffer`, each with the number of bytes that it
took, the error that ended the sequence, if one did, and the bytes left over. -/
def parseAll (buffer : Bytes) : List (Request × Nat) × Option ParseError × Bytes :=
  if buffer.isEmpty then ([], none, [])
  else match _ : parse buffer with
    | .error error => ([], some error, buffer)
    | .ok (request, taken) =>
      let (requests, ending) := parseAll (buffer.drop taken)
      ((request, taken) :: requests, ending)
termination_by buffer.length
decreasing_by
  have := pos_of_parse ‹parse buffer = _›
  simp
  omega

end IdentityRelay.Http.Request
