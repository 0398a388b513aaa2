import IdentityRelay.Http.ParseError
import IdentityRelay.Http.Wire
import IdentityRelay.Text.Split

/-! Chunked bodies: chunks, each behind a line with its size, a last line of size
zero, and trailer fields up to an empty line. Extensions and trailers are
skipped. Decoding looks only at the bytes that it takes. -/
namespace IdentityRelay.Http.Chunked

/-- The size on a size line: hexadecimal digits before the first semicolon. -/
def sizeOfLine? (line : Bytes) : Option Nat := do
  let text ← Utf8.decode? line
  Text.readSize? 16 (Text.trim (text.toList.takeWhile (· != ';')))

/-- How many bytes the trailer section takes, its empty line included. -/
def trailerLength (rest : Bytes) : Except ParseError Nat :=
  match _ : Text.cut? crlf rest with
  | none => .error .incomplete
  | some ([], _) => .ok 2
  | some (line, after) => do return line.length + 2 + (← trailerLength after)
termination_by rest.length
decreasing_by
  have whole := Text.length_of_cut? ‹Text.cut? crlf rest = _›
  simp [crlf] at whole
  omega

/-- The payload of the chunks in `rest`, and how many bytes they take with the
trailer section. `offset` counts the bytes of the body before `rest`: a chunk
that would end beyond the largest size is refused at once. -/
def decodeFrom (offset : Nat) (rest : Bytes) : Except ParseError (Bytes × Nat) :=
  match _ : Text.cut? crlf rest with
  | none => .error .incomplete
  | some (line, after) =>
    match sizeOfLine? line with
    | none => .error .invalidChunk
    | some 0 => do return ([], line.length + 2 + (← trailerLength after))
    | some size =>
      if Text.wordLimit ≤ offset + line.length + 2 + size + 2 then .error .invalidChunk
      else match _ : after.drop size with
        | 13 :: 10 :: next => do
          let (payload, taken) ← decodeFrom (offset + line.length + 2 + size + 2) next
          return (after.take size ++ payload, line.length + 2 + size + 2 + taken)
        | _ :: _ :: _ => .error .invalidChunk
        | _ => .error .incomplete
termination_by rest.length
decreasing_by
  have whole := Text.length_of_cut? ‹Text.cut? crlf rest = _›
  have shorter := congrArg List.length ‹after.drop size = _›
  simp [crlf] at whole shorter
  omega

/-- The payload of a chunked body at the front of `bytes`, and how many bytes it took. -/
def decode (bytes : Bytes) : Except ParseError (Bytes × Nat) := decodeFrom 0 bytes

end IdentityRelay.Http.Chunked
