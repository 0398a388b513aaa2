import IdentityRelay.Relay.Outbound

/-! A client's end of a connection as a script: what each read brings, what each
write takes, and which flushes fail. What happens on it is told as events. -/
namespace IdentityRelay.Server

inductive Arrival where
  /-- Bytes; none of them mean the end of the input. -/
  | bytes (bytes : Bytes)
  | fault (message : String)
  deriving DecidableEq, Repr

/-- The bytes of an arrival, and one for the read itself. -/
def Arrival.weight : Arrival → Nat
  | .bytes read => read.length + 1
  | .fault _ => 1

/-- What one write takes of the bytes that are offered. -/
inductive Acceptance where
  | upTo (count : Nat)
  | fault (message : String)
  deriving DecidableEq, Repr

structure Channel where
  /-- The reads to come; after them the input is at its end. -/
  arrivals : List Arrival
  /-- The writes to come; after them all that is offered is taken. -/
  acceptances : List Acceptance := []
  /-- How many flushes there were. -/
  flushes : Nat := 0
  /-- The fault of a flush, by the number of flushes before it. -/
  flushFault? : Nat → Option String := fun _ => none

/-- What happens on a connection, to the client or to the provider. -/
inductive Event where
  | wrote (bytes : Bytes)
  | writeFailed (message : String)
  | flushed
  | flushFailed (message : String)
  | called (outbound : Relay.Outbound)
  deriving DecidableEq, Repr

end IdentityRelay.Server
