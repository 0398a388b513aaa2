import IdentityRelay.Http.Wire
import IdentityRelay.Server.Channel

/-! Writing a response through short writes. The position moves with the bytes
that were taken, so that a delivery that failed can be taken up again. -/
namespace IdentityRelay.Server
open IdentityRelay.Http

/-- A message of which some bytes are written. -/
structure Delivery where
  wire : Bytes
  written : Nat
  written_le : written ≤ wire.length
  deriving DecidableEq, Repr

namespace Delivery

def ofWire (wire : Bytes) : Delivery := ⟨wire, 0, Nat.zero_le _⟩

def ofResponse (response : Response) : Delivery := ofWire response.wire

/-- The delivery of a response to a HEAD request, which has no body. -/
def ofHead (response : Response) : Delivery := ofWire response.wireOfHead

/-- The delivery of the response to a request with this method. -/
def answering (method : Method) (response : Response) : Delivery :=
  if method == .head then .ofHead response else .ofResponse response

def pending (delivery : Delivery) : Bytes := delivery.wire.drop delivery.written

/-- The delivery after a write took up to `count` of the pending bytes. -/
def advance (delivery : Delivery) (count : Nat) : Delivery where
  wire := delivery.wire
  written := min (delivery.written + count) delivery.wire.length
  written_le := Nat.min_le_right ..

/-- How far writing came. -/
structure Progress where
  delivery : Delivery
  /-- The writes that were not used. -/
  acceptances : List Acceptance
  events : List Event
  fault? : Option String

/-- Writes until nothing is pending. A write that takes nothing is a fault. -/
def write (delivery : Delivery) : List Acceptance → Progress
  | [] =>
    if delivery.pending.isEmpty then ⟨delivery, [], [], none⟩
    else ⟨delivery.advance delivery.wire.length, [], [.wrote delivery.pending], none⟩
  | acceptance :: rest =>
    if delivery.pending.isEmpty then ⟨delivery, acceptance :: rest, [], none⟩
    else match acceptance with
      | .fault message => ⟨delivery, rest, [.writeFailed message], some message⟩
      | .upTo 0 => ⟨delivery, rest, [.wrote []], some "connection closed while writing"⟩
      | .upTo count =>
        let progress := (delivery.advance count).write rest
        { progress with events := .wrote (delivery.pending.take count) :: progress.events }

structure Sending where
  delivery : Delivery
  channel : Channel
  events : List Event
  fault? : Option String

/-- Writes what is pending and then flushes, also if nothing was pending. -/
def send (delivery : Delivery) (channel : Channel) : Sending :=
  let progress := delivery.write channel.acceptances
  let channel := { channel with acceptances := progress.acceptances }
  match progress.fault? with
  | some message => ⟨progress.delivery, channel, progress.events, some message⟩
  | none =>
    let channel' := { channel with flushes := channel.flushes + 1 }
    match channel.flushFault? channel.flushes with
    | some message =>
      ⟨progress.delivery, channel', progress.events ++ [.flushFailed message], some message⟩
    | none => ⟨progress.delivery, channel', progress.events ++ [.flushed], none⟩

end Delivery

end IdentityRelay.Server
