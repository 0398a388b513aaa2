import IdentityRelay.Proofs.Relay.Secrecy
import IdentityRelay.Proofs.Server.Calls

/-! What a client can learn of the application key. A run under another key that can be
sent is the same run, with the other key in what the provider is asked. -/
namespace IdentityRelay.Server
open IdentityRelay.Http
open Relay (IsSendable)
variable {first second : String}

def Service.withKey (service : Service) (key : String) : Service :=
  { service with provider := service.provider.withKey key }

namespace Event

def isOfClient : Event → Bool
  | .called _ => false
  | _ => true

def withKey (key : String) : Event → Event
  | .called outbound => .called (outbound.withKey key)
  | event => event

theorem withKey_of_isOfClient {event : Event} (ofClient : event.isOfClient = true) (key : String) :
    event.withKey key = event := by
  cases event with
  | called outbound => cases ofClient
  | _ => rfl

theorem isOfClient_withKey (event : Event) (key : String) :
    (event.withKey key).isOfClient = event.isOfClient := by
  cases event <;> rfl

theorem isOfClient_of_isFailure {event : Event} (failed : event.isFailure = true) :
    event.isOfClient = true := by
  cases event with
  | called outbound => cases failed
  | _ => rfl

end Event

/-- The client has no part in calls, and so its events tell nothing of the key. -/
theorem filter_isOfClient_withKey (events : List Event) (key : String) :
    (events.map (Event.withKey key)).filter Event.isOfClient = events.filter Event.isOfClient := by
  induction events with
  | nil => rfl
  | cons event rest ih =>
    cases ofClient : event.isOfClient <;>
      simp [Event.isOfClient_withKey, ofClient, ih, Event.withKey_of_isOfClient]

theorem calls_withKey (events : List Event) (key : String) :
    calls (events.map (Event.withKey key)) = (calls events).map (·.withKey key) := by
  induction events with
  | nil => rfl
  | cons event rest ih => cases event <;> simp_all [calls, Event.withKey]

/-- What is written and flushed is for the client. -/
theorem send_withKey (delivery : Delivery) (channel : Channel) (key : String) :
    (delivery.send channel).events.map (Event.withKey key) = (delivery.send channel).events := by
  have written : ∀ writes : List Bytes,
      (writes.map Event.wrote).map (Event.withKey key) = writes.map .wrote := by
    intro writes
    rw [List.map_map]
    rfl
  obtain ⟨writes, _, ⟨_, _, events⟩ | ⟨failure, failed, _, _, events⟩⟩ :=
    delivery.send_cases channel
  · rw [events, List.map_append, written]
    rfl
  · have same := Event.withKey_of_isOfClient (Event.isOfClient_of_isFailure failed) key
    rw [events, List.map_append, written, List.map_singleton, same]

/-- The same state, had the provider been asked with this key all along. -/
def Connection.withKey (connection : Connection) (key : String) : Connection :=
  { connection with remote := connection.remote.withKey key }

def Step.withKey (step : Step) (key : String) : Step :=
  { step with events := step.events.map (Event.withKey key), next := step.next.withKey key }

namespace Connection

def Run.withKey (run : Run) (key : String) : Run :=
  { run with events := run.events.map (Event.withKey key), final := run.final.withKey key }

private theorem receive_withKey (connection : Connection) (key : String) :
    (connection.withKey key).receive = connection.receive.withKey key := by
  have sameArrivals : (connection.withKey key).channel.arrivals = connection.channel.arrivals := rfl
  simp only [receive, sameArrivals]
  split <;> rfl

private theorem read_withKey (service : Service) (connection : Connection) (first second : String) :
    (connection.withKey second).read (service.withKey second) =
      (connection.read (service.withKey first)).withKey second := by
  have sameBuffer : (connection.withKey second).buffer = connection.buffer := rfl
  simp only [read, sameBuffer]
  split
  · rfl
  · exact receive_withKey connection second
  · rfl

private theorem answer_withKey (firstSendable : IsSendable first)
    (secondSendable : IsSendable second) (service : Service) (remote : Relay.Remote)
    (request : Request) :
    answer (service.withKey second) (remote.withKey second) request =
      ((answer (service.withKey first) remote request).1,
        (answer (service.withKey first) remote request).2.1.map (·.withKey second),
        (answer (service.withKey first) remote request).2.2.withKey second) := by
  have sameAllowed : (service.withKey second).allowed = (service.withKey first).allowed := rfl
  have relayed := Relay.relay_withKey firstSendable secondSendable service.provider remote request
  simp only [answer, sameAllowed]
  split
  · simp only [Service.withKey, relayed]
    rfl
  · rfl

/-- A step under another key does the same, with that key in the call that it makes. -/
theorem step_withKey (firstSendable : IsSendable first) (secondSendable : IsSendable second)
    (service : Service) (connection : Connection) :
    (connection.withKey second).step (service.withKey second) =
      (connection.step (service.withKey first)).withKey second := by
  have samePhase : (connection.withKey second).phase = connection.phase := rfl
  cases phase : connection.phase with
  | reading =>
    simp only [step, samePhase, phase]
    exact read_withKey service connection first second
  | processing request =>
    have answered := answer_withKey firstSendable secondSendable service connection.remote request
    have sameRemote : (connection.withKey second).remote = connection.remote.withKey second := rfl
    simp only [step, samePhase, phase, process, sameRemote, answered, Step.withKey]
    cases (answer (service.withKey first) connection.remote request).2.1 <;> rfl
  | writing delivery keepAlive =>
    have sameChannel : (connection.withKey second).channel = connection.channel := rfl
    simp only [step, samePhase, phase, write, sameChannel, Step.withKey, send_withKey]
    rfl
  | closed =>
    simp only [step, samePhase, phase]
    rfl

/-- A run under another key is the same run, with that key in the calls that it makes. -/
theorem run_withKey (firstSendable : IsSendable first) (secondSendable : IsSendable second)
    (service : Service) (connection : Connection) :
    (connection.withKey second).run (service.withKey second) =
      (connection.run (service.withKey first)).withKey second := by
  have stepped := step_withKey firstSendable secondSendable service
  induction connection using run_induction (service.withKey first) with
  | closed connection closed =>
    have otherClosed : (connection.withKey second).phase = .closed := closed
    rw [run_of_closed closed, run_of_closed otherClosed]
    rfl
  | fault connection message isOpen fault =>
    have otherOpen : (connection.withKey second).phase ≠ .closed := isOpen
    have otherFault :
        ((connection.withKey second).step (service.withKey second)).fault? = some message := by
      rw [stepped]
      exact fault
    rw [run_of_fault isOpen fault, run_of_fault otherOpen otherFault, stepped]
    rfl
  | step connection isOpen noFault ih =>
    have otherOpen : (connection.withKey second).phase ≠ .closed := isOpen
    have otherNone :
        ((connection.withKey second).step (service.withKey second)).fault? = none := by
      rw [stepped]
      exact noFault
    have next : ((connection.withKey second).step (service.withKey second)).next =
        (connection.step (service.withKey first)).next.withKey second := by
      rw [stepped]
      rfl
    rw [run_of_step isOpen noFault, run_of_step otherOpen otherNone, next, ih, stepped]
    simp [Run.withKey, Step.withKey]

/-- The client learns nothing of the key: under any two keys that can be sent it is written
the same bytes in the same writes, the provider is asked the same but for the key, and the
description of the provider is the same. -/
theorem run_of_keys (service : Service) (channel : Channel) (isReachable : Bool)
    (replies : List Relay.Reply) (firstSendable : IsSendable first)
    (secondSendable : IsSendable second) :
    let remote : Relay.Remote := { isReachable, replies, seen := [] }
    let firstRun := (opened channel remote).run (service.withKey first)
    let secondRun := (opened channel remote).run (service.withKey second)
    secondRun.events.filter Event.isOfClient = firstRun.events.filter Event.isOfClient ∧
      secondRun.fault? = firstRun.fault? ∧
      calls secondRun.events = (calls firstRun.events).map (·.withKey second) ∧
      secondRun.final = firstRun.final.withKey second ∧
      (service.provider.withKey second).describe = (service.provider.withKey first).describe := by
  intro remote firstRun secondRun
  have same : secondRun = firstRun.withKey second :=
    run_withKey firstSendable secondSendable service (opened channel remote)
  rw [same]
  exact ⟨filter_isOfClient_withKey _ _, rfl, calls_withKey _ _, rfl,
    service.provider.describe_withKey second first⟩

/-- A client that asks twice, with a key of its own, and reads slowly. -/
def curiousChannel : Channel where
  arrivals := [.bytes (Utf8.encode
    "GET /a HTTP/1.1\r\nX-Functions-Key: x\r\n\r\nGET /b HTTP/1.1\r\n\r\n")]
  acceptances := [.upTo 1, .upTo 7]

def loopbackService : Service := { provider := Relay.loopback, allowed := [.get] }

theorem run_of_keys_of_curiousChannel :
    let remote : Relay.Remote := { isReachable := true, replies := [.late], seen := [] }
    let run (key : String) := (opened curiousChannel remote).run (loopbackService.withKey key)
    IsSendable "alpha" ∧ IsSendable "om\xe9ga" ∧
      (run "om\xe9ga").events.filter Event.isOfClient =
        (run "alpha").events.filter Event.isOfClient ∧
      calls (run "om\xe9ga").events = (calls (run "alpha").events).map (·.withKey "om\xe9ga") := by
  intro remote run
  have firstSendable : IsSendable "alpha" := by decide
  have secondSendable : IsSendable "om\xe9ga" := by decide
  obtain ⟨sameForClient, _, sameCalls, _⟩ := run_of_keys loopbackService curiousChannel true [.late]
    firstSendable secondSendable
  exact ⟨firstSendable, secondSendable, sameForClient, sameCalls⟩

end Connection
end IdentityRelay.Server
