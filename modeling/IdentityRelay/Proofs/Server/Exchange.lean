import IdentityRelay.Proofs.Server.Delivery
import IdentityRelay.Proofs.Server.Intake

/-! Message and answer, one after the other. A run calls the provider, writes and
flushes for each message that it takes up, in the order of the messages, and does
nothing else. Only the last response may break off, where the channel fails. -/
namespace IdentityRelay.Server
open IdentityRelay.Http

/-- A message of a client and what became of it. -/
structure Exchange where
  incoming : Incoming
  response : Response
  call? : Option Relay.Outbound
  deriving DecidableEq, Repr

namespace Exchange

def wire (exchange : Exchange) : Bytes :=
  match exchange.incoming with
  | .request request => (Delivery.answering request.method exchange.response).wire
  | .malformed _ => exchange.response.wire

def ofIncoming (service : Service) (remote : Relay.Remote) (incoming : Incoming) :
    Exchange × Relay.Remote :=
  match incoming with
  | .request request =>
    let (response, call?, remote) := Connection.answer service remote request
    ({ incoming, response := if request.keepAlive then response else response.closing, call? },
      remote)
  | .malformed error => ({ incoming, response := service.rejection error, call? := none }, remote)

/-- What messages lead to, each with the provider as those before it left it. -/
def all (service : Service) (remote : Relay.Remote) : List Incoming → List Exchange
  | [] => []
  | incoming :: rest =>
    let (exchange, remote) := ofIncoming service remote incoming
    exchange :: all service remote rest

theorem incoming_ofIncoming (service : Service) (remote : Relay.Remote) (incoming : Incoming) :
    (ofIncoming service remote incoming).1.incoming = incoming := by
  cases incoming <;> rfl

theorem map_incoming_all (service : Service) (remote : Relay.Remote) (intake : List Incoming) :
    (all service remote intake).map Exchange.incoming = intake := by
  induction intake generalizing remote with
  | nil => rfl
  | cons incoming rest ih => rw [all, List.map_cons, incoming_ofIncoming, ih]

end Exchange

/-- The events are the exchanges, one after the other: the call if there is one, then
writes that make up the response, then a flush. -/
inductive Tells : List Exchange → List Event → Prop where
  | nil : Tells [] []
  | cons {exchange : Exchange} {writes : List Bytes} {exchanges : List Exchange}
      {events : List Event} (whole : writes.flatten = exchange.wire)
      (rest : Tells exchanges events) :
      Tells (exchange :: exchanges)
        (exchange.call?.toList.map .called ++ (writes.map .wrote ++ .flushed :: events))

/-- The events are the exchanges, one after the other, unless the channel fails: then the
last of them breaks off, with what was written of its response and the failure. -/
inductive Unfolds : List Exchange → List Event → Prop where
  | nil : Unfolds [] []
  | cons {exchange : Exchange} {writes : List Bytes} {exchanges : List Exchange}
      {events : List Event} (some : ∀ write ∈ writes, write ≠ [])
      (whole : writes.flatten = exchange.wire) (rest : Unfolds exchanges events) :
      Unfolds (exchange :: exchanges)
        (exchange.call?.toList.map .called ++ (writes.map .wrote ++ .flushed :: events))
  | broken {exchange : Exchange} {writes : List Bytes} {failure : Event}
      (some : ∀ write ∈ writes, write ≠ []) (part : writes.flatten <+: exchange.wire)
      (failed : failure.isFailure = true) :
      Unfolds [exchange] (exchange.call?.toList.map .called ++ (writes.map .wrote ++ [failure]))

theorem tells_of_unfolds {exchanges : List Exchange} {events : List Event}
    (unfolds : Unfolds exchanges events) (calm : ∀ event ∈ events, event.isFailure = false) :
    Tells exchanges events := by
  induction unfolds with
  | nil => exact .nil
  | cons some whole rest ih => exact .cons whole (ih fun event member => calm event (by simp [member]))
  | @broken exchange writes failure some part failed =>
    have := calm failure (by simp)
    rw [failed] at this
    cases this

namespace Connection
variable {service : Service} {connection : Connection}

/-- What a run tells that has these bytes to write before it goes on to the exchanges. -/
def Delivers (pending : Bytes) (exchanges : List Exchange) (events : List Event) : Prop :=
  ∃ writes : List Bytes, (∀ write ∈ writes, write ≠ []) ∧
    ((∃ later, writes.flatten = pending ∧ events = writes.map .wrote ++ .flushed :: later ∧
        Unfolds exchanges later) ∨
      ∃ failure : Event, failure.isFailure = true ∧ writes.flatten <+: pending ∧
        events = writes.map .wrote ++ [failure] ∧ exchanges = [])

theorem unfolds_of_delivers {exchange : Exchange} {exchanges : List Exchange} {events : List Event}
    (delivers : Delivers exchange.wire exchanges events) :
    Unfolds (exchange :: exchanges) (exchange.call?.toList.map .called ++ events) := by
  obtain ⟨writes, some, ⟨later, whole, rfl, rest⟩ | ⟨failure, failed, part, rfl, rfl⟩⟩ := delivers
  · exact .cons some whole rest
  · exact .broken some part failed

/-- What a run from this state tells, once its intake and its events are known. -/
def Foresees (service : Service) (connection : Connection) (intake : List Incoming)
    (events : List Event) : Prop :=
  match connection.phase with
  | .reading | .closed => Unfolds (Exchange.all service connection.remote intake) events
  | .processing request =>
    Unfolds (Exchange.all service connection.remote (.request request :: intake)) events
  | .writing delivery _ =>
    Delivers delivery.pending (Exchange.all service connection.remote intake) events

def Expects (service : Service) (connection : Connection) (intake : List Incoming)
    (events : List Event) : Prop :=
  match connection.phase with
  | .reading | .closed => Tells (Exchange.all service connection.remote intake) events
  | .processing request =>
    Tells (Exchange.all service connection.remote (.request request :: intake)) events
  | .writing delivery _ =>
    ∃ (writes : List Bytes) (later : List Event), writes.flatten = delivery.pending ∧
      events = writes.map .wrote ++ .flushed :: later ∧
      Tells (Exchange.all service connection.remote intake) later

private theorem pending_answering (method : Method) (response : Response) :
    (Delivery.answering method response).pending = (Delivery.answering method response).wire := by
  unfold Delivery.answering
  split <;> rfl

theorem willing_step (willing : connection.channel.Willing) (service : Service) :
    (connection.step service).next.channel.Willing := by
  have moved := moves_step service connection
  generalize connection.step service = step, connection.incoming? = incoming? at moved ⊢
  cases moved with
  | wait reading parsed =>
    unfold receive
    split <;> exact ⟨willing.accepts, willing.flushes⟩
  | @write delivery _ writing => exact (Delivery.send_of_willing delivery willing).2.1
  | _ => exact willing

theorem idle_write (connection : Connection) (delivery : Delivery) (keepAlive : Bool) :
    (connection.write delivery keepAlive).next.phase = .reading ∨
      (connection.write delivery keepAlive).next.phase = .closed := by
  simp only [write]
  split <;> simp

theorem receive_quiet (reading : connection.phase = .reading) :
    connection.receive.events = [] ∧ connection.receive.next.remote = connection.remote ∧
      (connection.receive.next.phase = .reading ∨ connection.receive.next.phase = .closed) := by
  unfold receive
  split <;> simp [quietly, reading]

private theorem foresees_of_idle {intake : List Incoming} {events : List Event}
    (idle : connection.phase = .reading ∨ connection.phase = .closed) :
    connection.Foresees service intake events ↔
      Unfolds (Exchange.all service connection.remote intake) events := by
  rcases idle with reading | closed
  · simp only [Foresees, reading]
  · simp only [Foresees, closed]

/-- A step tells a part of what is foreseen, and leaves the rest to the state behind it. -/
theorem foresees_of_step (isOpen : connection.phase ≠ .closed)
    (noFault : (connection.step service).fault? = none) {intake : List Incoming}
    {later : List Event} (foreseen : (connection.step service).next.Foresees service intake later) :
    connection.Foresees service (connection.incoming?.toList ++ intake)
      ((connection.step service).events ++ later) := by
  have moved := moves_step service connection
  generalize connection.step service = step, connection.incoming? = incoming?
    at moved foreseen noFault ⊢
  cases moved with
  | take reading parsed =>
    rw [foresees_of_idle (.inl reading)]
    exact foreseen
  | refuse reading parsed final =>
    -- The bytes that the delivery has to write are the response of the new exchange.
    rw [foresees_of_idle (.inl reading)]
    exact unfolds_of_delivers foreseen
  | wait reading parsed =>
    obtain ⟨silent, remote, idle⟩ := receive_quiet reading
    rw [foresees_of_idle idle, remote] at foreseen
    rw [foresees_of_idle (.inl reading), silent]
    exact foreseen
  | answer processing =>
    have delivers : Delivers _ _ later := foreseen
    rw [pending_answering] at delivers
    simp only [Foresees, processing]
    exact unfolds_of_delivers delivers
  | @write delivery keepAlive writing =>
    rw [foresees_of_idle (idle_write connection delivery keepAlive)] at foreseen
    simp only [write] at noFault
    simp only [Foresees, writing]
    obtain ⟨writes, some, ⟨_, whole, events⟩ | ⟨_, _, fault, _⟩⟩ :=
      Delivery.send_cases delivery connection.channel
    · refine ⟨writes, some, .inl ⟨later, whole, ?_, foreseen⟩⟩
      simp only [write, events, List.append_assoc]
      rfl
    · rw [noFault] at fault
      cases fault
  | rest closed => contradiction

/-- Only a read or a write can be at fault, and a write leaves nothing to be told. -/
private theorem foresees_of_fault {message : String}
    (fault : (connection.step service).fault? = some message) :
    connection.Foresees service connection.incoming?.toList (connection.step service).events := by
  have moved := moves_step service connection
  generalize connection.step service = step, connection.incoming? = incoming? at moved fault ⊢
  cases moved with
  | wait reading parsed =>
    rw [foresees_of_idle (.inl reading), (receive_quiet reading).1]
    exact .nil
  | @write delivery _ writing =>
    simp only [write] at fault
    simp only [Foresees, writing]
    obtain ⟨writes, some, ⟨noFault, _⟩ | ⟨failure, failed, _, part, events⟩⟩ :=
      Delivery.send_cases delivery connection.channel
    · rw [noFault] at fault
      cases fault
    · exact ⟨writes, some, .inr ⟨failure, failed, part, events, rfl⟩⟩
  | _ => cases fault

/-- A run tells one exchange for each message that it takes up, in order, on any channel. -/
theorem foresees_run (service : Service) (connection : Connection) :
    connection.Foresees service (connection.intake service) (connection.run service).events := by
  induction connection using run_induction service with
  | closed connection closed =>
    rw [run_of_closed closed, intake_of_closed closed, foresees_of_idle (.inr closed)]
    exact .nil
  | fault connection message isOpen fault =>
    rw [run_of_fault isOpen fault, intake_of_fault isOpen fault]
    exact foresees_of_fault fault
  | step connection isOpen noFault ih =>
    rw [run_of_step isOpen noFault, intake_of_step isOpen noFault]
    exact foresees_of_step isOpen noFault ih

private theorem calm_step (willing : connection.channel.Willing) {event : Event}
    (member : event ∈ (connection.step service).events) : event.isFailure = false := by
  have moved := moves_step service connection
  generalize connection.step service = step, connection.incoming? = incoming? at moved member
  cases moved with
  | wait reading parsed => simp [(receive_quiet reading).1] at member
  | answer processing =>
    obtain ⟨outbound, _, rfl⟩ := List.mem_map.mp member
    rfl
  | @write delivery _ writing =>
    obtain ⟨writes, some, ⟨_, _, events⟩ | ⟨_, _, fault, _⟩⟩ :=
      Delivery.send_cases delivery connection.channel
    · simp only [write, events, List.mem_append, List.mem_map, List.mem_singleton] at member
      rcases member with ⟨bytes, isWrite, rfl⟩ | rfl
      · obtain ⟨b, rest, rfl⟩ := List.exists_cons_of_ne_nil (some bytes isWrite)
        rfl
      · rfl
    · rw [(Delivery.send_of_willing delivery willing).1] at fault
      cases fault
  | _ => cases member

theorem calm_run (service : Service) (willing : connection.channel.Willing) :
    ∀ event ∈ (connection.run service).events, event.isFailure = false := by
  induction connection using run_induction service with
  | closed connection closed => simp [run_of_closed closed]
  | fault connection message isOpen fault =>
    rw [run_of_fault isOpen fault]
    exact fun event member => calm_step willing member
  | step connection isOpen noFault ih =>
    intro event member
    rw [run_of_step isOpen noFault] at member
    rcases List.mem_append.mp member with own | later
    · exact calm_step willing own
    · exact ih (willing_step willing service) event later

/-- On a willing channel no exchange breaks off. -/
theorem tells_run (service : Service) (willing : connection.channel.Willing) :
    connection.Expects service (connection.intake service) (connection.run service).events := by
  have calm := calm_run service willing
  have foreseen := foresees_run service connection
  unfold Expects
  unfold Foresees at foreseen
  cases phase : connection.phase with
  | writing delivery keepAlive =>
    simp only [phase] at foreseen ⊢
    obtain ⟨writes, some, ⟨later, whole, events, rest⟩ | ⟨failure, failed, _, events, _⟩⟩ := foreseen
    · refine ⟨writes, later, whole, events, tells_of_unfolds rest fun event member => ?_⟩
      exact calm event (by simp [events, member])
    · have := calm failure (by simp [events])
      rw [failed] at this
      cases this
  | _ =>
    simp only [phase] at foreseen ⊢
    exact tells_of_unfolds foreseen calm

end Connection

end IdentityRelay.Server
