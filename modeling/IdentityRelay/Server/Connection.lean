import IdentityRelay.Http.Parse
import IdentityRelay.Relay.Remote
import IdentityRelay.Server.Delivery

/-! One connection of a client: read a request, relay it, write the response, and
begin again unless the request or a fault ends the connection. -/
namespace IdentityRelay.Server
open IdentityRelay.Http

/-- What all connections share. -/
structure Service where
  provider : Provider
  allowed : List Method
  deriving DecidableEq, Repr

inductive Phase where
  | reading
  | processing (request : Request)
  | writing (delivery : Delivery) (keepAlive : Bool)
  | closed
  deriving DecidableEq, Repr

structure Connection where
  phase : Phase
  /-- Bytes that were read and belong to no request yet. -/
  buffer : Bytes
  channel : Channel
  remote : Relay.Remote

/-- What one step of a connection did. -/
structure Step where
  events : List Event
  fault? : Option String
  next : Connection

/-- The response to a message that cannot be read. -/
def Service.rejection (service : Service) (error : ParseError) : Response :=
  let response : Response := match error with
    | .headersTooLarge => .failure .headerFieldsTooLarge "Request header block is too large."
    | .invalidMethod => .methodNotAllowed service.allowed
    | _ => .badRequest "Malformed HTTP request."
  response.closing

namespace Connection

/-- A connection on which nothing has happened yet. -/
def opened (channel : Channel) (remote : Relay.Remote) : Connection :=
  { phase := .reading, buffer := [], channel, remote }

/-- A step that nobody outside the connection notices. -/
def quietly (next : Connection) : Step := { events := [], fault? := none, next }

/-- Waits for the rest of a request. The end of the input ends the connection,
and what is in the buffer is dropped. -/
def receive (connection : Connection) : Step :=
  let left (arrivals : List Arrival) : Channel := { connection.channel with arrivals }
  match connection.channel.arrivals with
  | [] => quietly { connection with phase := .closed }
  | .fault message :: rest =>
    { events := []
      fault? := some message
      next := { connection with phase := .closed, channel := left rest } }
  | .bytes [] :: rest => quietly { connection with phase := .closed, channel := left rest }
  | .bytes bytes :: rest =>
    quietly { connection with buffer := connection.buffer ++ bytes, channel := left rest }

def read (service : Service) (connection : Connection) : Step :=
  match Request.parse connection.buffer with
  | .ok (request, taken) =>
    quietly { connection with
      phase := .processing request, buffer := connection.buffer.drop taken }
  | .error .incomplete => connection.receive
  | .error error =>
    quietly { connection with
      phase := .writing (.ofResponse (service.rejection error)) false }

/-- The response to a request, and the call that it took. -/
def answer (service : Service) (remote : Relay.Remote) (request : Request) :
    Response × Option Relay.Outbound × Relay.Remote :=
  if service.allowed.contains request.method then
    let outcome := Relay.relay service.provider remote request
    (outcome.response, outcome.call?, outcome.remote)
  else (.methodNotAllowed service.allowed, none, remote)

/-- Answers a request. A connection that will not be kept is announced to be closed. -/
def process (service : Service) (connection : Connection) (request : Request) : Step :=
  let (response, call?, remote) := answer service connection.remote request
  let response := if request.keepAlive then response else response.closing
  { events := call?.toList.map .called
    fault? := none
    next := { connection with
      phase := .writing (.answering request.method response) request.keepAlive, remote } }

def write (connection : Connection) (delivery : Delivery) (keepAlive : Bool) : Step :=
  let sending := delivery.send connection.channel
  let phase := if keepAlive && sending.fault?.isNone then Phase.reading else .closed
  { events := sending.events
    fault? := sending.fault?
    next := { connection with phase, channel := sending.channel } }

/-- One step; a closed connection stays as it is. -/
def step (service : Service) (connection : Connection) : Step :=
  match connection.phase with
  | .reading => connection.read service
  | .processing request => connection.process service request
  | .writing delivery keepAlive => connection.write delivery keepAlive
  | .closed => quietly connection

/-- How many bytes and reads are still to be dealt with. -/
def load (connection : Connection) : Nat :=
  connection.buffer.length +
    connection.channel.arrivals.foldr (fun arrival load => arrival.weight + load) 0

/-- A bound on the steps that are left, which every step lowers. -/
def remaining (connection : Connection) : Nat :=
  5 * connection.load + match connection.phase with
    | .closed => 0
    | .writing _ false => 1
    | .reading => 2
    | .writing _ true => 3
    | .processing _ => 4

private theorem remaining_receive_lt {connection : Connection}
    (reading : connection.phase = .reading) :
    connection.receive.next.remaining < connection.remaining := by
  unfold receive
  split <;> rename_i arrivals <;>
    simp [quietly, remaining, load, reading, arrivals, Arrival.weight] <;> omega

/-- Every step of an open connection brings its end nearer. -/
theorem remaining_step_lt (service : Service) {connection : Connection}
    (isOpen : connection.phase ≠ .closed) :
    (connection.step service).next.remaining < connection.remaining := by
  unfold step
  split
  · rename_i reading
    unfold read
    split
    · rename_i parsed
      have := Request.pos_of_parse parsed
      simp only [quietly, remaining, load, reading, List.length_drop]
      omega
    · exact remaining_receive_lt reading
    · simp [quietly, remaining, load, reading]
  · rename_i processing
    simp only [process, remaining, load, processing]
    split <;> simp_all
  · rename_i delivery keepAlive writing
    cases keepAlive <;> simp [write, remaining, load, writing, Delivery.send]
    all_goals repeat' split
    all_goals simp_all
  · contradiction

structure Run where
  events : List Event
  fault? : Option String
  final : Connection

/-- Runs a connection until it is closed. -/
def run (service : Service) (connection : Connection) : Run :=
  if _ : connection.phase = .closed then
    { events := [], fault? := none, final := connection }
  else
    let step := connection.step service
    match step.fault? with
    | some message => { events := step.events, fault? := some message, final := step.next }
    | none =>
      let run := run service step.next
      { run with events := step.events ++ run.events }
termination_by connection.remaining
decreasing_by exact remaining_step_lt service ‹_›

end Connection

end IdentityRelay.Server
