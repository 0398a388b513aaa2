import IdentityRelay.Proofs.Http.Parse
import IdentityRelay.Proofs.Server.Delivery
import IdentityRelay.Server.Connection

/-! The messages that a run takes up. They are read off the states that the run
goes through, one step at a time. -/
namespace IdentityRelay.Server
open IdentityRelay.Http

inductive Incoming where
  | request (request : Request)
  /-- Bytes that no further bytes make a request. -/
  | malformed (error : ParseError)
  deriving DecidableEq, Repr

namespace Connection
variable {service : Service} {connection : Connection}

/-- What a connection that is about to read finds whole at the front of its buffer. -/
def incoming? (connection : Connection) : Option Incoming :=
  match connection.phase with
  | .reading =>
    match Request.parse connection.buffer with
    | .ok (request, _) => some (.request request)
    | .error .incomplete => none
    | .error error => some (.malformed error)
  | _ => none

/-- The states in which a run takes a step, in order. -/
def trace (service : Service) (connection : Connection) : List Connection :=
  if _ : connection.phase = .closed then []
  else
    match (connection.step service).fault? with
    | some _ => [connection]
    | none => connection :: trace service (connection.step service).next
termination_by connection.remaining
decreasing_by exact remaining_step_lt service ‹_›

def intake (service : Service) (connection : Connection) : List Incoming :=
  (connection.trace service).filterMap incoming?

theorem read_request (service : Service) (reading : connection.phase = .reading)
    {request : Request} {taken : Nat}
    (parsed : Request.parse connection.buffer = .ok (request, taken)) :
    connection.incoming? = some (.request request) ∧
      connection.step service = quietly { connection with
        phase := .processing request, buffer := connection.buffer.drop taken } := by
  simp only [incoming?, step, reading, read, parsed]
  exact ⟨trivial, trivial⟩

theorem read_malformed (service : Service) (reading : connection.phase = .reading)
    {error : ParseError} (final : error ≠ .incomplete)
    (parsed : Request.parse connection.buffer = .error error) :
    connection.incoming? = some (.malformed error) ∧
      connection.step service = quietly { connection with
        phase := .writing (.ofResponse (service.rejection error)) false } := by
  simp only [incoming?, step, reading, read, parsed]
  cases error <;> trivial

theorem read_incomplete (service : Service) (reading : connection.phase = .reading)
    (parsed : Request.parse connection.buffer = .error .incomplete) :
    connection.incoming? = none ∧ connection.step service = connection.receive := by
  simp only [incoming?, step, reading, read, parsed]
  exact ⟨trivial, trivial⟩

theorem incoming?_of_not_reading (busy : connection.phase ≠ .reading) :
    connection.incoming? = none := by
  unfold incoming?
  split
  · contradiction
  · rfl

/-- What a step can do, and which message it takes up. -/
inductive Moves (service : Service) (connection : Connection) : Option Incoming → Step → Prop where
  | take {request : Request} {taken : Nat} (reading : connection.phase = .reading)
      (parsed : Request.parse connection.buffer = .ok (request, taken)) :
      Moves service connection (some (.request request)) (quietly { connection with
        phase := .processing request, buffer := connection.buffer.drop taken })
  | refuse {error : ParseError} (reading : connection.phase = .reading)
      (parsed : Request.parse connection.buffer = .error error) (final : error ≠ .incomplete) :
      Moves service connection (some (.malformed error)) (quietly { connection with
        phase := .writing (.ofResponse (service.rejection error)) false })
  | wait (reading : connection.phase = .reading)
      (parsed : Request.parse connection.buffer = .error .incomplete) :
      Moves service connection none connection.receive
  | answer {request : Request} (processing : connection.phase = .processing request) :
      Moves service connection none (connection.process service request)
  | write {delivery : Delivery} {keepAlive : Bool}
      (writing : connection.phase = .writing delivery keepAlive) :
      Moves service connection none (connection.write delivery keepAlive)
  | rest (closed : connection.phase = .closed) : Moves service connection none (quietly connection)

theorem moves_step (service : Service) (connection : Connection) :
    Moves service connection connection.incoming? (connection.step service) := by
  cases phase : connection.phase with
  | reading =>
    cases parsed : Request.parse connection.buffer with
    | ok parts =>
      obtain ⟨found, stepped⟩ := read_request service phase parsed
      rw [found, stepped]
      exact .take phase parsed
    | error error =>
      by_cases incomplete : error = .incomplete
      · subst incomplete
        obtain ⟨found, stepped⟩ := read_incomplete service phase parsed
        rw [found, stepped]
        exact .wait phase parsed
      · obtain ⟨found, stepped⟩ := read_malformed service phase incomplete parsed
        rw [found, stepped]
        exact .refuse phase parsed incomplete
  | processing request =>
    rw [incoming?_of_not_reading (by simp [phase])]
    simp only [step, phase]
    exact .answer phase
  | writing delivery keepAlive =>
    rw [incoming?_of_not_reading (by simp [phase])]
    simp only [step, phase]
    exact .write phase
  | closed =>
    rw [incoming?_of_not_reading (by simp [phase])]
    simp only [step, phase]
    exact .rest phase

theorem trace_of_closed (closed : connection.phase = .closed) : connection.trace service = [] := by
  rw [trace, dif_pos closed]

theorem trace_of_fault (isOpen : connection.phase ≠ .closed) {message : String}
    (fault : (connection.step service).fault? = some message) :
    connection.trace service = [connection] := by
  rw [trace, dif_neg isOpen]
  simp only [fault]

theorem trace_of_step (isOpen : connection.phase ≠ .closed)
    (noFault : (connection.step service).fault? = none) :
    connection.trace service = connection :: (connection.step service).next.trace service := by
  rw [trace, dif_neg isOpen]
  simp only [noFault]

theorem run_of_closed (closed : connection.phase = .closed) :
    connection.run service = { events := [], fault? := none, final := connection } := by
  rw [run, dif_pos closed]

theorem intake_of_closed (closed : connection.phase = .closed) :
    connection.intake service = [] := by
  rw [intake, trace_of_closed closed]
  rfl

theorem run_of_fault (isOpen : connection.phase ≠ .closed) {message : String}
    (fault : (connection.step service).fault? = some message) :
    connection.run service =
      { events := (connection.step service).events
        fault? := some message
        final := (connection.step service).next } := by
  rw [run, dif_neg isOpen]
  simp only [fault]

theorem intake_of_fault (isOpen : connection.phase ≠ .closed) {message : String}
    (fault : (connection.step service).fault? = some message) :
    connection.intake service = connection.incoming?.toList := by
  rw [intake, trace_of_fault isOpen fault]
  cases found : connection.incoming? <;> simp [found]

theorem run_of_step (isOpen : connection.phase ≠ .closed)
    (noFault : (connection.step service).fault? = none) :
    connection.run service =
      { (connection.step service).next.run service with
        events := (connection.step service).events ++
          ((connection.step service).next.run service).events } := by
  rw [run, dif_neg isOpen]
  simp only [noFault]

theorem intake_of_step (isOpen : connection.phase ≠ .closed)
    (noFault : (connection.step service).fault? = none) :
    connection.intake service =
      connection.incoming?.toList ++ (connection.step service).next.intake service := by
  rw [intake, trace_of_step isOpen noFault]
  cases found : connection.incoming? <;> simp [found, intake]

/-- What holds of closed connections and of those whose step is at fault, and before a
step whenever it holds behind it, holds of every connection. -/
@[elab_as_elim]
theorem run_induction (service : Service) {motive : Connection → Prop}
    (closed : ∀ connection, connection.phase = .closed → motive connection)
    (fault : ∀ connection message, connection.phase ≠ .closed →
      (connection.step service).fault? = some message → motive connection)
    (step : ∀ connection, connection.phase ≠ .closed → (connection.step service).fault? = none →
      motive (connection.step service).next → motive connection)
    (connection : Connection) : motive connection := by
  induction left : connection.remaining using Nat.strongRecOn generalizing connection with
  | ind bound ih =>
    subst left
    by_cases isClosed : connection.phase = .closed
    · exact closed connection isClosed
    · cases found : (connection.step service).fault? with
      | some message => exact fault connection message isClosed found
      | none =>
        have nearer := remaining_step_lt service isClosed
        exact step connection isClosed found (ih _ nearer _ rfl)

theorem mem_intake {incoming : Incoming} (found : connection.incoming? = some incoming) :
    incoming ∈ connection.intake service := by
  have isOpen : connection.phase ≠ .closed := by
    intro closed
    rw [incoming?_of_not_reading (by simp [closed])] at found
    cases found
  cases fault : (connection.step service).fault? with
  | some message => simp [intake_of_fault isOpen fault, found]
  | none => simp [intake_of_step isOpen fault, found]

theorem load_step_le (service : Service) (connection : Connection) :
    (connection.step service).next.load ≤ connection.load := by
  have moved := moves_step service connection
  generalize connection.step service = step, connection.incoming? = incoming? at moved ⊢
  cases moved with
  | take reading parsed => simp [quietly, load]
  | refuse reading parsed final => exact Nat.le_refl _
  | wait reading parsed =>
    unfold receive
    split <;> rename_i arrivals <;> simp [quietly, load, arrivals, Arrival.weight]
    omega
  | answer processing => exact Nat.le_refl _
  | write writing => simp [write, load, Delivery.arrivals_send]
  | rest closed => exact Nat.le_refl _

private theorem incoming?_ne_headersTooLarge (service : Service) (within : connection.load ≤ headLimit) :
    connection.incoming? ≠ some (.malformed .headersTooLarge) := by
  intro found
  have moved := moves_step service connection
  rw [found] at moved
  generalize connection.step service = step at moved
  cases moved with
  | refuse reading parsed final =>
    have long := Request.lt_length_of_parse parsed
    unfold load at within
    omega

/-- Nothing is refused for its length where all bytes together are within the limit. -/
theorem headersTooLarge_not_mem_intake (within : connection.load ≤ headLimit) :
    .malformed .headersTooLarge ∉ connection.intake service := by
  induction connection using run_induction service with
  | closed connection closed => simp [intake_of_closed closed]
  | fault connection message isOpen fault =>
    simpa [intake_of_fault isOpen fault] using incoming?_ne_headersTooLarge service within
  | step connection isOpen noFault ih =>
    have later := ih (Nat.le_trans (load_step_le service connection) within)
    rw [intake_of_step isOpen noFault, List.mem_append, not_or]
    exact ⟨by simpa using incoming?_ne_headersTooLarge service within, later⟩

end Connection

end IdentityRelay.Server
