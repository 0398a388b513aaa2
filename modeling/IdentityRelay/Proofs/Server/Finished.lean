import IdentityRelay.Proofs.Server.Exchange

/-! How runs end. The loop of a connection takes the phase out before it works on it and puts the
next one in behind that; what breaks off in between leaves a closed connection. So every run
ends closed, and a connection whose run has ended does nothing any more. -/
namespace IdentityRelay.Server
open IdentityRelay.Http

namespace Connection

/-- What the work on one phase came to. -/
structure Turn where
  events : List Event
  /-- The phase to go on with, or the fault that ends the run. -/
  result : Except String Phase
  left : Connection

variable {service : Service} {connection : Connection}

def vacated (connection : Connection) : Connection := { connection with phase := .closed }

/-- Reads until a message is whole or it is clear that none will be, with what is then left in the
buffer and of the reads. -/
def readOn (service : Service) (buffer : Bytes) (arrivals : List Arrival) :
    Except String Phase × Bytes × List Arrival :=
  match Request.parse buffer with
  | .ok (request, taken) => (.ok (.processing request), buffer.drop taken, arrivals)
  | .error .incomplete =>
    match arrivals with
    | [] => (.ok .closed, buffer, [])
    | .fault message :: rest => (.error message, buffer, rest)
    | .bytes [] :: rest => (.ok .closed, buffer, rest)
    | .bytes bytes :: rest => readOn service (buffer ++ bytes) rest
  | .error error =>
    (.ok (.writing (.ofResponse (service.rejection error)) false), buffer, arrivals)

def work (service : Service) (connection : Connection) (phase : Phase) : Turn :=
  match phase with
  | .reading =>
    let (result, buffer, arrivals) :=
      readOn service connection.buffer connection.channel.arrivals
    { events := []
      result
      left := { connection with buffer, channel := connection.channel.withArrivals arrivals } }
  | .processing request =>
    let (response, call?, remote) := answer service connection.remote request
    let response := if request.keepAlive then response else response.closing
    { events := call?.toList.map .called
      result := .ok (.writing (.answering request.method response) request.keepAlive)
      left := { connection with remote } }
  | .writing delivery keepAlive =>
    let sending := delivery.send connection.channel
    { events := sending.events
      result := match sending.fault? with
        | some message => .error message
        | none => .ok (if keepAlive then .reading else .closed)
      left := { connection with channel := sending.channel } }
  | .closed => { events := [], result := .ok .closed, left := connection }

def turn (service : Service) (connection : Connection) : Turn :=
  connection.vacated.work service connection.phase

/-- The loop, turn by turn. Only a turn without a fault puts a phase in. -/
inductive Loops (service : Service) : Connection → Run → Prop where
  | leaves {connection : Connection} (closed : connection.phase = .closed) :
      Loops service connection { events := [], fault? := none, final := connection.vacated }
  | breaks {connection : Connection} {message : String} (isOpen : connection.phase ≠ .closed)
      (failed : (connection.turn service).result = .error message) :
      Loops service connection {
        events := (connection.turn service).events
        fault? := some message
        final := (connection.turn service).left }
  | turns {connection : Connection} {phase : Phase} {run : Run}
      (isOpen : connection.phase ≠ .closed)
      (sound : (connection.turn service).result = .ok phase)
      (rest : Loops service { (connection.turn service).left with phase } run) :
      Loops service connection
        { run with events := (connection.turn service).events ++ run.events }

end Connection

def Step.turn (step : Step) : Connection.Turn where
  events := step.events
  result := match step.fault? with
    | some message => .error message
    | none => .ok step.next.phase
  left := step.next.vacated

namespace Connection
variable {service : Service} {connection : Connection}

/-- This step of a connection brings bytes, and the turn that it belongs to goes on behind it. -/
structure Waits (service : Service) (connection : Connection) (step : Step) : Prop where
  reading : connection.phase = .reading
  quiet : step.events = []
  noFault : step.fault? = none
  still : step.next.phase = .reading
  same : step.next.turn service = connection.turn service

/-- What waits for bytes and gets some is still in the same turn. -/
theorem waits_receive (service : Service) (reading : connection.phase = .reading)
    (parsed : Request.parse connection.buffer = .error .incomplete) {bytes : Bytes}
    {rest : List Arrival} (some : bytes ≠ [])
    (arrivals : connection.channel.arrivals = .bytes bytes :: rest) :
    Waits service connection connection.receive := by
  obtain ⟨b, more, rfl⟩ := List.exists_cons_of_ne_nil some
  have received : connection.receive = quietly { connection with
      buffer := connection.buffer ++ b :: more,
      channel := connection.channel.withArrivals rest } := by
    unfold receive
    rw [arrivals]
    rfl
  have further : readOn service connection.buffer (.bytes (b :: more) :: rest) =
      readOn service (connection.buffer ++ b :: more) rest := by
    rw [readOn, parsed]
    exact nofun
  rw [received]
  refine ⟨reading, rfl, rfl, reading, ?_⟩
  simp only [turn, quietly, reading, work, vacated, arrivals, Channel.withArrivals, further]

theorem turn_receive (service : Service) (reading : connection.phase = .reading)
    (parsed : Request.parse connection.buffer = .error .incomplete) :
    connection.turn service = connection.receive.turn ∨
      Waits service connection connection.receive := by
  have turned : connection.turn service =
      { events := []
        result := (readOn service connection.buffer connection.channel.arrivals).1
        left := { connection with
          phase := .closed
          buffer := (readOn service connection.buffer connection.channel.arrivals).2.1
          channel := connection.channel.withArrivals
            (readOn service connection.buffer connection.channel.arrivals).2.2 } } := by
    simp only [turn, reading, work, vacated]
  cases arrivals : connection.channel.arrivals with
  | nil =>
    have same : connection.channel.withArrivals [] = connection.channel := by
      rw [Channel.withArrivals, ← arrivals]
    left
    rw [turned, receive, arrivals, readOn, parsed]
    simp only [same]
    rfl
  | cons arrival rest =>
    cases arrival with
    | fault message =>
      left
      rw [turned, receive, arrivals, readOn, parsed]
      rfl
    | bytes bytes =>
      by_cases atEnd : bytes = []
      · subst atEnd
        left
        rw [turned, receive, arrivals, readOn, parsed]
        rfl
      · exact .inr (waits_receive service reading parsed atEnd arrivals)

/-- A step makes a turn alone, unless it is one of waiting and the turn goes on. -/
theorem turn_step (service : Service) (isOpen : connection.phase ≠ .closed) :
    connection.turn service = (connection.step service).turn ∨
      Waits service connection (connection.step service) := by
  have moved := moves_step service connection
  generalize connection.step service = step, connection.incoming? = incoming? at moved ⊢
  cases moved with
  | take reading parsed =>
    left
    simp only [turn, reading, work, vacated]
    unfold readOn
    simp only [parsed]
    rfl
  | refuse reading parsed final =>
    left
    simp only [turn, reading, work, vacated]
    unfold readOn
    simp only [parsed]
    rfl
  | wait reading parsed => exact turn_receive service reading parsed
  | answer processing =>
    left
    simp only [turn, processing, work, vacated]
    rfl
  | write writing =>
    left
    simp only [turn, writing, work, vacated, Step.turn, write]
    split <;> simp_all
  | rest closed => contradiction

/-- What a step puts in behind a fault is what was left of the phase: nothing. -/
theorem closed_of_fault {message : String}
    (fault : (connection.step service).fault? = some message) :
    (connection.step service).next.phase = .closed := by
  have moved := moves_step service connection
  generalize connection.step service = step, connection.incoming? = incoming? at moved fault ⊢
  cases moved with
  | wait reading parsed =>
    unfold receive at fault ⊢
    split at fault <;> simp_all [quietly]
  | write writing =>
    simp only [write] at fault ⊢
    simp [fault]
  | _ => cases fault

/-- Whatever breaks off, the phase had been taken out before. -/
theorem closed_turn (service : Service) (connection : Connection) :
    (connection.turn service).left.phase = .closed := by
  unfold turn work
  split <;> rfl

namespace Loops

theorem closed {run : Run} (loops : Loops service connection run) :
    run.final.phase = .closed := by
  induction loops with
  | leaves _ => rfl
  | breaks _ _ => exact closed_turn service _
  | turns _ _ _ ih => exact ih

theorem unique {run other : Run} (loops : Loops service connection run)
    (again : Loops service connection other) : run = other := by
  induction loops generalizing other with
  | leaves closed =>
    cases again with
    | leaves _ => rfl
    | breaks isOpen _ => contradiction
    | turns isOpen _ _ => contradiction
  | breaks isOpen failed =>
    cases again with
    | leaves closed => contradiction
    | breaks _ failed' =>
      rw [failed] at failed'
      cases failed'
      rfl
    | turns _ sound _ =>
      rw [failed] at sound
      cases sound
  | turns isOpen sound _ ih =>
    cases again with
    | leaves closed => contradiction
    | breaks _ failed =>
      rw [sound] at failed
      cases failed
    | turns _ sound' rest =>
      rw [sound] at sound'
      cases sound'
      rw [ih rest]

/-- A turn that goes on behind a step is the turn from before it. -/
theorem of_waits {step : Step} {run : Run} (waits : Waits service connection step)
    (loops : Loops service step.next run) : Loops service connection run := by
  have isOpen : connection.phase ≠ .closed := by simp [waits.reading]
  have same := waits.same
  cases loops with
  | leaves closed =>
    rw [waits.still] at closed
    cases closed
  | breaks _ failed =>
    rw [same] at failed ⊢
    exact .breaks isOpen failed
  | turns _ sound rest =>
    rw [same] at sound rest ⊢
    exact .turns isOpen sound rest

end Loops

/-- The loop does what the steps do. -/
theorem loops_run (service : Service) (connection : Connection) :
    Loops service connection (connection.run service) := by
  induction connection using run_induction service with
  | closed connection closed =>
    have same : connection.vacated = connection := by rw [vacated, ← closed]
    have leaves : Loops service connection _ := .leaves closed
    rwa [same, ← run_of_closed closed] at leaves
  | fault connection message isOpen fault =>
    rw [run_of_fault isOpen fault]
    rcases turn_step service isOpen with alone | waits
    · have failed : (connection.turn service).result = .error message := by
        simp only [alone, Step.turn, fault]
      have same : (connection.step service).next.vacated = (connection.step service).next := by
        rw [vacated, ← closed_of_fault fault]
      have breaks := Loops.breaks isOpen failed
      simpa only [alone, Step.turn, same] using breaks
    · rw [waits.noFault] at fault
      cases fault
  | step connection isOpen noFault ih =>
    rw [run_of_step isOpen noFault]
    rcases turn_step service isOpen with alone | waits
    · have sound : (connection.turn service).result = .ok (connection.step service).next.phase := by
        simp only [alone, Step.turn, noFault]
      have same : { (connection.turn service).left with
          phase := (connection.step service).next.phase } = (connection.step service).next := by
        rw [alone]
        rfl
      rw [← same] at ih
      have turns := Loops.turns isOpen sound ih
      rw [same, alone] at turns
      exact turns
    · rw [waits.quiet, List.nil_append]
      exact .of_waits waits ih

/-- Where a run can end, and with which fault. -/
inductive Ends (service : Service) (connection : Connection) : Option String → Prop where
  | endOfInput (reading : connection.phase = .reading)
      (parsed : Request.parse connection.buffer = .error .incomplete)
      (atEnd : connection.channel.arrivals.head? = none ∨
        connection.channel.arrivals.head? = some (.bytes [])) :
      Ends service connection none
  | readFault {message : String} (reading : connection.phase = .reading)
      (parsed : Request.parse connection.buffer = .error .incomplete)
      (failed : connection.channel.arrivals.head? = some (.fault message)) :
      Ends service connection (some message)
  | lastResponse {delivery : Delivery} (writing : connection.phase = .writing delivery false)
      (sent : (delivery.send connection.channel).fault? = none) : Ends service connection none
  | writeFault {delivery : Delivery} {keepAlive : Bool} {message : String}
      (writing : connection.phase = .writing delivery keepAlive)
      (failed : (delivery.send connection.channel).fault? = some message) :
      Ends service connection (some message)

theorem ends_of_step (isOpen : connection.phase ≠ .closed)
    (closed : (connection.step service).next.phase = .closed) :
    Ends service connection (connection.step service).fault? := by
  have moved := moves_step service connection
  generalize connection.step service = step, connection.incoming? = incoming? at moved closed ⊢
  cases moved with
  | wait reading parsed =>
    unfold receive at closed ⊢
    split
    · rename_i arrivals
      exact .endOfInput reading parsed (.inl (by rw [arrivals]; rfl))
    · rename_i arrivals
      exact .readFault reading parsed (by rw [arrivals]; rfl)
    · rename_i arrivals
      exact .endOfInput reading parsed (.inr (by rw [arrivals]; rfl))
    · rename_i bytes rest some arrivals
      simp [arrivals, quietly, reading] at closed
  | @write delivery keepAlive writing =>
    simp only [write] at closed ⊢
    cases fault : (delivery.send connection.channel).fault? with
    | some message => exact .writeFault writing fault
    | none =>
      cases keepAlive with
      | false => exact .lastResponse writing fault
      | true => simp [fault] at closed
  | rest _ => contradiction
  | _ => cases closed

/-- A run of an open connection ends with the last of the steps that it takes. -/
theorem ends_run (service : Service) (isOpen : connection.phase ≠ .closed) :
    ∃ last ∈ (connection.trace service).getLast?,
      Ends service last (connection.run service).fault? ∧
        (connection.run service).final = (last.step service).next := by
  induction connection using run_induction service with
  | closed connection closed => contradiction
  | fault connection message isOpen fault =>
    rw [trace_of_fault isOpen fault, run_of_fault isOpen fault]
    refine ⟨connection, rfl, ?_, rfl⟩
    have ends := ends_of_step isOpen (closed_of_fault fault)
    rwa [fault] at ends
  | step connection _ noFault ih =>
    rw [trace_of_step isOpen noFault, run_of_step isOpen noFault, List.getLast?_cons]
    by_cases closed : (connection.step service).next.phase = .closed
    · rw [trace_of_closed closed, run_of_closed closed]
      refine ⟨connection, rfl, ?_, rfl⟩
      have ends := ends_of_step isOpen closed
      rwa [noFault] at ends
    · obtain ⟨last, isLast, ends⟩ := ih closed
      refine ⟨last, ?_, ends⟩
      rw [Option.mem_def.mp isLast]
      rfl

/-- A finished connection is finished. The loop has one run, which leaves a closed connection
behind; where it was open, it ends as its last step does, with the input, behind a response that
is the last one, or at a fault of a read or a write. Another run does nothing, whatever is in the
buffer by then: it tells no event, meets no fault and leaves the buffer, the channel and the
provider as they are. -/
theorem run_finished (service : Service) (connection : Connection) :
    (∀ run, Loops service connection run ↔ run = connection.run service) ∧
      (connection.run service).final.phase = .closed ∧
      (connection.phase ≠ .closed → ∃ last ∈ (connection.trace service).getLast?,
        Ends service last (connection.run service).fault? ∧
          (connection.run service).final = (last.step service).next) ∧
      ∀ (later : Service) (buffer : Bytes) (channel : Channel) (remote : Relay.Remote),
        let again : Connection :=
          { (connection.run service).final with buffer, channel, remote }
        again.run later = { events := [], fault? := none, final := again } := by
  have loops := loops_run service connection
  have closed := loops.closed
  refine ⟨fun run => ⟨fun other => other.unique loops, ?_⟩, closed, ends_run service, ?_⟩
  · rintro rfl
    exact loops
  · exact fun later buffer channel remote => run_of_closed closed

end Connection

end IdentityRelay.Server
