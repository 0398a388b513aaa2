import IdentityRelay.Proofs.Server.Delivery
import IdentityRelay.Proofs.Server.Intake

/-! How the reads divide the bytes of a client makes no difference. A connection runs
like the one that has all bytes of the reads to come in its buffer already, unless
it refuses a head for its length before it has seen the end of it. -/
namespace IdentityRelay.Server
open IdentityRelay.Http

def Arrival.content : Arrival → Bytes
  | .bytes read => read
  | .fault _ => []

/-- The connection when the reads to come have all been made. -/
def Connection.gather (connection : Connection) : Connection :=
  { connection with
    buffer := connection.buffer ++ connection.channel.arrivals.flatMap Arrival.content
    channel := connection.channel.withArrivals [] }

def Step.gather (step : Step) : Step := { step with next := step.next.gather }

def Connection.Run.gather (run : Run) : Run := { run with final := run.final.gather }

namespace Connection
variable {service : Service} {connection : Connection}

/-- The reads to come bring bytes, and none of them is at fault. -/
def Fed (connection : Connection) : Prop :=
  ∀ arrival ∈ connection.channel.arrivals, ∃ read, read ≠ [] ∧ arrival = .bytes read

theorem arrivals_step (service : Service) (connection : Connection) :
    (connection.step service).next.channel.arrivals <:+ connection.channel.arrivals := by
  have moved := moves_step service connection
  generalize connection.step service = step, connection.incoming? = incoming? at moved ⊢
  cases moved with
  | wait reading parsed =>
    unfold receive
    split <;> rename_i arrivals <;> simp [quietly, arrivals]
  | write writing =>
    simp only [write, Delivery.arrivals_send, List.suffix_refl]
  | _ => exact List.suffix_refl _

theorem fed_step (fed : connection.Fed) (service : Service) :
    (connection.step service).next.Fed :=
  fun arrival member => fed arrival ((arrivals_step service connection).subset member)

private theorem parse_gather {outcome : Except ParseError (Request × Nat)}
    (parsed : Request.parse connection.buffer = outcome) (whole : outcome ≠ .error .incomplete)
    (notTooLarge : outcome ≠ .error .headersTooLarge) :
    Request.parse connection.gather.buffer = outcome := by
  rw [gather, Request.parse_append (parsed ▸ whole) (parsed ▸ notTooLarge), parsed]

/-- A read only moves bytes to where they are gathered. -/
private theorem receive_gather (fed : connection.Fed) :
    (connection.gather = connection ∧ connection.receive.gather = connection.receive) ∨
      ∃ next, connection.receive = quietly next ∧ next.gather = connection.gather := by
  cases arrivals : connection.channel.arrivals with
  | nil =>
    have same : connection.channel.withArrivals [] = connection.channel := by
      rw [Channel.withArrivals, ← arrivals]
    left
    constructor
    · simp only [gather, arrivals, same, List.flatMap_nil, List.append_nil]
    · simp only [receive, arrivals, quietly, Step.gather, gather, same, List.flatMap_nil,
        List.append_nil]
  | cons arrival rest =>
    obtain ⟨read, nonempty, rfl⟩ := fed arrival (arrivals ▸ List.mem_cons_self)
    obtain ⟨b, tail, rfl⟩ := List.exists_cons_of_ne_nil nonempty
    refine .inr ⟨_, by rw [receive, arrivals], ?_⟩
    simp [gather, Channel.withArrivals, arrivals, Arrival.content]

private theorem step_gather_of_busy (service : Service) (busy : connection.phase ≠ .reading) :
    connection.gather.step service = (connection.step service).gather := by
  have same : connection.gather.phase = connection.phase := rfl
  cases phase : connection.phase with
  | reading => contradiction
  | processing request =>
    simp only [step, same, phase]
    rfl
  | writing delivery keepAlive =>
    simp only [step, same, phase, write]
    simp only [gather, Step.gather, Delivery.send_withArrivals, Delivery.arrivals_send]
    rfl
  | closed =>
    simp only [step, same, phase]
    rfl

/-- A step is the same step when the reads have been made before, or it is a read. -/
theorem step_gather (service : Service) (fed : connection.Fed)
    (notTooLarge : connection.incoming? ≠ some (.malformed .headersTooLarge)) :
    (connection.gather.step service = (connection.step service).gather ∧
      connection.gather.incoming? = connection.incoming?) ∨
    ∃ next, connection.step service = quietly next ∧ next.gather = connection.gather ∧
      connection.incoming? = none := by
  by_cases reading : connection.phase = .reading
  · have gathered : connection.gather.phase = .reading := reading
    cases parsed : Request.parse connection.buffer with
    | ok parts =>
      obtain ⟨found, stepped⟩ := read_request service reading parsed
      have parsed' := parse_gather parsed (by simp) (by simp)
      obtain ⟨found', stepped'⟩ := read_request service gathered parsed'
      have within := Request.le_of_parse parsed
      left
      constructor
      · rw [stepped', stepped]
        simp only [quietly, Step.gather, gather, List.drop_append_of_le_length within]
      · rw [found', found]
    | error error =>
      by_cases incomplete : error = .incomplete
      · subst incomplete
        obtain ⟨found, stepped⟩ := read_incomplete service reading parsed
        rcases receive_gather fed with ⟨alike, same⟩ | ⟨next, received, moved⟩
        · exact .inl ⟨by rw [alike, stepped, same], by rw [alike]⟩
        · exact .inr ⟨next, stepped.trans received, moved, found⟩
      · obtain ⟨found, stepped⟩ := read_malformed service reading incomplete parsed
        have small : error ≠ .headersTooLarge := by
          rintro rfl
          exact notTooLarge found
        have parsed' := parse_gather parsed (by simpa using incomplete) (by simpa using small)
        obtain ⟨found', stepped'⟩ := read_malformed service gathered incomplete parsed'
        left
        constructor
        · rw [stepped', stepped]
          rfl
        · rw [found', found]
  · have busy : connection.gather.phase ≠ .reading := reading
    left
    exact ⟨step_gather_of_busy service reading, by
      rw [incoming?_of_not_reading reading, incoming?_of_not_reading busy]⟩

private theorem ne_of_not_mem_intake {incoming : Incoming}
    (absent : incoming ∉ connection.intake service) : connection.incoming? ≠ some incoming :=
  fun found => absent (mem_intake found)

/-- A run is the same run when the reads have been made before, and takes up the same. -/
theorem run_gather (fed : connection.Fed)
    (notTooLarge : .malformed .headersTooLarge ∉ connection.intake service) :
    connection.gather.run service = (connection.run service).gather ∧
      connection.gather.intake service = connection.intake service := by
  induction connection using run_induction service with
  | closed connection closed =>
    have gathered : connection.gather.phase = .closed := closed
    rw [run_of_closed closed, run_of_closed gathered, intake_of_closed closed,
      intake_of_closed gathered]
    exact ⟨rfl, rfl⟩
  | fault connection message isOpen fault =>
    have small := ne_of_not_mem_intake notTooLarge
    rcases step_gather service fed small with ⟨alike, same⟩ | ⟨next, stepped, _⟩
    · have gathered : connection.gather.phase ≠ .closed := isOpen
      have fault' : (connection.gather.step service).fault? = some message := by
        rw [alike]
        exact fault
      rw [run_of_fault isOpen fault, run_of_fault gathered fault', intake_of_fault isOpen fault,
        intake_of_fault gathered fault', same, alike]
      exact ⟨rfl, rfl⟩
    · rw [stepped] at fault
      cases fault
  | step connection isOpen noFault ih =>
    have small := ne_of_not_mem_intake notTooLarge
    rw [intake_of_step isOpen noFault] at notTooLarge ⊢
    obtain ⟨laterRun, laterIntake⟩ :=
      ih (fed_step fed service) fun member => notTooLarge (List.mem_append_right _ member)
    rw [run_of_step isOpen noFault]
    rcases step_gather service fed small with ⟨alike, same⟩ | ⟨next, stepped, moved, none⟩
    · have gathered : connection.gather.phase ≠ .closed := isOpen
      have noFault' : (connection.gather.step service).fault? = none := by
        rw [alike]
        exact noFault
      have next : (connection.gather.step service).next = (connection.step service).next.gather := by
        rw [alike]
        rfl
      rw [run_of_step gathered noFault', intake_of_step gathered noFault', next, laterRun,
        laterIntake, same, alike]
      exact ⟨rfl, rfl⟩
    · -- The step is a read, which the gathered connection has behind it: it stays where it is.
      rw [stepped] at laterRun laterIntake ⊢
      simp only [quietly, moved] at laterRun laterIntake
      rw [laterRun, laterIntake, none]
      exact ⟨rfl, rfl⟩

end Connection
end IdentityRelay.Server
