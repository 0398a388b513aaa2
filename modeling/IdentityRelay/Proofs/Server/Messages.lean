import IdentityRelay.Proofs.Server.Exchange
import IdentityRelay.Proofs.Server.Reads

/-! What a client has sent, read off all of its bytes at once, and why a connection
finds just that. A request that the end of the bytes cuts off is no message, and
what stands behind a request is looked at once, from where the request ends. -/
namespace IdentityRelay.Server
open IdentityRelay.Http

/-- The messages in bytes to which nothing is added: requests up to one that ends the
connection, up to bytes that cannot become a request, or up to the end. -/
def messages (bytes : Bytes) : List Incoming :=
  match _ : Request.parse bytes with
  | .ok (request, taken) =>
    .request request :: (if request.keepAlive then messages (bytes.drop taken) else [])
  | .error .incomplete => []
  | .error error => [.malformed error]
termination_by bytes.length
decreasing_by
  have := Request.pos_of_parse ‹Request.parse bytes = _›
  simp
  omega

section
variable {bytes : Bytes} {request : Request} {taken : Nat} {error : ParseError}

theorem messages_of_ok (parsed : Request.parse bytes = .ok (request, taken)) :
    messages bytes =
      .request request :: (if request.keepAlive then messages (bytes.drop taken) else []) := by
  rw [messages]
  split <;> simp_all

theorem messages_of_incomplete (parsed : Request.parse bytes = .error .incomplete) :
    messages bytes = [] := by
  rw [messages]
  split <;> simp_all

theorem messages_of_final (parsed : Request.parse bytes = .error error)
    (final : error ≠ .incomplete) : messages bytes = [.malformed error] := by
  rw [messages]
  split <;> simp_all

end

namespace Connection
variable {service : Service} {connection : Connection}

/-- The messages that are left for a connection when all reads have been made. -/
def ahead (connection : Connection) : List Incoming :=
  match connection.phase with
  | .reading | .writing _ true => messages connection.buffer
  | .processing request => if request.keepAlive then messages connection.buffer else []
  | .writing _ false | .closed => []

/-- A step takes up the next message, or leaves what is ahead as it is. -/
theorem ahead_step (service : Service) (willing : connection.channel.Willing)
    (gathered : connection.channel.arrivals = []) :
    (connection.step service).fault? = none ∧
      connection.ahead = connection.incoming?.toList ++ (connection.step service).next.ahead := by
  have moved := moves_step service connection
  generalize connection.step service = step, connection.incoming? = incoming? at moved ⊢
  cases moved with
  | take reading parsed =>
    rw [ahead, reading, messages_of_ok parsed]
    exact ⟨rfl, rfl⟩
  | refuse reading parsed final =>
    rw [ahead, reading, messages_of_final parsed final]
    exact ⟨rfl, rfl⟩
  | wait reading parsed =>
    rw [ahead, reading, messages_of_incomplete parsed, receive, gathered]
    exact ⟨rfl, rfl⟩
  | @answer request processing =>
    refine ⟨rfl, ?_⟩
    simp only [process, ahead, processing]
    cases request.keepAlive <;> rfl
  | @write delivery keepAlive writing =>
    have noFault := (Delivery.send_of_willing delivery willing).1
    refine ⟨noFault, ?_⟩
    simp only [write, ahead, writing, noFault]
    cases keepAlive <;> rfl
  | rest closed =>
    rw [ahead, closed]
    refine ⟨rfl, ?_⟩
    simp only [quietly, ahead, closed]
    rfl

/-- A run takes up the messages that are ahead, and nothing goes wrong on a willing channel. -/
theorem intake_eq_ahead (service : Service) (willing : connection.channel.Willing)
    (gathered : connection.channel.arrivals = []) :
    connection.intake service = connection.ahead ∧ (connection.run service).fault? = none := by
  induction connection using run_induction service with
  | closed connection closed =>
    rw [intake_of_closed closed, run_of_closed closed, ahead, closed]
    exact ⟨rfl, rfl⟩
  | fault connection message isOpen fault =>
    rw [(ahead_step service willing gathered).1] at fault
    cases fault
  | step connection isOpen noFault ih =>
    have still : (connection.step service).next.channel.arrivals = [] := by
      simpa [gathered] using arrivals_step service connection
    obtain ⟨later, unfaulted⟩ := ih (willing_step willing service) still
    rw [intake_of_step isOpen noFault, run_of_step isOpen noFault, later,
      (ahead_step service willing gathered).2]
    exact ⟨rfl, unfaulted⟩

/-- On a willing channel that brings nothing but bytes, a run takes up the messages in them,
unless it refuses a head for its length. -/
theorem intake_opened {channel : Channel} {remote : Relay.Remote} (willing : channel.Willing)
    (fed : (opened channel remote).Fed)
    (small : .malformed .headersTooLarge ∉ (opened channel remote).intake service) :
    (opened channel remote).intake service =
      messages (channel.arrivals.flatMap Arrival.content) := by
  rw [← (run_gather fed small).2]
  exact (intake_eq_ahead service (willing.withArrivals []) rfl).1

/-- A connection on which these reads bring bytes before the input ends. -/
def fed (channel : Channel) (remote : Relay.Remote) (reads : List Bytes) : Connection :=
  opened (channel.withArrivals (reads.map .bytes)) remote

/-- Two runs that cannot be told apart from outside. -/
structure Run.Agrees (run other : Run) : Prop where
  events : run.events = other.events
  fault : run.fault? = other.fault?
  remote : run.final.remote = other.final.remote
  flushes : run.final.channel.flushes = other.final.channel.flushes

variable {channel : Channel} {remote : Relay.Remote} {first second : List Bytes}

private theorem fed_fed (nonempty : ∀ read ∈ first, read ≠ []) : (fed channel remote first).Fed := by
  intro arrival member
  obtain ⟨read, isRead, rfl⟩ := List.mem_map.mp member
  exact ⟨read, nonempty read isRead, rfl⟩

private theorem flatMap_content (reads : List Bytes) :
    (reads.map Arrival.bytes).flatMap Arrival.content = reads.flatten := by
  rw [List.flatMap_map]
  exact List.flatMap_id

private theorem gather_fed (channel : Channel) (remote : Relay.Remote) (reads : List Bytes) :
    (fed channel remote reads).gather =
      { fed channel remote [] with buffer := reads.flatten } := by
  simp only [gather, fed, opened, Channel.withArrivals, flatMap_content, List.nil_append,
    List.map_nil]

private theorem agrees_of_flatten (firstReads : ∀ read ∈ first, read ≠ [])
    (secondReads : ∀ read ∈ second, read ≠ []) (same : first.flatten = second.flatten)
    (firstSmall : .malformed .headersTooLarge ∉ (fed channel remote first).intake service)
    (secondSmall : .malformed .headersTooLarge ∉ (fed channel remote second).intake service) :
    ((fed channel remote first).run service).Agrees ((fed channel remote second).run service) := by
  -- Both are compared with the run that has all bytes in its buffer from the start.
  have alike : (fed channel remote first).gather = (fed channel remote second).gather := by
    rw [gather_fed, gather_fed, same]
  have firstRun := (run_gather (fed_fed firstReads) firstSmall).1
  have secondRun := (run_gather (fed_fed secondReads) secondSmall).1
  have gathered : ((fed channel remote first).run service).gather =
      ((fed channel remote second).run service).gather := by
    rw [← firstRun, ← secondRun, alike]
  have events := congrArg Run.events gathered
  have fault := congrArg Run.fault? gathered
  have remote := congrArg (·.final.remote) gathered
  have flushes := congrArg (·.final.channel.flushes) gathered
  exact ⟨events, fault, remote, flushes⟩

private theorem intake_fed (willing : channel.Willing) (reads : ∀ read ∈ first, read ≠ [])
    (small : .malformed .headersTooLarge ∉ (fed channel remote first).intake service) :
    (fed channel remote first).intake service = messages first.flatten := by
  rw [← flatMap_content]
  exact intake_opened (willing.withArrivals _) (fed_fed reads) small

/-- Reads that bring all bytes at once refuse no head that reads in pieces do not refuse. -/
private theorem intake_single (reads : ∀ read ∈ first, read ≠ []) (some : first.flatten ≠ [])
    (small : .malformed .headersTooLarge ∉ (fed channel remote first).intake service) :
    (fed channel remote [first.flatten]).intake service =
      (fed channel remote first).intake service := by
  rw [← (run_gather (fed_fed reads) small).2, gather_fed]
  obtain ⟨b, tail, bytes⟩ := List.exists_cons_of_ne_nil some
  have reading : (fed channel remote [first.flatten]).phase = .reading := rfl
  obtain ⟨found, stepped⟩ := read_incomplete service reading Request.parse_nil
  have received : (fed channel remote [first.flatten]).receive =
      quietly { fed channel remote [] with buffer := first.flatten } := by
    rw [bytes]
    rfl
  have fault : ((fed channel remote [first.flatten]).step service).fault? = none := by
    rw [stepped, received]
    rfl
  rw [intake_of_step (by simp [reading]) fault, found, stepped, received]
  rfl

/-- However the bytes of a client are divided into reads, a run that refuses no head for
its length does the same as the run that reads them all at once. It answers the
messages in the bytes, and nothing else. -/
theorem run_of_reads (service : Service) (channel : Channel) (remote : Relay.Remote)
    (firstReads : ∀ read ∈ first, read ≠ []) (secondReads : ∀ read ∈ second, read ≠ [])
    (same : first.flatten = second.flatten)
    (firstSmall : .malformed .headersTooLarge ∉ (fed channel remote first).intake service)
    (secondSmall : .malformed .headersTooLarge ∉ (fed channel remote second).intake service) :
    ((fed channel remote first).run service).Agrees ((fed channel remote second).run service) ∧
    (first.flatten ≠ [] → ((fed channel remote first).run service).Agrees
      ((fed channel remote [first.flatten]).run service)) ∧
    (channel.Willing →
      (fed channel remote first).intake service = messages first.flatten ∧
      (fed channel remote second).intake service = messages first.flatten ∧
      Tells (Exchange.all service remote (messages first.flatten))
        ((fed channel remote first).run service).events) := by
  refine ⟨agrees_of_flatten firstReads secondReads same firstSmall secondSmall, ?_, ?_⟩
  · intro some
    have single : ∀ read ∈ [first.flatten], read ≠ [] := by
      intro read member
      rw [List.mem_singleton.mp member]
      exact some
    have singleSmall : .malformed .headersTooLarge ∉
        (fed channel remote [first.flatten]).intake service := by
      rw [intake_single firstReads some firstSmall]
      exact firstSmall
    exact agrees_of_flatten firstReads single (by simp) firstSmall singleSmall
  · intro willing
    have firstIntake := intake_fed willing firstReads firstSmall
    have secondIntake := intake_fed willing secondReads secondSmall
    refine ⟨firstIntake, by rw [secondIntake, same], ?_⟩
    have told : (fed channel remote first).Expects service _ _ :=
      tells_run service (willing.withArrivals _)
    rw [firstIntake] at told
    exact told

/-- A relay to the same machine for GET requests, and a provider that does not answer. -/
def localService : Service where
  provider := {
    baseUrl := {
      scheme := "http"
      authority? := some { host? := some (.name "localhost") }
      path := "/"
      query? := none
      fragment? := none }
    userId := "alice"
    appKey? := none }
  allowed := [.get]

def silentRemote : Relay.Remote := { isReachable := true, replies := [.late], seen := [] }

/-- A request whose last byte comes with a second read, and one that is cut off. -/
def brokenReads : List Bytes :=
  [Utf8.encode "GET /models HTTP/1.1\r\n\r", Utf8.encode "\nPOST /chat HTT"]

theorem run_of_brokenReads :
    ((fed { arrivals := [] } silentRemote brokenReads).run localService).Agrees
      ((fed { arrivals := [] } silentRemote [brokenReads.flatten]).run localService) ∧
    Tells (Exchange.all localService silentRemote (messages brokenReads.flatten))
      ((fed { arrivals := [] } silentRemote brokenReads).run localService).events := by
  have reads : ∀ read ∈ brokenReads, read ≠ [] := by decide
  have single : ∀ read ∈ [brokenReads.flatten], read ≠ [] := by decide
  have small := @headersTooLarge_not_mem_intake localService
    (fed { arrivals := [] } silentRemote brokenReads) (by decide)
  have singleSmall := @headersTooLarge_not_mem_intake localService
    (fed { arrivals := [] } silentRemote [brokenReads.flatten]) (by decide)
  obtain ⟨agree, _, told⟩ := run_of_reads localService { arrivals := [] } silentRemote reads single
    (by simp) small singleSmall
  have willing : Channel.Willing { arrivals := [] } := ⟨by simp, by simp⟩
  exact ⟨agree, (told willing).2.2⟩

end Connection

end IdentityRelay.Server
