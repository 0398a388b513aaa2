import IdentityRelay.Proofs.Server.Messages

/-! When the provider is called. A run makes one call for each request that it takes up
and can send, and none besides, whatever the provider does. Before each call all
that was taken up earlier is answered, written and flushed. -/
namespace IdentityRelay

def Relay.Remote.reaches (remote : Remote) (outbound : Outbound) : Bool :=
  remote.isReachable && outbound.isWithinLimit

namespace Server
open IdentityRelay.Http

/-- The call that a message leads to: that of a request whose method is relayed and
which can be prepared and put into the form in which it is sent. -/
def Service.callFor? (service : Service) : Incoming → Option Relay.Outbound
  | .request request =>
    if service.allowed.contains request.method then
      match Relay.Outbound.prepare service.provider request with
      | .ok outbound => if outbound.fault?.isNone then some outbound else none
      | .error _ => none
    else none
  | .malformed _ => none

def calls (events : List Event) : List Relay.Outbound :=
  events.filterMap fun
    | .called outbound => some outbound
    | _ => none

/-- Messages at the front of bytes, one directly behind the other. Behind a request that
ends the connection there is none, nor behind bytes that cannot become a request. -/
inductive Consecutive : Bytes → List Incoming → Prop where
  | nil {bytes : Bytes} : Consecutive bytes []
  | kept {bytes : Bytes} {request : Request} {taken : Nat} {later : List Incoming}
      (parsed : Request.parse bytes = .ok (request, taken)) (keeps : request.keepAlive = true)
      (rest : Consecutive (bytes.drop taken) later) :
      Consecutive bytes (.request request :: later)
  | last {bytes : Bytes} {request : Request} {taken : Nat}
      (parsed : Request.parse bytes = .ok (request, taken)) (ends : request.keepAlive = false) :
      Consecutive bytes [.request request]
  | refused {arrived behind : Bytes} {error : ParseError}
      (parsed : Request.parse arrived = .error error) (final : error ≠ .incomplete) :
      Consecutive (arrived ++ behind) [.malformed error]

namespace Exchange
variable {service : Service} {remote : Relay.Remote}

/-- Whether a call is made depends on the message alone, not on the provider. -/
theorem call?_ofIncoming (service : Service) (remote : Relay.Remote) (incoming : Incoming) :
    (ofIncoming service remote incoming).1.call? = service.callFor? incoming := by
  cases incoming with
  | malformed error => rfl
  | request request =>
    simp only [ofIncoming, Connection.answer, Service.callFor?]
    split
    · simp only [Relay.relay]
      cases Relay.Outbound.prepare service.provider request with
      | error failure => rfl
      | ok outbound => cases fault : outbound.fault? <;> simp [fault]
    · rfl

theorem all_cons (service : Service) (remote : Relay.Remote) (incoming : Incoming)
    (rest : List Incoming) :
    all service remote (incoming :: rest) =
      (ofIncoming service remote incoming).1 ::
        all service (ofIncoming service remote incoming).2 rest := rfl

theorem filterMap_call?_all (service : Service) (remote : Relay.Remote) (intake : List Incoming) :
    (all service remote intake).filterMap call? = intake.filterMap service.callFor? := by
  induction intake generalizing remote with
  | nil => rfl
  | cons incoming rest ih =>
    rw [all_cons, List.filterMap_cons, List.filterMap_cons, call?_ofIncoming, ih]

theorem split_all {intake : List Incoming} {earlier later : List Exchange} {exchange : Exchange}
    (split : all service remote intake = earlier ++ exchange :: later) :
    ∃ before incoming after, intake = before ++ incoming :: after ∧
      earlier = all service remote before ∧ exchange.call? = service.callFor? incoming := by
  induction intake generalizing remote earlier with
  | nil => simp [all] at split
  | cons incoming rest ih =>
    rw [all_cons] at split
    cases earlier with
    | nil =>
      obtain ⟨same, _⟩ := List.cons.inj split
      exact ⟨[], incoming, rest, rfl, rfl, by rw [← same, call?_ofIncoming]⟩
    | cons first others =>
      obtain ⟨same, behind⟩ := List.cons.inj split
      obtain ⟨before, other, after, rfl, rfl, call⟩ := ih behind
      exact ⟨incoming :: before, other, after, rfl, by rw [all_cons, same], call⟩

end Exchange

section
variable {exchanges : List Exchange} {events before after : List Event}

private theorem calls_append (first second : List Event) :
    calls (first ++ second) = calls first ++ calls second := List.filterMap_append

private theorem calls_writes (writes : List Bytes) : calls (writes.map .wrote) = [] := by
  simp [calls]

private theorem calls_failure {failure : Event} (failed : failure.isFailure = true) :
    calls [failure] = [] := by
  cases failure with
  | called outbound => cases failed
  | _ => rfl

private theorem calls_called (call? : Option Relay.Outbound) :
    calls (call?.toList.map .called) = call?.toList := by
  cases call? <;> rfl

theorem calls_of_unfolds (unfolds : Unfolds exchanges events) :
    calls events = exchanges.filterMap Exchange.call? := by
  induction unfolds with
  | nil => rfl
  | @cons exchange writes exchanges events some whole rest ih =>
    rw [calls_append, calls_called, calls_append, calls_writes, List.nil_append]
    have behind : calls (.flushed :: events) = exchanges.filterMap Exchange.call? := ih
    rw [behind, List.filterMap_cons]
    cases exchange.call? <;> rfl
  | @broken exchange writes failure some part failed =>
    rw [calls_append, calls_called, calls_append, calls_writes, calls_failure failed]
    cases call : exchange.call? <;> simp [call]

private theorem split_behind {front back : List Event} {found : Event} (absent : found ∉ front)
    (split : front ++ back = before ++ found :: after) :
    ∃ behind, before = front ++ behind ∧ back = behind ++ found :: after := by
  rcases List.append_eq_append_iff.mp split with ⟨behind, whole, rest⟩ | ⟨more, whole, rest⟩
  · exact ⟨behind, whole, rest⟩
  · cases more with
    | nil => exact ⟨[], by simpa using whole.symm, rest.symm⟩
    | cons first others =>
      obtain ⟨same, _⟩ := List.cons.inj rest
      exact absurd (by simp [whole, same]) absent

/-- A call is the first event of its exchange, or it belongs to a later one. -/
private theorem split_call {exchange : Exchange} {rest : List Event} {outbound : Relay.Outbound}
    (split : exchange.call?.toList.map .called ++ rest = before ++ .called outbound :: after) :
    (before = [] ∧ exchange.call? = some outbound) ∨
      ∃ behind, before = exchange.call?.toList.map .called ++ behind ∧
        rest = behind ++ .called outbound :: after := by
  cases call : exchange.call? with
  | none =>
    rw [call] at split
    exact .inr ⟨before, rfl, split⟩
  | some first =>
    rw [call] at split
    cases before with
    | nil =>
      obtain ⟨same, _⟩ := List.cons.inj split
      exact .inl ⟨rfl, by rw [Event.called.inj same]⟩
    | cons head behind =>
      obtain ⟨same, others⟩ := List.cons.inj split
      exact .inr ⟨behind, by rw [← same]; rfl, others⟩

/-- Before a call all earlier exchanges are done: written to the end and flushed. -/
theorem tells_before_call (unfolds : Unfolds exchanges events) {outbound : Relay.Outbound}
    (split : events = before ++ .called outbound :: after) :
    ∃ earlier exchange later, exchanges = earlier ++ exchange :: later ∧
      exchange.call? = some outbound ∧ Tells earlier before := by
  have silent (writes : List Bytes) : .called outbound ∉ writes.map Event.wrote := by simp
  induction unfolds generalizing before with
  | nil => simp at split
  | @cons exchange writes exchanges events some whole rest ih =>
    rcases split_call split with ⟨rfl, call⟩ | ⟨behind, rfl, tail⟩
    · exact ⟨[], exchange, exchanges, rfl, call, .nil⟩
    · obtain ⟨later, rfl, flushed⟩ := split_behind (silent writes) tail
      cases later with
      | nil => cases (List.cons.inj flushed).1
      | cons first later =>
        obtain ⟨rfl, found⟩ := List.cons.inj flushed
        obtain ⟨earlier, other, others, rfl, call, told⟩ := ih found
        exact ⟨exchange :: earlier, other, others, rfl, call, .cons whole told⟩
  | @broken exchange writes failure some part failed =>
    rcases split_call split with ⟨rfl, call⟩ | ⟨behind, rfl, tail⟩
    · exact ⟨[], exchange, [], rfl, call, .nil⟩
    · obtain ⟨later, rfl, last⟩ := split_behind (silent writes) tail
      have same : .called outbound ∈ [failure] := by simp [last]
      rw [← List.mem_singleton.mp same] at failed
      cases failed

theorem eq_nil_of_failure (unfolds : Unfolds exchanges events) {failure : Event}
    (failed : failure.isFailure = true) (split : events = before ++ failure :: after) :
    after = [] := by
  have sound (call? : Option Relay.Outbound) {writes : List Bytes}
      (some : ∀ write ∈ writes, write ≠ []) :
      failure ∉ call?.toList.map .called ++ writes.map .wrote := by
    intro member
    rcases List.mem_append.mp member with called | wrote
    · obtain ⟨outbound, _, rfl⟩ := List.mem_map.mp called
      cases failed
    · obtain ⟨bytes, isWrite, rfl⟩ := List.mem_map.mp wrote
      obtain ⟨b, rest, rfl⟩ := List.exists_cons_of_ne_nil (some bytes isWrite)
      cases failed
  induction unfolds generalizing before with
  | nil => simp at split
  | @cons exchange writes exchanges events some whole rest ih =>
    rw [← List.append_assoc] at split
    obtain ⟨behind, _, tail⟩ := split_behind (sound exchange.call? some) split
    cases behind with
    | nil =>
      rw [← (List.cons.inj tail).1] at failed
      cases failed
    | cons first behind => exact ih (List.cons.inj tail).2
  | @broken exchange writes last some part lastFailed =>
    rw [← List.append_assoc] at split
    obtain ⟨behind, _, tail⟩ := split_behind (sound exchange.call? some) split
    cases behind with
    | nil => exact (List.cons.inj tail).2.symm
    | cons first behind => simp at tail

end

namespace Connection
variable {service : Service} {connection : Connection}

/-- The bytes that the run of a connection can still come upon. -/
def unread (connection : Connection) : Bytes :=
  connection.buffer ++ connection.channel.arrivals.flatMap Arrival.content

/-- What a run from this state can take up. -/
def CanTake (connection : Connection) (intake : List Incoming) : Prop :=
  match connection.phase with
  | .reading | .writing _ true => Consecutive connection.unread intake
  | .processing request =>
    if request.keepAlive then Consecutive connection.unread intake else intake = []
  | .writing _ false | .closed => intake = []

private theorem canTake_nil (connection : Connection) : connection.CanTake [] := by
  unfold CanTake
  split
  · exact .nil
  · exact .nil
  · split
    · exact .nil
    · rfl
  · rfl
  · rfl

private theorem canTake_of_receive (reading : connection.phase = .reading) {intake : List Incoming}
    (later : connection.receive.next.CanTake intake) : Consecutive connection.unread intake := by
  unfold receive at later
  split at later
  · rw [show intake = [] from later]
    exact .nil
  · rw [show intake = [] from later]
    exact .nil
  · rw [show intake = [] from later]
    exact .nil
  · rename_i bytes rest _ arrivals
    have same : connection.unread = connection.buffer ++ bytes ++ rest.flatMap Arrival.content := by
      simp [unread, arrivals, Arrival.content]
    simp only [quietly, CanTake, reading] at later
    rw [same]
    exact later

private theorem seen_answer (service : Service) (remote : Relay.Remote) (request : Request) :
    (answer service remote request).2.2.isReachable = remote.isReachable ∧
      (answer service remote request).2.2.seen =
        remote.seen ++ (answer service remote request).2.1.toList.filter remote.reaches := by
  have unseen : remote.seen = remote.seen ++ [] := (List.append_nil _).symm
  unfold answer
  split
  · unfold Relay.relay
    split
    · exact ⟨rfl, unseen⟩
    · split
      · exact ⟨rfl, unseen⟩
      · rename_i outbound _ _ _
        simp only [Relay.Remote.call]
        cases within : outbound.isWithinLimit <;> cases reachable : remote.isReachable <;>
          simp [Relay.Remote.reaches, within, reachable]
  · exact ⟨rfl, unseen⟩

theorem canTake_of_step (noFault : (connection.step service).fault? = none) {intake : List Incoming}
    (later : (connection.step service).next.CanTake intake) :
    connection.CanTake (connection.incoming?.toList ++ intake) := by
  have moved := moves_step service connection
  generalize connection.step service = step, connection.incoming? = incoming?
    at moved later noFault ⊢
  cases moved with
  | @take request taken reading parsed =>
    have within := Request.le_of_parse parsed
    have whole : Request.parse connection.unread = .ok (request, taken) := by
      rw [unread, Request.parse_append (by simp [parsed]) (by simp [parsed]), parsed]
    simp only [CanTake, reading]
    cases keeps : request.keepAlive with
    | true =>
      refine .kept whole keeps ?_
      simpa [quietly, CanTake, keeps, unread, List.drop_append_of_le_length within] using later
    | false =>
      have none : intake = [] := by simpa [quietly, CanTake, keeps] using later
      rw [none]
      exact .last whole keeps
  | refuse reading parsed final =>
    have none : intake = [] := later
    simp only [CanTake, reading, none]
    exact .refused parsed final
  | wait reading parsed =>
    simp only [CanTake, reading]
    exact canTake_of_receive reading later
  | @answer request processing =>
    simp only [CanTake, processing]
    cases keeps : request.keepAlive with
    | true =>
      simp only [process, CanTake, keeps] at later
      exact later
    | false => simpa [process, CanTake, keeps] using later
  | @write delivery keepAlive writing =>
    simp only [write] at noFault
    simp only [CanTake, writing]
    cases keepAlive with
    | true => simpa [write, CanTake, noFault, unread, Delivery.arrivals_send] using later
    | false => simpa [write, CanTake] using later
  | rest closed => exact later

/-- A run takes up messages at the front of what is still unread. -/
theorem canTake_intake (service : Service) (connection : Connection) :
    connection.CanTake (connection.intake service) := by
  induction connection using run_induction service with
  | closed connection closed =>
    rw [intake_of_closed closed]
    exact canTake_nil connection
  | fault connection message isOpen fault =>
    rw [intake_of_fault isOpen fault]
    have moved := moves_step service connection
    generalize connection.step service = step, connection.incoming? = incoming? at moved fault ⊢
    cases moved with
    | take => cases fault
    | refuse => cases fault
    | _ => exact canTake_nil connection
  | step connection isOpen noFault ih =>
    rw [intake_of_step isOpen noFault]
    exact canTake_of_step noFault ih

private theorem seen_step (service : Service) (connection : Connection) :
    (connection.step service).next.remote.isReachable = connection.remote.isReachable ∧
      (connection.step service).next.remote.seen = connection.remote.seen ++
        (calls (connection.step service).events).filter connection.remote.reaches := by
  have moved := moves_step service connection
  generalize connection.step service = step, connection.incoming? = incoming? at moved ⊢
  cases moved with
  | wait reading parsed =>
    obtain ⟨silent, remote, _⟩ := receive_quiet reading
    rw [silent, remote]
    exact ⟨rfl, (List.append_nil _).symm⟩
  | answer processing =>
    simp only [process, calls_called]
    exact seen_answer service connection.remote _
  | @write delivery keepAlive writing =>
    have silent : calls (delivery.send connection.channel).events = [] := by
      obtain ⟨writes, _, ⟨_, _, events⟩ | ⟨failure, failed, _, _, events⟩⟩ :=
        Delivery.send_cases delivery connection.channel
      · rw [events, calls_append, calls_writes]
        rfl
      · rw [events, calls_append, calls_writes, calls_failure failed]
        rfl
    simp only [write, silent]
    exact ⟨trivial, (List.append_nil _).symm⟩
  | _ => exact ⟨rfl, (List.append_nil _).symm⟩

theorem seen_run (service : Service) (connection : Connection) :
    (connection.run service).final.remote.seen = connection.remote.seen ++
      (calls (connection.run service).events).filter connection.remote.reaches := by
  induction connection using run_induction service with
  | closed connection closed =>
    rw [run_of_closed closed]
    exact (List.append_nil _).symm
  | fault connection message isOpen fault =>
    rw [run_of_fault isOpen fault]
    exact (seen_step service connection).2
  | step connection isOpen noFault ih =>
    obtain ⟨reachable, seen⟩ := seen_step service connection
    have same : (connection.step service).next.remote.reaches = connection.remote.reaches := by
      funext outbound
      simp only [Relay.Remote.reaches, reachable]
    rw [run_of_step isOpen noFault]
    simp only [ih, seen, same, calls_append, List.filter_append, List.append_assoc]

/-- On every channel and with every provider, a run calls the provider once for each request
that it takes up and can send, in order, and for nothing else. What it takes up stands
in the arriving bytes one behind the other, and nothing behind a request that ends the
connection or behind what is no request. It is all of the messages in these bytes where no
read and no write fails and no head is refused for its length. At each call, everything
taken up earlier is answered, written and flushed, and behind a failed write or flush
nothing happens. -/
theorem calls_run (service : Service) (channel : Channel) (remote : Relay.Remote) :
    Consecutive (channel.arrivals.flatMap Arrival.content)
      ((opened channel remote).intake service) ∧
    (channel.Willing → (opened channel remote).Fed →
      .malformed .headersTooLarge ∉ (opened channel remote).intake service →
      (opened channel remote).intake service =
        messages (channel.arrivals.flatMap Arrival.content)) ∧
    calls ((opened channel remote).run service).events =
      ((opened channel remote).intake service).filterMap service.callFor? ∧
    ((opened channel remote).run service).final.remote.seen = remote.seen ++
      (calls ((opened channel remote).run service).events).filter remote.reaches ∧
    (∀ before outbound after,
      ((opened channel remote).run service).events = before ++ .called outbound :: after →
      ∃ earlier incoming later,
        (opened channel remote).intake service = earlier ++ incoming :: later ∧
        service.callFor? incoming = some outbound ∧
        Tells (Exchange.all service remote earlier) before) ∧
    ∀ before failure after, failure.isFailure = true →
      ((opened channel remote).run service).events = before ++ failure :: after → after = [] := by
  have unfolds : Unfolds (Exchange.all service remote ((opened channel remote).intake service))
      ((opened channel remote).run service).events := foresees_run service (opened channel remote)
  have taken : Consecutive ([] ++ channel.arrivals.flatMap Arrival.content)
      ((opened channel remote).intake service) := canTake_intake service (opened channel remote)
  refine ⟨taken, intake_opened, ?_, seen_run service _, ?_, ?_⟩
  · rw [calls_of_unfolds unfolds, Exchange.filterMap_call?_all]
  · intro before outbound after split
    obtain ⟨earlier, exchange, later, exchanges, call, told⟩ := tells_before_call unfolds split
    obtain ⟨taken, incoming, behind, intake, rfl, same⟩ := Exchange.split_all exchanges
    exact ⟨taken, incoming, behind, intake, same ▸ call, told⟩
  · intro before failure after failed split
    exact eq_nil_of_failure unfolds failed split

end Connection

end Server

end IdentityRelay
