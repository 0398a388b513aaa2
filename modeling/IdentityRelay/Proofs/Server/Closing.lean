import IdentityRelay.Proofs.Relay.Relayed
import IdentityRelay.Proofs.Server.Messages

/-! What a response says of its connection. Only the last response announces that the
connection is closed, and which one is the last is decided by what the client sent. -/
namespace IdentityRelay.Http

/-- Whether some `Connection` field of the request lists this token, in whatever case. -/
def Request.Names (request : Request) (token : String) : Prop :=
  ∃ header ∈ request.headers.toList, Text.sameName header.name "Connection" = true ∧
    ∃ element ∈ Headers.elements header.value, Text.sameName (String.ofList element) token = true

def Response.Silent (response : Response) : Prop := response.headers.values "Connection" = []

/-- The length that a draft is given says nothing of the connection either. -/
theorem ResponseDraft.build_silent {draft : ResponseDraft}
    (silent : draft.headers.values "Connection" = []) : draft.build.Silent := by
  unfold Response.Silent build
  simp only
  split
  · rw [Headers.values_append, silent]
    rfl
  · exact silent

namespace Response

theorem failure_silent (status : Status) (detail : String) : (failure status detail).Silent := by
  apply ResponseDraft.build_silent
  rw [Headers.values_eq_nil_iff]
  intro header member
  rw [List.mem_singleton.mp member]
  decide

theorem methodNotAllowed_silent (allowed : List Method) : (methodNotAllowed allowed).Silent := by
  apply ResponseDraft.build_silent
  rw [Headers.values_eq_nil_iff]
  intro header member
  rcases List.mem_cons.mp member with rfl | later
  · exact (by decide : Text.sameName "Allow" "Connection" = false)
  · rw [List.mem_singleton.mp later]
    decide

end Response

end IdentityRelay.Http

namespace IdentityRelay.Relay
open IdentityRelay.Http

theorem Failure.response_silent (failure : Failure) : failure.response.Silent := by
  cases failure <;> exact Response.failure_silent _ _

/-- What the provider says of its own connection is not relayed. -/
theorem Answer.response_silent (answer : Answer) (method : Method) :
    (answer.response method).Silent :=
  ResponseDraft.build_silent (values_filter_isRelayed (by decide) answer.headers)

theorem relay_silent (provider : Provider) (remote : Remote) (request : Request) :
    (relay provider remote request).response.Silent := by
  cases prepared : Outbound.prepare provider request with
  | error failure =>
    simp only [relay, prepared]
    exact failure.response_silent
  | ok outbound =>
    cases fault : outbound.fault? with
    | some failure =>
      simp only [relay, prepared, fault]
      exact failure.response_silent
    | none =>
      simp only [relay, prepared, fault, Outcome.response]
      cases (remote.call outbound).1 with
      | error failure => exact failure.response_silent
      | ok answer => exact answer.response_silent request.method

end IdentityRelay.Relay

namespace IdentityRelay.Server
open IdentityRelay.Http

namespace Incoming

def keepsOpen : Incoming → Bool
  | .request sent => sent.keepAlive
  | .malformed _ => false

/-- What makes a message the last one of its connection. -/
def IsLast : Incoming → Prop
  | .request sent => sent.Names "close" ∨ sent.version = "HTTP/1.0" ∧ ¬ sent.Names "keep-alive"
  | .malformed _ => True

theorem keepsOpen_eq_false_iff (incoming : Incoming) :
    incoming.keepsOpen = false ↔ incoming.IsLast := by
  cases incoming with
  | malformed error => simp [keepsOpen, IsLast]
  | request sent =>
    have names : ∀ token, sent.headers.hasToken "Connection" token = true ↔ sent.Names token :=
      fun _ => Headers.hasToken_iff
    simp only [keepsOpen, IsLast, Request.keepAlive, ← names]
    by_cases close : sent.headers.hasToken "Connection" "close" = true
    · simp [close]
    · by_cases keep : sent.headers.hasToken "Connection" "keep-alive" = true
      · simp [close, keep]
      · simp [close, keep]

example : (Incoming.request {
    method := .get
    target := "/"
    version := "HTTP/1.1"
    headers := ⟨[⟨"Connection", "keep-alive"⟩, ⟨"CONNECTION", "Keep-Alive , Close"⟩]⟩
    body := [] }).keepsOpen = false := by decide

end Incoming

namespace Exchange

def delivery (exchange : Exchange) : Delivery :=
  match exchange.incoming with
  | .request request => .answering request.method exchange.response
  | .malformed _ => .ofResponse exchange.response

/-- The response announces the end of the connection just where it comes. -/
def Announces (exchange : Exchange) : Prop :=
  exchange.response.headers.values "Connection" =
    if exchange.incoming.keepsOpen then [] else ["close"]

theorem ofIncoming_announces (service : Service) (remote : Relay.Remote) (incoming : Incoming) :
    (ofIncoming service remote incoming).1.Announces := by
  cases incoming with
  | malformed error =>
    have announced : (service.rejection error).headers.values "Connection" = ["close"] :=
      Headers.values_set_self _ _ _
    exact announced
  | request request =>
    have silent : (Connection.answer service remote request).1.Silent := by
      unfold Connection.answer
      split
      · exact Relay.relay_silent service.provider remote request
      · exact Response.methodNotAllowed_silent service.allowed
    unfold Announces ofIncoming
    by_cases stays : request.keepAlive = true
    · simp only [Incoming.keepsOpen, stays, if_true]
      exact silent
    · simp only [Incoming.keepsOpen, stays]
      exact Headers.values_set_self _ _ _

end Exchange

namespace Connection
variable {service : Service} {connection : Connection}

def isWriting (connection : Connection) : Bool :=
  match connection.phase with
  | .writing _ _ => true
  | _ => false

/-- A state that hands the response of an exchange to the channel, with the states that come
after it: whether there are any is what the response says. -/
structure HandsOver (service : Service) (exchange : Exchange) (state : Connection)
    (after : List Connection) : Prop where
  handed : state.phase = .writing exchange.delivery exchange.incoming.keepsOpen
  last : exchange.incoming.IsLast →
    exchange.response.headers.values "Connection" = ["close"] ∧
      (state.step service).next.phase = .closed ∧ after = []
  kept : ¬ exchange.incoming.IsLast →
    exchange.response.headers.values "Connection" = [] ∧
      ((state.step service).fault? = none → (state.step service).next.phase = .reading ∧
        after.head? = some (state.step service).next)

/-- The states hand over the responses of the exchanges, one after the other. -/
inductive HandOvers (service : Service) : List Exchange → List Connection → Prop where
  | nil : HandOvers service [] []
  | other {exchanges : List Exchange} {state : Connection} {after : List Connection}
      (busy : state.isWriting = false) (rest : HandOvers service exchanges after) :
      HandOvers service exchanges (state :: after)
  | cons {exchange : Exchange} {exchanges : List Exchange} {state : Connection}
      {after : List Connection} (first : HandsOver service exchange state after)
      (rest : HandOvers service exchanges after) :
      HandOvers service (exchange :: exchanges) (state :: after)

/-- The states from this one on that a run goes through hand over these responses. -/
def Hands (service : Service) (connection : Connection) (intake : List Incoming)
    (trace : List Connection) : Prop :=
  match connection.phase with
  | .reading | .closed => HandOvers service (Exchange.all service connection.remote intake) trace
  | .processing request =>
    HandOvers service (Exchange.all service connection.remote (.request request :: intake)) trace
  | .writing delivery keepAlive =>
    ∀ exchange : Exchange, exchange.Announces → exchange.delivery = delivery →
      exchange.incoming.keepsOpen = keepAlive →
      HandOvers service (exchange :: Exchange.all service connection.remote intake) trace

private theorem hands_of_idle {intake : List Incoming} {trace : List Connection}
    (idle : connection.phase = .reading ∨ connection.phase = .closed) :
    connection.Hands service intake trace ↔
      HandOvers service (Exchange.all service connection.remote intake) trace := by
  rcases idle with reading | closed
  · simp only [Hands, reading]
  · simp only [Hands, closed]

def behind (service : Service) (connection : Connection) : List Connection :=
  match (connection.step service).fault? with
  | some _ => []
  | none => (connection.step service).next.trace service

theorem trace_of_open (isOpen : connection.phase ≠ .closed) :
    connection.trace service = connection :: connection.behind service := by
  cases fault : (connection.step service).fault? with
  | some message => simp only [trace_of_fault isOpen fault, behind, fault]
  | none => simp only [trace_of_step isOpen fault, behind, fault]

/-- A write goes on where the flag says so, and ends the run otherwise. -/
theorem handsOver_write {exchange : Exchange} (announces : exchange.Announces)
    (handed : connection.phase = .writing exchange.delivery exchange.incoming.keepsOpen) :
    HandsOver service exchange connection (connection.behind service) := by
  unfold Exchange.Announces at announces
  refine ⟨handed, fun isLast => ?_, fun notLast => ?_⟩
  · have closes := exchange.incoming.keepsOpen_eq_false_iff.mpr isLast
    have closed : (connection.step service).next.phase = .closed := by
      simp [step, handed, write, closes]
    refine ⟨by rw [announces, closes]; rfl, closed, ?_⟩
    unfold behind
    split
    · rfl
    · exact trace_of_closed closed
  · have stays : exchange.incoming.keepsOpen = true := by
      rw [← Bool.not_eq_false, exchange.incoming.keepsOpen_eq_false_iff]
      exact notLast
    refine ⟨by rw [announces, stays]; rfl, fun noFault => ?_⟩
    have reading : (connection.step service).next.phase = .reading := by
      simp only [step, handed, write] at noFault ⊢
      simp [stays, noFault]
    refine ⟨reading, ?_⟩
    simp only [behind, noFault]
    rw [trace_of_open (by simp [reading])]
    rfl

private theorem isWriting_eq_false {phase : Phase} (same : connection.phase = phase)
    (busy : ∀ delivery keepAlive, phase ≠ .writing delivery keepAlive) :
    connection.isWriting = false := by
  subst same
  unfold isWriting
  split
  · rename_i delivery keepAlive writing
    exact absurd writing (busy delivery keepAlive)
  · rfl

/-- A step hands over a response or none, and leaves the others to the states behind it. -/
theorem hands_of_behind (isOpen : connection.phase ≠ .closed)
    (noFault : (connection.step service).fault? = none) {intake : List Incoming}
    (later : (connection.step service).next.Hands service intake (connection.behind service)) :
    connection.Hands service (connection.incoming?.toList ++ intake)
      (connection :: connection.behind service) := by
  have handed := @handsOver_write service connection
  have moved := moves_step service connection
  generalize connection.behind service = after at handed later ⊢
  generalize connection.step service = step, connection.incoming? = incoming?
    at moved later noFault ⊢
  cases moved with
  | take reading parsed =>
    rw [hands_of_idle (.inl reading)]
    exact .other (isWriting_eq_false reading nofun) later
  | @refuse error reading parsed final =>
    rw [hands_of_idle (.inl reading)]
    refine .other (isWriting_eq_false reading nofun) ?_
    exact later _ (Exchange.ofIncoming_announces service connection.remote (.malformed error))
      rfl rfl
  | wait reading parsed =>
    obtain ⟨_, remote, idle⟩ := receive_quiet reading
    rw [hands_of_idle idle, remote] at later
    rw [hands_of_idle (.inl reading)]
    exact .other (isWriting_eq_false reading nofun) later
  | @answer request processing =>
    simp only [Hands, processing]
    refine .other (isWriting_eq_false processing nofun) ?_
    exact later _ (Exchange.ofIncoming_announces service connection.remote (.request request))
      rfl rfl
  | @write delivery keepAlive writing =>
    rw [hands_of_idle (idle_write connection delivery keepAlive)] at later
    simp only [Hands, writing]
    rintro exchange announces rfl rfl
    exact .cons (handed announces writing) later
  | rest closed => contradiction

/-- A fault breaks off a response that was handed over before, or comes between two. -/
theorem hands_of_fault {message : String}
    (fault : (connection.step service).fault? = some message) :
    connection.Hands service connection.incoming?.toList [connection] := by
  have nothing : connection.behind service = [] := by simp only [behind, fault]
  have handed := @handsOver_write service connection
  rw [nothing] at handed
  have moved := moves_step service connection
  generalize connection.step service = step, connection.incoming? = incoming? at moved fault ⊢
  cases moved with
  | wait reading parsed =>
    rw [hands_of_idle (.inl reading)]
    exact .other (isWriting_eq_false reading nofun) .nil
  | write writing =>
    simp only [Hands, writing]
    rintro exchange announces rfl rfl
    exact .cons (handed announces writing) .nil
  | _ => cases fault

theorem hands_run (service : Service) (connection : Connection) :
    connection.Hands service (connection.intake service) (connection.trace service) := by
  induction connection using run_induction service with
  | closed connection closed =>
    rw [intake_of_closed closed, trace_of_closed closed, hands_of_idle (.inr closed)]
    exact .nil
  | fault connection message isOpen fault =>
    rw [intake_of_fault isOpen fault, trace_of_fault isOpen fault]
    exact hands_of_fault fault
  | step connection isOpen noFault ih =>
    have follows : connection.behind service = (connection.step service).next.trace service := by
      simp only [behind, noFault]
    rw [intake_of_step isOpen noFault, trace_of_open isOpen]
    exact hands_of_behind isOpen noFault (by rwa [follows])

/-- The announcement matches the behaviour. A run hands one response to the channel for each
message that it takes up. It takes up all of the messages in the arriving bytes where no read and
no write fails and no head is refused for its length. The response to a message that is the last
one has one `Connection` field, which says `close`, and no step comes behind it; any other
response has no such field, and once it is written the run goes on with a state that reads. -/
theorem close_announced (service : Service) (channel : Channel) (remote : Relay.Remote) :
    (Exchange.all service remote ((opened channel remote).intake service)).map Exchange.incoming =
        (opened channel remote).intake service ∧
      (channel.Willing → (opened channel remote).Fed →
        .malformed .headersTooLarge ∉ (opened channel remote).intake service →
        (opened channel remote).intake service =
          messages (channel.arrivals.flatMap Arrival.content)) ∧
      HandOvers service (Exchange.all service remote ((opened channel remote).intake service))
        ((opened channel remote).trace service) :=
  ⟨Exchange.map_incoming_all service remote _, intake_opened,
    hands_run service (opened channel remote)⟩

end Connection

end IdentityRelay.Server
