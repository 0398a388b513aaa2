import IdentityRelay.Proofs.Relay.Relayed
import IdentityRelay.Proofs.Server.Messages

/-! What a connection writes can be read. A client that knows which of its requests were
for a head alone finds one response for each of them, and no byte between them. -/
namespace IdentityRelay.Server
open IdentityRelay.Http

def Event.bytes : Event → Bytes
  | .wrote written => written
  | _ => []

def Incoming.isHead : Incoming → Bool
  | .request sent => sent.method == .head
  | .malformed _ => false

def written (events : List Event) : Bytes := events.flatMap Event.bytes

theorem written_of_tells {exchanges : List Exchange} {events : List Event}
    (told : Tells exchanges events) : written events = exchanges.flatMap Exchange.wire := by
  induction told with
  | nil => rfl
  | @cons exchange writes exchanges events whole rest ih =>
    have silent : (exchange.call?.toList.map Event.called).flatMap Event.bytes = [] := by
      cases exchange.call? <;> rfl
    have all : (writes.map Event.wrote).flatMap Event.bytes = writes.flatten := by
      rw [List.flatMap_map]
      exact List.flatMap_id
    rw [written, List.flatMap_append, List.flatMap_append, silent, all, whole,
      List.flatMap_cons, List.flatMap_cons, ← ih]
    rfl

theorem rejection_delimited (service : Service) (error : ParseError) :
    (service.rejection error).Delimited false := by
  apply Response.Delimited.closing
  split
  · exact Response.failure_delimited _ _
  · exact Response.methodNotAllowed_delimited _
  · exact Response.failure_delimited _ _

theorem code_rejection (service : Service) (error : ParseError) :
    (service.rejection error).status.code ∈ [400, 405, 431] := by
  cases error with
  | headersTooLarge => exact (by decide : 431 ∈ [400, 405, 431])
  | invalidMethod => exact (by decide : 405 ∈ [400, 405, 431])
  | _ => exact (by decide : 400 ∈ [400, 405, 431])

theorem answer_delimited {remote : Relay.Remote} (printable : remote.Printable) (service : Service)
    (request : Request) :
    (Connection.answer service remote request).1.Delimited (request.method == .head) ∧
      (Connection.answer service remote request).2.2.Printable := by
  unfold Connection.answer
  split
  · exact Relay.relay_delimited printable service.provider request
  · exact ⟨(Response.methodNotAllowed_delimited _).weaken _, printable⟩

theorem Delivery.ofHead_eq (response : Response) :
    Delivery.ofHead response = .ofResponse { response with body := [] } := by
  have whole : ({ response with body := [] } : Response).wire = response.wireHead := by
    unfold Response.wire
    split <;> exact List.append_nil _
  rw [ofHead, ofResponse, whole, Response.wireOfHead_eq]

namespace Exchange
variable {service : Service} {remote : Relay.Remote}

def message (exchange : Exchange) : Message := exchange.response.message exchange.incoming.isHead

def Delimited (exchange : Exchange) : Prop := exchange.response.Delimited exchange.incoming.isHead

theorem wire_eq (exchange : Exchange) :
    exchange.wire = exchange.response.wireHead ++ exchange.message.body := by
  have whole : exchange.response.wire =
      exchange.response.wireHead ++ (exchange.response.message false).body := rfl
  have alone : exchange.response.wireOfHead =
      exchange.response.wireHead ++ (exchange.response.message true).body := by
    rw [Response.wireOfHead_eq]
    exact (List.append_nil _).symm
  unfold wire message
  cases exchange.incoming with
  | malformed error => exact whole
  | request request =>
    unfold Incoming.isHead Delivery.answering
    simp only
    cases request.method == .head with
    | true => exact alone
    | false => exact whole

/-- A message is answered by a response that the client can tell, and the provider is
left with replies of which this holds as well. -/
theorem ofIncoming_delimited (printable : remote.Printable) (service : Service)
    (incoming : Incoming) :
    (ofIncoming service remote incoming).1.Delimited ∧
      (ofIncoming service remote incoming).2.Printable := by
  cases incoming with
  | malformed error => exact ⟨rejection_delimited service error, printable⟩
  | request request =>
    obtain ⟨delimited, later⟩ := answer_delimited printable service request
    refine ⟨?_, later⟩
    unfold Delimited ofIncoming
    simp only
    split
    · exact delimited
    · exact delimited.closing

theorem all_delimited (printable : remote.Printable) (service : Service) (intake : List Incoming) :
    ∀ exchange ∈ all service remote intake, exchange.Delimited := by
  induction intake generalizing remote with
  | nil => simp [all]
  | cons incoming rest ih =>
    obtain ⟨delimited, later⟩ := ofIncoming_delimited printable service incoming
    intro exchange member
    rcases List.mem_cons.mp member with rfl | behind
    · exact delimited
    · exact ih later exchange behind

theorem response_of_malformed {intake : List Incoming} {exchange : Exchange}
    (member : exchange ∈ all service remote intake) {error : ParseError}
    (refused : exchange.incoming = .malformed error) :
    exchange.response = service.rejection error := by
  induction intake generalizing remote with
  | nil => cases member
  | cons incoming rest ih =>
    rcases List.mem_cons.mp member with rfl | behind
    · cases incoming with
      | request request => cases refused
      | malformed other =>
        cases refused
        rfl
    · exact ih behind

/-- The responses are read back one by one, and nothing is left. -/
theorem readAll?_wire {exchanges : List Exchange}
    (delimited : ∀ exchange ∈ exchanges, exchange.Delimited) :
    Client.readAll? (exchanges.map fun exchange => exchange.incoming.isHead)
      (exchanges.flatMap Exchange.wire) = some (exchanges.map Exchange.message, []) := by
  induction exchanges with
  | nil => rfl
  | cons exchange rest ih =>
    have later := ih fun other member => delimited other (List.mem_cons_of_mem _ member)
    have first := Response.read?_message (delimited exchange List.mem_cons_self)
      (rest.flatMap Exchange.wire)
    rw [List.map_cons, List.flatMap_cons, wire_eq, Client.readAll?, message, first, Option.bind_some]
    simp only [later, Option.map_some, List.map_cons]
    rfl

end Exchange

namespace Connection
variable {service : Service} {connection : Connection}

private theorem intake_of_last {delivery : Delivery}
    (last : connection.phase = .writing delivery false) : connection.intake service = [] := by
  have isOpen : connection.phase ≠ .closed := by simp [last]
  have busy : connection.phase ≠ .reading := by simp [last]
  cases fault : (connection.step service).fault? with
  | some message => rw [intake_of_fault isOpen fault, incoming?_of_not_reading busy]; rfl
  | none =>
    have closed : (connection.step service).next.phase = .closed := by simp [step, last, write]
    rw [intake_of_step isOpen fault, incoming?_of_not_reading busy, intake_of_closed closed]
    rfl

/-- A run takes up requests, and behind them perhaps one message that it refuses. -/
theorem exists_requests (service : Service) (connection : Connection) :
    ∃ (requests : List Request) (refused? : Option ParseError),
      connection.intake service =
        requests.map .request ++ refused?.toList.map .malformed := by
  induction connection using run_induction service with
  | closed connection closed => exact ⟨[], none, intake_of_closed closed⟩
  | fault connection message isOpen fault =>
    rw [intake_of_fault isOpen fault]
    cases connection.incoming? with
    | none => exact ⟨[], none, rfl⟩
    | some incoming =>
      cases incoming with
      | request request => exact ⟨[request], none, rfl⟩
      | malformed error => exact ⟨[], some error, rfl⟩
  | step connection isOpen noFault ih =>
    obtain ⟨requests, refused?, later⟩ := ih
    have moved := moves_step service connection
    rw [intake_of_step isOpen noFault]
    generalize connection.step service = step, connection.incoming? = incoming? at moved later ⊢
    cases moved with
    | @take request _ reading parsed =>
      exact ⟨request :: requests, refused?, by rw [later]; rfl⟩
    | @refuse error reading parsed final =>
      -- The refusal is the last to be written, so no requests are behind it.
      exact ⟨[], some error, by rw [intake_of_last rfl]; rfl⟩
    | _ => exact ⟨requests, refused?, later⟩

/-- A client reads what a connection writes as one response for each message that was
taken up, in order, with nothing left over. What is taken up are the messages in the
arriving bytes, as long as no read fails and no head is refused for its length. Where
a body is sent its length is given once, no response is chunked, and the answer to a
HEAD request is the response without its body. -/
theorem written_run_readable (service : Service) {channel : Channel} (willing : channel.Willing)
    {remote : Relay.Remote} (printable : remote.Printable) :
    (∃ (requests : List Request) (refused? : Option ParseError),
      (opened channel remote).intake service =
        requests.map .request ++ refused?.toList.map .malformed) ∧
    ((opened channel remote).Fed →
      .malformed .headersTooLarge ∉ (opened channel remote).intake service →
      (opened channel remote).intake service =
        messages (channel.arrivals.flatMap Arrival.content)) ∧
    Client.readAll? (((opened channel remote).intake service).map Incoming.isHead)
        (written ((opened channel remote).run service).events) =
      some ((Exchange.all service remote ((opened channel remote).intake service)).map
        Exchange.message, []) ∧
    (Exchange.all service remote ((opened channel remote).intake service)).map Exchange.incoming =
      (opened channel remote).intake service ∧
    (∀ exchange ∈ Exchange.all service remote ((opened channel remote).intake service),
      exchange.message.headers.contains "Transfer-Encoding" = false ∧
      (exchange.response.sendsBody exchange.incoming.isHead = true →
        exchange.message.headers.count "Content-Length" = 1) ∧
      ∀ error, exchange.incoming = .malformed error → exchange.message.code ∈ [400, 405, 431]) ∧
    ∀ response, Delivery.ofHead response = .ofResponse { response with body := [] } := by
  have told : Tells (Exchange.all service remote ((opened channel remote).intake service))
      ((opened channel remote).run service).events :=
    @tells_run (opened channel remote) service willing
  have taken := Exchange.map_incoming_all service remote ((opened channel remote).intake service)
  have delimited := Exchange.all_delimited printable service
    ((opened channel remote).intake service)
  refine ⟨exists_requests service _, intake_opened willing, ?_, taken, ?_, Delivery.ofHead_eq⟩
  · have read := Exchange.readAll?_wire delimited
    rw [← written_of_tells told] at read
    rw [← read, ← taken, List.map_map, taken]
    rfl
  · intro exchange member
    have told := delimited exchange member
    refine ⟨told.contains_message, told.count_message, ?_⟩
    intro error refused
    rw [Exchange.message, Exchange.response_of_malformed member refused]
    exact code_rejection service error

/-- A provider whose answer says how it was framed on its own connection. -/
def chunkingRemote : Relay.Remote where
  isReachable := true
  replies := [.answer ⟨200, by decide⟩
    ⟨[⟨"Transfer-Encoding", "chunked"⟩, ⟨"Content-Length", "7"⟩, ⟨"X-Note", "a\tb"⟩]⟩
    ⟨[[1, 2], [3]], .complete⟩]
  seen := []

/-- A client that reads slowly, and sends what is not a request behind one for a head. -/
def slowChannel : Channel where
  arrivals := [.bytes (Utf8.encode "GET /a HTTP/1.1\r\n\r\nHEAD / HT"),
    .bytes (Utf8.encode "TP/1.1\r\n\r\nBREW / HTTP/1.1\r\n\r\n")]
  acceptances := [.upTo 1, .upTo 30]

theorem written_run_readable_of_chunkingRemote :
    slowChannel.Willing ∧ chunkingRemote.Printable ∧
    (opened slowChannel chunkingRemote).intake localService =
      messages (slowChannel.arrivals.flatMap Arrival.content) ∧
    Client.readAll? (((opened slowChannel chunkingRemote).intake localService).map Incoming.isHead)
        (written ((opened slowChannel chunkingRemote).run localService).events) =
      some ((Exchange.all localService chunkingRemote
        ((opened slowChannel chunkingRemote).intake localService)).map Exchange.message, []) := by
  have willing : slowChannel.Willing := by
    constructor
    · intro acceptance member
      rcases List.mem_cons.mp member with rfl | later
      · exact ⟨0, rfl⟩
      · rw [List.mem_singleton.mp later]
        exact ⟨29, rfl⟩
    · intro number
      rfl
  have printable : chunkingRemote.Printable := by
    have isField : ∀ header ∈ [(⟨"Transfer-Encoding", "chunked"⟩ : Header), ⟨"Content-Length", "7"⟩,
        ⟨"X-Note", "a\tb"⟩], Text.isToken header.name = true ∧ header.value.toList.all
          (fun c => c = '\t' ∨ 0x20 ≤ c.toNat ∧ c.toNat < 0x100) = true := by decide
    intro reply member
    rw [List.mem_singleton.mp member]
    intro header stored
    obtain ⟨token, printable⟩ := isField header stored
    exact ⟨token, Text.forall_mem_of_all printable⟩
  have fed : (opened slowChannel chunkingRemote).Fed := by
    intro arrival member
    rcases List.mem_cons.mp member with rfl | later
    · exact ⟨_, by decide, rfl⟩
    · rw [List.mem_singleton.mp later]
      exact ⟨_, by decide, rfl⟩
  have small := @headersTooLarge_not_mem_intake localService
    (opened slowChannel chunkingRemote) (by decide)
  obtain ⟨_, all, read, _⟩ := written_run_readable localService willing printable
  exact ⟨willing, printable, all fed small, read⟩

end Connection

end IdentityRelay.Server
