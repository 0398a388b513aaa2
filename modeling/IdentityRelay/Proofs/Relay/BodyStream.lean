import IdentityRelay.Proofs.Relay.Identity
import IdentityRelay.Proofs.Relay.Transparency

/-! The body of an answer as it arrives. Where it was cut into pieces leaves no trace: only
the bytes that came and the way they ended count. What came before a body broke off is relayed
like a whole body, with a length of its own. -/
namespace IdentityRelay.Relay
open IdentityRelay.Http

/-- Why there is no answer where a body ended in this way before any byte of it came. -/
def BodyEnd.failure? : BodyEnd → Option Failure
  | .complete => none
  | .timedOut => some .timeout
  | .unreadable => some (.protocol "unreadable body: ")

theorem BodyEnd.failure?_eq_none_iff {ending : BodyEnd} :
    ending.failure? = none ↔ ending = .complete := by
  cases ending <;> simp [failure?]

theorem BodyEnd.failure?_eq_some_iff {ending : BodyEnd} {failure : Failure} :
    ending.failure? = some failure ↔
      ending = .timedOut ∧ failure = .timeout ∨
        ending = .unreadable ∧ failure = .protocol "unreadable body: " := by
  cases ending <;> simp [failure?, eq_comm]

namespace BodyStream
variable {stream : BodyStream} {body : Bytes} {failure : Failure}

def settle (received : Bytes) (ending : BodyEnd) : Except Failure Bytes :=
  match ending.failure? with
  | some failure => if received = [] then .error failure else .ok received
  | none => .ok received

/-- Each pass of the loop puts one piece behind what was received before, so it makes no
difference to receive all of them at once. -/
theorem collect_eq (received : Bytes) (ending : BodyEnd) (pieces : List Bytes) :
    collect received ending pieces = settle (received ++ pieces.flatten) ending := by
  induction pieces generalizing received with
  | nil =>
    rw [List.flatten_nil, List.append_nil]
    cases ending <;> simp [collect, settle, BodyEnd.failure?]
  | cons piece rest ih =>
    rw [collect, ih, List.flatten_cons, List.append_assoc]

theorem read_eq (stream : BodyStream) :
    stream.read = settle stream.pieces.flatten stream.ending := collect_eq [] _ _

theorem read_eq_ok_iff :
    stream.read = .ok body ↔
      body = stream.pieces.flatten ∧ (stream.ending = .complete ∨ stream.pieces.flatten ≠ []) := by
  rw [read_eq, settle, ← BodyEnd.failure?_eq_none_iff]
  cases stream.ending.failure? with
  | none => simp [eq_comm]
  | some failure => by_cases empty : stream.pieces.flatten = [] <;> simp [empty, eq_comm]

theorem read_eq_error_iff :
    stream.read = .error failure ↔
      stream.pieces.flatten = [] ∧ stream.ending.failure? = some failure := by
  rw [read_eq, settle]
  cases stream.ending.failure? with
  | none => simp
  | some other => by_cases empty : stream.pieces.flatten = [] <;> simp [empty]

def relayed (stream : BodyStream) (status : Status) (headers : Headers) (method : Method) :
    Except Failure Response :=
  stream.read.map fun body => ({ status, headers, body } : Answer).response method

/-- What a client lets arrive of a body: nothing of it after a HEAD request or under a status
that goes without. -/
def expected (stream : BodyStream) (status : Status) (method : Method) : BodyStream :=
  if method == .head || !status.allowsBody then ⟨[], .complete⟩ else stream

end BodyStream

structure Answered (provider : Provider) (remote : Remote) (request : Request) (status : Status)
    (headers : Headers) (stream : BodyStream) : Prop where
  sent : ∃ outbound, Outbound.prepare provider request = .ok outbound ∧ outbound.fault? = none ∧
    outbound.isWithinLimit = true
  reachable : remote.isReachable = true
  reply : remote.replies.head? = some (.answer status headers stream)

theorem Answered.result_eq {provider : Provider} {remote : Remote} {request : Request}
    {status : Status} {headers : Headers} {stream : BodyStream}
    (answered : Answered provider remote request status headers stream) :
    (relay provider remote request).result =
      (stream.expected status request.method).relayed status headers request.method := by
  obtain ⟨outbound, prepared, sendable, short⟩ := answered.sent
  have method : outbound.method = request.method := by
    obtain ⟨_, _, rfl⟩ := Outbound.exists_url_of_prepare prepared
    rfl
  have called : (remote.call outbound).1 =
      Remote.outcome request.method (.answer status headers stream) := by
    rw [Remote.call, short, answered.reachable, answered.reply, method]
    rfl
  simp only [relay, prepared, sendable, called, Remote.outcome, BodyStream.relayed,
    BodyStream.expected]
  cases BodyStream.read _ <;> rfl

/-- What arrives of a body is the same however it is cut into pieces: all of the bytes that
came, unless none came before it broke off, and then the way it broke off says why there is no
answer. All that did come is relayed, with the status and the fields of the answer and with a
length of its own where a body is due; and it is in this way that a request is answered. -/
theorem relayed_of_pieces (stream : BodyStream) :
    (∀ other : BodyStream, other.pieces.flatten = stream.pieces.flatten →
      other.ending = stream.ending → other.read = stream.read) ∧
    (∀ body, stream.read = .ok body ↔
      body = stream.pieces.flatten ∧ (stream.ending = .complete ∨ stream.pieces.flatten ≠ [])) ∧
    (∀ failure, stream.read = .error failure ↔
      stream.pieces.flatten = [] ∧ (stream.ending = .timedOut ∧ failure = .timeout ∨
        stream.ending = .unreadable ∧ failure = .protocol "unreadable body: ")) ∧
    (stream.pieces.flatten ≠ [] → ∀ status headers method, ∃ response,
      stream.relayed status headers method = .ok response ∧
      response.status = status ∧ response.body = stream.pieces.flatten ∧
      response.headers.toList =
        headers.toList.filter (fun header =>
          ["content-encoding", "content-length", "transfer-encoding", "connection"].all
            fun name => !Text.sameName header.name name) ++
          if method ≠ .head ∧ status.allowsBody = true then
            [⟨"Content-Length", toString stream.pieces.flatten.length⟩]
          else []) ∧
    (∀ provider remote request status headers,
      Answered provider remote request status headers stream →
      (relay provider remote request).result =
        (stream.expected status request.method).relayed status headers request.method) := by
  refine ⟨?_, fun _ => BodyStream.read_eq_ok_iff, ?_, ?_, ?_⟩
  · intro other sameBytes sameEnd
    rw [BodyStream.read_eq, BodyStream.read_eq, sameBytes, sameEnd]
  · intro failure
    rw [BodyStream.read_eq_error_iff, BodyEnd.failure?_eq_some_iff]
  · intro some status headers method
    have read : stream.read = .ok stream.pieces.flatten :=
      BodyStream.read_eq_ok_iff.mpr ⟨rfl, .inr some⟩
    refine ⟨_, by rw [BodyStream.relayed, read]; rfl, rfl, rfl, ?_⟩
    rw [Answer.toList_response]
    exact congrArg (List.filter · _ ++ _) (funext Answer.isRelayed_eq)
  · intro provider remote request status headers answered
    exact answered.result_eq

/-- A body of three bytes that came between empty pieces before the time was over. -/
def brokenBody : BodyStream := ⟨[[], [0x61, 0x62], [], [0x63]], .timedOut⟩

def plainProvider : Provider where
  baseUrl := {
    scheme := "http"
    authority? := some { host? := some (.name "h") }
    path := "/"
    query? := none
    fragment? := none }
  userId := "u"
  appKey? := none

def rootRequest : Request where
  method := .get
  target := "/"
  version := "HTTP/1.1"
  headers := .empty
  body := []

def announced : Headers := ⟨[⟨"content-length", "9"⟩, ⟨"x-a", "b"⟩]⟩

def breakingRemote : Remote where
  isReachable := true
  replies := [.answer .internalServerError announced brokenBody]
  seen := []

theorem relayed_of_pieces_of_brokenBody :
    brokenBody.read = (⟨[[0x61, 0x62, 0x63]], .timedOut⟩ : BodyStream).read ∧
      ∃ response, (relay plainProvider breakingRemote rootRequest).result = .ok response ∧
        response.body = [0x61, 0x62, 0x63] ∧
        response.headers.toList = [⟨"x-a", "b"⟩, ⟨"Content-Length", "3"⟩] := by
  obtain ⟨same, _, _, relays, answers⟩ := relayed_of_pieces brokenBody
  have answered : Answered plainProvider breakingRemote rootRequest .internalServerError
      announced brokenBody :=
    { sent := ⟨⟨.get, plainProvider.baseUrl, ⟨[⟨userIdHeader, "u"⟩]⟩, []⟩, by rfl,
        by decide +kernel, by decide +kernel⟩
      reachable := rfl
      reply := rfl }
  obtain ⟨response, relayed, _, body, fields⟩ :=
    relays (by decide) .internalServerError announced .get
  have whole : brokenBody.read = (⟨[[0x61, 0x62, 0x63]], .timedOut⟩ : BodyStream).read :=
    (same _ rfl rfl).symm
  refine ⟨whole, response, (answers _ _ _ _ _ answered).trans relayed, body, ?_⟩
  rw [fields]
  decide

end IdentityRelay.Relay
