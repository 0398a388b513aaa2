import IdentityRelay.Proofs.Server.Stream

/-! Deliveries that are taken up again. A delivery is a sequence of single operations on the
channel, and after each of them the channel has taken exactly the bytes of the message up to
the position that is kept, whatever failed before and however often the delivery is tried. -/
namespace IdentityRelay.Server
open IdentityRelay.Http

def Event.isFlush : Event → Bool
  | .flushed | .flushFailed _ => true
  | _ => false

namespace Delivery

inductive Verdict where
  | goesOn
  | done
  | failed (message : String)
  deriving DecidableEq, Repr

def Verdict.fault? : Verdict → Option String
  | .failed message => some message
  | _ => none

structure Operation where
  event : Event
  verdict : Verdict
  delivery : Delivery
  channel : Channel

/-- The next operation of a delivery: to write what is pending or, where nothing is, to flush. -/
def operate (delivery : Delivery) (channel : Channel) : Operation :=
  if delivery.pending.isEmpty then
    let flushed := { channel with flushes := channel.flushes + 1 }
    match channel.flushFault? channel.flushes with
    | some message => ⟨.flushFailed message, .failed message, delivery, flushed⟩
    | none => ⟨.flushed, .done, delivery, flushed⟩
  else
    match channel.acceptances with
    | [] => ⟨.wrote delivery.pending, .goesOn, delivery.advance delivery.wire.length, channel⟩
    | .fault message :: rest =>
      ⟨.writeFailed message, .failed message, delivery, { channel with acceptances := rest }⟩
    | .upTo 0 :: rest =>
      ⟨.wrote [], .failed "connection closed while writing", delivery,
        { channel with acceptances := rest }⟩
    | .upTo (count + 1) :: rest =>
      ⟨.wrote (delivery.pending.take (count + 1)), .goesOn, delivery.advance (count + 1),
        { channel with acceptances := rest }⟩

/-- What has become of a delivery, and all that happened on the way. -/
structure Moment where
  delivery : Delivery
  channel : Channel
  events : List Event

namespace Moment

def first (delivery : Delivery) (channel : Channel) : Moment := ⟨delivery, channel, []⟩

def next (moment : Moment) : Moment :=
  let operation := moment.delivery.operate moment.channel
  ⟨operation.delivery, operation.channel, moment.events ++ [operation.event]⟩

def after (moment : Moment) : Nat → Moment
  | 0 => moment
  | count + 1 => (moment.after count).next

def retry (moment : Moment) : Moment :=
  let sending := moment.delivery.send moment.channel
  ⟨sending.delivery, sending.channel, moment.events ++ sending.events⟩

def retried (moment : Moment) : Nat → Moment
  | 0 => moment
  | tries + 1 => (moment.retried tries).retry

end Moment

section
variable {delivery : Delivery} {channel : Channel}

theorem pending_eq_nil_iff : delivery.pending = [] ↔ delivery.written = delivery.wire.length := by
  rw [pending, List.drop_eq_nil_iff]
  exact ⟨Nat.le_antisymm delivery.written_le, fun same => Nat.le_of_eq same.symm⟩

inductive Operates (delivery : Delivery) : Operation → Prop where
  | write {left : Channel} {count : Nat} (pending : delivery.pending ≠ []) (some : 0 < count) :
      Operates delivery
        ⟨.wrote (delivery.pending.take count), .goesOn, delivery.advance count, left⟩
  | writeNothing {left : Channel} (pending : delivery.pending ≠ []) :
      Operates delivery ⟨.wrote [], .failed "connection closed while writing", delivery, left⟩
  | failToWrite {left : Channel} {message : String} (pending : delivery.pending ≠ []) :
      Operates delivery ⟨.writeFailed message, .failed message, delivery, left⟩
  | flush {left : Channel} (whole : delivery.pending = []) :
      Operates delivery ⟨.flushed, .done, delivery, left⟩
  | failToFlush {left : Channel} {message : String} (whole : delivery.pending = []) :
      Operates delivery ⟨.flushFailed message, .failed message, delivery, left⟩

theorem operates_operate (delivery : Delivery) (channel : Channel) :
    Operates delivery (delivery.operate channel) := by
  unfold operate
  split
  · rename_i empty
    have whole := List.isEmpty_iff.mp empty
    cases channel.flushFault? channel.flushes with
    | some message => exact .failToFlush whole
    | none => exact .flush whole
  · rename_i filled
    have pending : delivery.pending ≠ [] := by simpa using filled
    split
    · -- Without a limit all that is pending is taken.
      have all : delivery.pending.take delivery.wire.length = delivery.pending := by
        rw [Delivery.pending, List.take_of_length_le]
        rw [List.length_drop]
        exact Nat.sub_le _ _
      have some : 0 < delivery.wire.length := by
        have := List.length_pos_iff.mpr pending
        rw [Delivery.pending, List.length_drop] at this
        omega
      have writes : Operates delivery ⟨.wrote (delivery.pending.take delivery.wire.length), _,
          delivery.advance delivery.wire.length, channel⟩ :=
        .write pending some
      rwa [all] at writes
    · exact .failToWrite pending
    · exact .writeNothing pending
    · exact .write pending (Nat.succ_pos _)

/-- Only a message of which all is written is flushed. -/
theorem Operates.written_of_isFlush {operation : Operation} (operates : Operates delivery operation)
    (flushes : operation.event.isFlush = true) : delivery.written = delivery.wire.length := by
  cases operates with
  | flush whole => exact pending_eq_nil_iff.mp whole
  | failToFlush whole => exact pending_eq_nil_iff.mp whole
  | _ => cases flushes

/-- What is taken of a message that is not finished is not nothing, or the position stays. -/
theorem Operates.delivery_of_wrote_nil {operation : Operation}
    (operates : Operates delivery operation) (nothing : operation.event = .wrote []) :
    operation.delivery = delivery ∧
      operation.verdict = .failed "connection closed while writing" := by
  cases operates with
  | write pending some =>
    have none := Event.wrote.inj nothing
    simp only [List.take_eq_nil_iff, pending, or_false] at none
    omega
  | writeNothing pending => exact ⟨rfl, rfl⟩
  | _ => cases nothing

private theorem write_of_done (whole : delivery.pending = []) (acceptances : List Acceptance) :
    delivery.write acceptances = ⟨delivery, acceptances, [], none⟩ := by
  unfold write
  cases acceptances <;> simp [whole]

/-- A delivery goes on with what its first operation leaves, unless that ends it. -/
theorem send_eq (delivery : Delivery) (channel : Channel) :
    delivery.send channel =
      let operation := delivery.operate channel
      let rest := operation.delivery.send operation.channel
      if operation.verdict = .goesOn then { rest with events := operation.event :: rest.events }
      else
        ⟨operation.delivery, operation.channel, [operation.event], operation.verdict.fault?⟩ := by
  by_cases whole : delivery.pending = []
  · simp only [operate, whole, List.isEmpty_nil, ↓reduceIte, send, write_of_done whole]
    cases channel.flushFault? channel.flushes <;> rfl
  · have left : delivery.pending.isEmpty = false := by simpa using whole
    cases acceptances : channel.acceptances with
    | nil =>
      have all : (delivery.advance delivery.wire.length).pending = [] := by
        rw [pending_advance, List.drop_eq_nil_iff, pending, List.length_drop]
        exact Nat.sub_le _ _
      simp only [operate, left, acceptances, Bool.false_eq_true, ↓reduceIte, send,
        write_of_done all, write]
      cases channel.flushFault? channel.flushes <;> rfl
    | cons acceptance rest =>
      simp only [operate, left, acceptances, Bool.false_eq_true, ↓reduceIte]
      cases acceptance with
      | fault message => simp [send, acceptances, write, left, Verdict.fault?]
      | upTo count =>
        cases count with
        | zero => simp [send, acceptances, write, left, Verdict.fault?]
        | succ count =>
          simp only [send, acceptances, write, left, Bool.false_eq_true, ↓reduceIte]
          cases ((delivery.advance (count + 1)).write rest).fault? with
          | some message => rfl
          | none => cases channel.flushFault? channel.flushes <;> rfl

theorem send_of_goesOn (goesOn : (delivery.operate channel).verdict = .goesOn) :
    delivery.send channel =
      let operation := delivery.operate channel
      let rest := operation.delivery.send operation.channel
      { rest with events := operation.event :: rest.events } := by
  rw [send_eq]
  exact if_pos goesOn

theorem send_of_ended (ended : (delivery.operate channel).verdict ≠ .goesOn) :
    delivery.send channel =
      let operation := delivery.operate channel
      ⟨operation.delivery, operation.channel, [operation.event], operation.verdict.fault?⟩ := by
  rw [send_eq]
  exact if_neg ended

private theorem take_written_advance (delivery : Delivery) (count : Nat) :
    delivery.wire.take (delivery.advance count).written =
      delivery.wire.take delivery.written ++ delivery.pending.take count := by
  rw [pending, ← List.take_add, advance]
  exact List.take_eq_take_min.symm

/-- What holds of a delivery that ends with its next operation, and before an operation whenever
it holds behind it, holds of every delivery. -/
@[elab_as_elim]
theorem operate_induction {motive : Delivery → Channel → Prop}
    (ends : ∀ delivery channel, (delivery.operate channel).verdict ≠ .goesOn →
      motive delivery channel)
    (goesOn : ∀ delivery channel, (delivery.operate channel).verdict = .goesOn →
      motive (delivery.operate channel).delivery (delivery.operate channel).channel →
      motive delivery channel)
    (delivery : Delivery) (channel : Channel) : motive delivery channel := by
  induction size : delivery.pending.length using Nat.strongRecOn generalizing delivery channel with
  | ind size ih =>
    subst size
    by_cases more : (delivery.operate channel).verdict = .goesOn
    · refine goesOn delivery channel more (ih _ ?_ _ _ rfl)
      have operates := operates_operate delivery channel
      generalize delivery.operate channel = operation at operates more
      cases operates with
      | write pending some =>
        have := List.length_pos_iff.mpr pending
        rw [pending_advance, List.length_drop]
        omega
      | _ => cases more
    · exact ends delivery channel more

/-- A delivery succeeds when nothing is left to be written and the flush succeeds. -/
theorem flushed_of_send (sound : (delivery.send channel).fault? = none) :
    (delivery.send channel).delivery.pending = [] ∧
      (delivery.send channel).events.getLast? = some .flushed := by
  induction delivery, channel using operate_induction with
  | ends delivery channel ended =>
    have operates := operates_operate delivery channel
    rw [send_of_ended ended] at sound ⊢
    generalize delivery.operate channel = operation at operates ended sound ⊢
    cases operates with
    | write => contradiction
    | flush whole => exact ⟨whole, rfl⟩
    | _ => cases sound
  | goesOn delivery channel more ih =>
    rw [send_of_goesOn more] at sound ⊢
    obtain ⟨whole, last⟩ := ih sound
    refine ⟨whole, ?_⟩
    rw [List.getLast?_cons, last]
    rfl

/-- A write that takes nothing ends a delivery. -/
theorem fault_of_wrote_nil (stalled : .wrote [] ∈ (delivery.send channel).events) :
    (delivery.send channel).fault? = some "connection closed while writing" ∧
      (delivery.send channel).events.getLast? = some (.wrote []) := by
  induction delivery, channel using operate_induction with
  | ends delivery channel ended =>
    have operates := operates_operate delivery channel
    rw [send_of_ended ended] at stalled ⊢
    generalize delivery.operate channel = operation at operates ended stalled ⊢
    cases operates with
    | write => contradiction
    | writeNothing pending => exact ⟨rfl, rfl⟩
    | _ => cases List.mem_singleton.mp stalled
  | goesOn delivery channel more ih =>
    rw [send_of_goesOn more] at stalled ⊢
    have later : .wrote [] ∈ ((delivery.operate channel).delivery.send
        (delivery.operate channel).channel).events := by
      rcases List.mem_cons.mp stalled with own | later
      · have failed := ((operates_operate delivery channel).delivery_of_wrote_nil own.symm).2
        rw [more] at failed
        cases failed
      · exact later
    obtain ⟨fault, last⟩ := ih later
    refine ⟨fault, ?_⟩
    rw [List.getLast?_cons, last]
    rfl

theorem send_of_done (whole : delivery.pending = []) :
    (delivery.send channel).delivery = delivery ∧
      ((delivery.send channel).events = [.flushed] ∨
        ∃ message, (delivery.send channel).events = [.flushFailed message]) := by
  have operates := operates_operate delivery channel
  rw [send_eq]
  generalize delivery.operate channel = operation at operates ⊢
  cases operates with
  | flush => exact ⟨rfl, .inl rfl⟩
  | @failToFlush _ message _ => exact ⟨rfl, .inr ⟨message, rfl⟩⟩
  | _ => contradiction

end

namespace Moment
variable {moment : Moment} {wire : Bytes}

theorem after_next (moment : Moment) (count : Nat) :
    moment.next.after count = moment.after (count + 1) := by
  induction count with
  | zero => rfl
  | succ count ih => exact congrArg Moment.next ih

theorem after_after (moment : Moment) (first second : Nat) :
    (moment.after first).after second = moment.after (first + second) := by
  induction second with
  | zero => rfl
  | succ second ih => rw [after, ih, ← Nat.add_assoc, after]

theorem length_events_after (moment : Moment) (count : Nat) :
    (moment.after count).events.length = moment.events.length + count := by
  induction count with
  | zero => rfl
  | succ count ih => rw [after, next, List.length_append, ih, List.length_singleton, Nat.add_assoc]

theorem exists_retry_eq (moment : Moment) : ∃ count, moment.retry = moment.after count := by
  obtain ⟨delivery, channel, events⟩ := moment
  induction delivery, channel using operate_induction generalizing events with
  | ends delivery channel ended =>
    refine ⟨1, ?_⟩
    rw [retry, send_of_ended ended]
    rfl
  | goesOn delivery channel more ih =>
    obtain ⟨count, same⟩ := ih (events ++ [(delivery.operate channel).event])
    refine ⟨count + 1, ?_⟩
    rw [← after_next]
    rw [retry, send_of_goesOn more]
    rw [retry, List.append_assoc] at same
    exact same

/-- Tries are operations, as many as there are events. -/
theorem retried_first (delivery : Delivery) (channel : Channel) (tries : Nat) :
    (first delivery channel).retried tries =
      (first delivery channel).after ((first delivery channel).retried tries).events.length := by
  have whole : ∃ count, (first delivery channel).retried tries =
      (first delivery channel).after count := by
    induction tries with
    | zero => exact ⟨0, rfl⟩
    | succ tries ih =>
      obtain ⟨count, same⟩ := ih
      obtain ⟨more, again⟩ := exists_retry_eq ((first delivery channel).retried tries)
      refine ⟨count + more, ?_⟩
      rw [retried, again, same, after_after]
  obtain ⟨count, same⟩ := whole
  have length := length_events_after (first delivery channel) count
  rw [← same, first, List.length_nil, Nat.zero_add, ← first] at length
  rw [length]
  exact same

/-- The channel has taken the bytes of a message up to the position. -/
structure Faithful (wire : Bytes) (moment : Moment) : Prop where
  same : moment.delivery.wire = wire
  taken : Server.written moment.events = wire.take moment.delivery.written

theorem Faithful.next (faithful : moment.Faithful wire) : moment.next.Faithful wire := by
  obtain ⟨same, taken⟩ := faithful
  have silent {event : Event} (none : event.bytes = []) :
      Server.written (moment.events ++ [event]) = wire.take moment.delivery.written := by
    rw [Server.written, List.flatMap_append, List.flatMap_singleton, none, List.append_nil]
    exact taken
  have operates := operates_operate moment.delivery moment.channel
  unfold Moment.next
  generalize moment.delivery.operate moment.channel = operation at operates ⊢
  cases operates with
  | @write left count pending some =>
    refine ⟨same, ?_⟩
    subst same
    rw [take_written_advance, ← taken, Server.written, List.flatMap_append,
      List.flatMap_singleton]
    rfl
  | _ => exact ⟨same, silent rfl⟩

theorem Faithful.after (faithful : moment.Faithful wire) (count : Nat) :
    (moment.after count).Faithful wire := by
  induction count with
  | zero => exact faithful
  | succ count ih => exact ih.next

theorem Faithful.first {delivery : Delivery} (begins : delivery.written = 0) (channel : Channel) :
    (first delivery channel).Faithful delivery.wire := by
  refine ⟨rfl, ?_⟩
  rw [Moment.first, begins, List.take_zero]
  rfl

end Moment

/-- A response is written once. However often its delivery is tried, and whatever fails or is
taken only in part, after each operation the channel has taken the bytes of the message up to the
position, in order and without gaps. The flush comes behind the last byte. A try succeeds only
with a flush that succeeds, and so it does on a willing channel; a write that takes nothing fails
the try and moves nothing, and once all is written a try only flushes. -/
theorem written_once (method : Method) (response : Response) (channel : Channel) :
    let start := Moment.first (answering method response) channel
    (∀ tries, start.retried tries = start.after (start.retried tries).events.length) ∧
    (∀ count,
      let moment := start.after count
      let operation := moment.delivery.operate moment.channel
      moment.delivery.wire = (answering method response).wire ∧
      Server.written moment.events =
        (answering method response).wire.take moment.delivery.written ∧
      (operation.event.isFlush = true → moment.delivery.written = moment.delivery.wire.length) ∧
      (operation.event = .wrote [] → operation.delivery = moment.delivery)) ∧
    ∀ tries,
      let moment := start.retried tries
      let sending := moment.delivery.send moment.channel
      (sending.fault? = none →
        sending.delivery.written = sending.delivery.wire.length ∧
        sending.events.getLast? = some .flushed) ∧
      (moment.channel.Willing →
        sending.fault? = none ∧
        sending.delivery.written = sending.delivery.wire.length ∧
        sending.events.getLast? = some .flushed) ∧
      (.wrote [] ∈ sending.events →
        sending.fault? = some "connection closed while writing" ∧
        sending.events.getLast? = some (.wrote [])) ∧
      (moment.delivery.written = moment.delivery.wire.length →
        sending.delivery = moment.delivery ∧
        (sending.events = [.flushed] ∨ ∃ message, sending.events = [.flushFailed message])) := by
  have begins : (answering method response).written = 0 := by
    unfold answering
    split <;> rfl
  refine ⟨Moment.retried_first _ channel, ?_, ?_⟩
  · intro count
    obtain ⟨same, taken⟩ := (Moment.Faithful.first begins channel).after count
    refine ⟨same, taken, ?_, ?_⟩
    · intro flushes
      exact (operates_operate _ _).written_of_isFlush flushes
    · intro nothing
      exact ((operates_operate _ _).delivery_of_wrote_nil nothing).1
  · intro tries moment sending
    have done : sending.fault? = none →
        sending.delivery.written = sending.delivery.wire.length ∧
          sending.events.getLast? = some .flushed := by
      intro sound
      obtain ⟨whole, flushed⟩ := flushed_of_send sound
      exact ⟨pending_eq_nil_iff.mp whole, flushed⟩
    refine ⟨done, ?_, fault_of_wrote_nil, ?_⟩
    · intro willing
      have sound := (send_of_willing moment.delivery willing).1
      exact ⟨sound, done sound⟩
    · intro whole
      exact send_of_done (pending_eq_nil_iff.mpr whole)

/-- A short write, one that takes nothing, one that fails, and a flush that fails. -/
example : ((Moment.first (ofWire [1, 2, 3, 4]) {
      arrivals := []
      acceptances := [.upTo 3, .upTo 0, .fault "reset"]
      flushFault? := fun flushes => if flushes = 0 then some "full" else none }).retried 5).events =
    [.wrote [1, 2, 3], .wrote [], .writeFailed "reset", .wrote [4], .flushFailed "full", .flushed,
      .flushed] := by
  decide

end Delivery

end IdentityRelay.Server
