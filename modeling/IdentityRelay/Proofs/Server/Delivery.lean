import IdentityRelay.Server.Delivery

/-! What a delivery needs of the channel: it takes no notice of the reads to come, it
writes the message from its front until it is done or something fails, and on a
channel that takes every write all of the message is written. -/
namespace IdentityRelay.Server
variable {channel : Channel}

/-- A sign that the client's end has failed. A write that takes nothing is one. -/
def Event.isFailure : Event → Bool
  | .wrote [] | .writeFailed _ | .flushFailed _ => true
  | _ => false

namespace Channel

/-- Every write takes something, and no flush fails. -/
structure Willing (channel : Channel) : Prop where
  accepts : ∀ acceptance ∈ channel.acceptances, ∃ count, acceptance = .upTo (count + 1)
  flushes : ∀ number, channel.flushFault? number = none

def withArrivals (channel : Channel) (arrivals : List Arrival) : Channel :=
  { channel with arrivals }

theorem Willing.withArrivals (willing : channel.Willing) (arrivals : List Arrival) :
    (channel.withArrivals arrivals).Willing :=
  ⟨willing.accepts, willing.flushes⟩

end Channel

namespace Delivery

def Sending.withArrivals (sending : Sending) (arrivals : List Arrival) : Sending :=
  { sending with channel := sending.channel.withArrivals arrivals }

theorem send_withArrivals (delivery : Delivery) (channel : Channel) (arrivals : List Arrival) :
    delivery.send (channel.withArrivals arrivals) =
      (delivery.send channel).withArrivals arrivals := by
  simp only [send, Channel.withArrivals, Sending.withArrivals]
  split
  · rfl
  · split <;> rfl

theorem arrivals_send (delivery : Delivery) (channel : Channel) :
    (delivery.send channel).channel.arrivals = channel.arrivals := by
  simp only [send]
  split
  · rfl
  · split <;> rfl

theorem pending_advance (delivery : Delivery) (count : Nat) :
    (delivery.advance count).pending = delivery.pending.drop count := by
  simp only [pending, advance, List.drop_drop]
  by_cases within : delivery.written + count ≤ delivery.wire.length
  · rw [Nat.min_eq_left within]
  · rw [Nat.min_eq_right (Nat.le_of_not_le within), List.drop_length,
      List.drop_eq_nil_of_le (Nat.le_of_not_le within)]

/-- Writing brings bytes from the front of what is pending: all of them, or as many as
were taken before a failure. -/
theorem write_cases (delivery : Delivery) (acceptances : List Acceptance) :
    ∃ writes : List Bytes, (∀ write ∈ writes, write ≠ []) ∧
      ((delivery.write acceptances).fault? = none ∧ writes.flatten = delivery.pending ∧
          (delivery.write acceptances).events = writes.map .wrote ∨
        ∃ failure : Event, failure.isFailure = true ∧
          (delivery.write acceptances).fault?.isSome = true ∧
          writes.flatten <+: delivery.pending ∧
          (delivery.write acceptances).events = writes.map .wrote ++ [failure]) := by
  induction acceptances generalizing delivery with
  | nil =>
    unfold write
    split
    · rename_i done
      exact ⟨[], by simp, .inl ⟨rfl, (List.isEmpty_iff.mp done).symm, rfl⟩⟩
    · rename_i left
      exact ⟨[delivery.pending], by simpa using left, .inl ⟨rfl, by simp, rfl⟩⟩
  | cons acceptance rest ih =>
    unfold write
    split
    · rename_i done
      exact ⟨[], by simp, .inl ⟨rfl, (List.isEmpty_iff.mp done).symm, rfl⟩⟩
    · rename_i left
      cases acceptance with
      | fault message =>
        exact ⟨[], by simp, .inr ⟨.writeFailed message, rfl, rfl, List.nil_prefix, rfl⟩⟩
      | upTo count =>
        cases count with
        | zero => exact ⟨[], by simp, .inr ⟨.wrote [], rfl, rfl, List.nil_prefix, rfl⟩⟩
        | succ count =>
          obtain ⟨writes, some, outcome⟩ := ih (delivery.advance (count + 1))
          rw [pending_advance] at outcome
          refine ⟨delivery.pending.take (count + 1) :: writes, ?_, ?_⟩
          · intro write member
            rcases List.mem_cons.mp member with rfl | later
            · simpa using left
            · exact some write later
          · rcases outcome with ⟨noFault, whole, events⟩ | ⟨failure, failed, fault, part, events⟩
            · refine .inl ⟨noFault, ?_, by simp [events]⟩
              rw [List.flatten_cons, whole, List.take_append_drop]
            · obtain ⟨behind, rest⟩ := part
              refine .inr ⟨failure, failed, fault, ⟨behind, ?_⟩, by simp [events]⟩
              rw [List.flatten_cons, List.append_assoc, rest, List.take_append_drop]

/-- A delivery writes all that is pending and flushes, or it breaks off at a failure. -/
theorem send_cases (delivery : Delivery) (channel : Channel) :
    ∃ writes : List Bytes, (∀ write ∈ writes, write ≠ []) ∧
      ((delivery.send channel).fault? = none ∧ writes.flatten = delivery.pending ∧
          (delivery.send channel).events = writes.map .wrote ++ [.flushed] ∨
        ∃ failure : Event, failure.isFailure = true ∧
          (delivery.send channel).fault?.isSome = true ∧
          writes.flatten <+: delivery.pending ∧
          (delivery.send channel).events = writes.map .wrote ++ [failure]) := by
  obtain ⟨writes, some, ⟨noFault, whole, events⟩ | ⟨failure, failed, fault, part, events⟩⟩ :=
    write_cases delivery channel.acceptances
  · refine ⟨writes, some, ?_⟩
    simp only [send, noFault, events]
    cases channel.flushFault? channel.flushes with
    | none => exact .inl ⟨rfl, whole, rfl⟩
    | some message =>
      exact .inr ⟨.flushFailed message, rfl, rfl, whole ▸ List.prefix_refl _, rfl⟩
  · obtain ⟨message, found⟩ := Option.isSome_iff_exists.mp fault
    refine ⟨writes, some, .inr ⟨failure, failed, ?_⟩⟩
    simp only [send, found, events]
    exact ⟨rfl, part, trivial⟩

theorem write_of_willing (delivery : Delivery) {acceptances : List Acceptance}
    (willing : ∀ acceptance ∈ acceptances, ∃ count, acceptance = .upTo (count + 1)) :
    (delivery.write acceptances).fault? = none ∧
      ∀ acceptance ∈ (delivery.write acceptances).acceptances, acceptance ∈ acceptances := by
  induction acceptances generalizing delivery with
  | nil =>
    unfold write
    split <;> exact ⟨rfl, fun _ member => member⟩
  | cons acceptance rest ih =>
    unfold write
    split
    · exact ⟨rfl, fun _ member => member⟩
    · obtain ⟨count, rfl⟩ := willing acceptance List.mem_cons_self
      obtain ⟨noFault, left⟩ := ih (delivery.advance (count + 1)) fun other member =>
        willing other (List.mem_cons_of_mem _ member)
      exact ⟨noFault, fun other member => List.mem_cons_of_mem _ (left other member)⟩

/-- On a willing channel a message is written and flushed, and the channel stays willing. -/
theorem send_of_willing (delivery : Delivery) (willing : channel.Willing) :
    (delivery.send channel).fault? = none ∧ (delivery.send channel).channel.Willing ∧
      ∃ writes : List Bytes,
        (delivery.send channel).events = writes.map .wrote ++ [.flushed] ∧
        writes.flatten = delivery.pending := by
  obtain ⟨noFault, left⟩ := write_of_willing delivery willing.accepts
  have sent : (delivery.send channel).fault? = none := by
    simp only [send, noFault, willing.flushes]
  refine ⟨sent, ?_, ?_⟩
  · simp only [send, noFault, willing.flushes]
    exact ⟨fun acceptance member => willing.accepts acceptance (left acceptance member),
      willing.flushes⟩
  · obtain ⟨writes, _, ⟨_, whole, events⟩ | ⟨_, _, fault, _⟩⟩ := send_cases delivery channel
    · exact ⟨writes, events, whole⟩
    · rw [sent] at fault
      cases fault

end Delivery

end IdentityRelay.Server
