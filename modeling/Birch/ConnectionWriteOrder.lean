import Birch.ConnectionWriteLoop

/-!
# What the senders and the peer of a connection see

The senders see the result of `DeliverResponse`, and the peer sees the octets
on the socket.  This file determines when the result tells the truth about the
write queue, and proves that the octets are those of the messages that were
reported `Sent`, in this order.
-/

namespace Birch

open Octet

/-! ## The phases of the loop -/

/-- What has been put on the socket of the messages that were received.  A loop
that is about to end may have left a message unfinished. -/
def SentSoFar (side : WriteSide) : Prop :=
  match side.phase with
  | .spawned | .receiving => side.transmitted = side.received.flatMap wire
  | .received message => ∃ earlier, side.received = earlier ++ [message] ∧
      side.transmitted = earlier.flatMap wire
  | .writing unsent =>
      side.transmitted ++ unsent = side.received.flatMap wire
  | .receiveFailed | .ended => side.transmitted <+: side.received.flatMap wire

/-- The loop waits at the queue just when it is suspended in its receive, and
the queue is closed together with the socket. -/
structure InOrder (side : WriteSide) : Prop extends Ordered side where
  waiting : side.writeQueue.waiting = true ↔ side.phase = .receiving
  closed : side.writeQueue.closed = true ↔ side.socketOpen = false
  sent : SentSoFar side

theorem inOrder_initial : InOrder {} where
  toOrdered := ordered_initial
  waiting := by simp [BoundedChannel.empty]
  closed := by simp [BoundedChannel.empty]
  sent := rfl

/-- In every phase, the peer has a part of what was received. -/
theorem SentSoFar.transmitted_received {side : WriteSide}
    (sent : SentSoFar side) :
    side.transmitted <+: side.received.flatMap wire := by
  unfold SentSoFar at sent
  split at sent
  · exact sent ▸ List.prefix_rfl
  · exact sent ▸ List.prefix_rfl
  · obtain ⟨earlier, received, transmitted⟩ := sent
    rw [received, transmitted, List.flatMap_append]
    exact List.prefix_append _ _
  · exact ⟨_, sent⟩
  · exact sent
  · exact sent

theorem InOrder.deliverResponse {side : WriteSide} (inOrder : InOrder side)
    (message : Message) : InOrder (side.deliverResponse message).2 := by
  have ordered := inOrder.toOrdered.deliverResponse message
  obtain ⟨_, waiting, closed, sent⟩ := inOrder
  have handedIff := side.writeQueue.trySend_handed_iff message
  have waitsNoMore := side.writeQueue.trySend_waiting message
  have sameClosed := side.writeQueue.trySend_closed message
  unfold WriteSide.deliverResponse at ordered ⊢
  rcases tried : side.writeQueue.trySend message with ⟨result, writeQueue⟩
  rw [tried] at handedIff waitsNoMore sameClosed ordered
  simp only at handedIff waitsNoMore sameClosed
  cases result with
  | handed =>
      have phase := waiting.mp (handedIff.mp rfl)
      refine ⟨ordered, by simp [waitsNoMore], by rw [sameClosed]; exact closed, ?_⟩
      rw [SentSoFar, phase] at sent
      exact ⟨side.received, rfl, sent⟩
  | buffered =>
      have notReceiving : side.phase ≠ .receiving := by
        intro phase
        cases handedIff.mpr (waiting.mpr phase)
      refine ⟨ordered, ?_, by rw [sameClosed]; exact closed, sent⟩
      simp [waitsNoMore, notReceiving]
  | refused => exact ⟨ordered, waiting, closed, sent⟩

/-- The loop comes to its receive with everything on the socket that it has
received before. -/
theorem InOrder.asyncReceive {side : WriteSide} (inOrder : InOrder side)
    (all : side.transmitted = side.received.flatMap wire) :
    InOrder side.asyncReceive := by
  have ordered := inOrder.toOrdered.asyncReceive
  obtain ⟨_, waiting, closed, _⟩ := inOrder
  have waitsIff := side.writeQueue.receive_waiting_iff
  have failedClosed := side.writeQueue.closed_of_receive_failed
  have sameClosed := side.writeQueue.receive_closed
  unfold WriteSide.asyncReceive at ordered ⊢
  rcases got : side.writeQueue.receive with ⟨result, writeQueue⟩
  rw [got] at waitsIff failedClosed sameClosed ordered
  simp only at waitsIff sameClosed
  cases result with
  | received message =>
      refine ⟨ordered, by simp [waitsIff], by rw [sameClosed]; exact closed, ?_⟩
      exact ⟨side.received, rfl, all⟩
  | waits =>
      exact ⟨ordered, by simp [waitsIff], by rw [sameClosed]; exact closed, all⟩
  | failed =>
      have notWaiting :=
        side.writeQueue.waiting_eq_false_of_closed (failedClosed rfl)
      exact ⟨ordered, by simp [notWaiting], closed, all ▸ List.prefix_rfl⟩

/-- What is written of a message that fits is its line. -/
theorem serialize_fits {side : WriteSide} {message : Message}
    (bufferSize : side.writeBuffer.length = writeBufferSize)
    (fits : FitsWriteBuffer message) :
    (side.serialize message).phase = .writing (wire message) := by
  have room : computeRequiredSpace message ≤ side.writeBuffer.length := by
    rw [bufferSize]
    exact fits
  rw [WriteSide.serialize, writeToBuffer_eq, if_pos room]
  simp [computeRequiredSpace_eq]

/-- A message that does not fit ends the loop. -/
theorem serialize_overruns {side : WriteSide} {message : Message}
    (bufferSize : side.writeBuffer.length = writeBufferSize)
    (overruns : ¬ FitsWriteBuffer message) :
    (side.serialize message).phase = .ended := by
  have noRoom : ¬ computeRequiredSpace message ≤ side.writeBuffer.length := by
    rw [bufferSize]
    exact overruns
  rw [WriteSide.serialize, writeToBuffer_eq, if_neg noRoom]

theorem serialize_frame (side : WriteSide) (message : Message) :
    (side.serialize message).writeQueue = side.writeQueue ∧
      (side.serialize message).socketOpen = side.socketOpen ∧
      (side.serialize message).accepted = side.accepted ∧
      (side.serialize message).received = side.received ∧
      (side.serialize message).transmitted = side.transmitted := by
  unfold WriteSide.serialize
  split <;> exact ⟨rfl, rfl, rfl, rfl, rfl⟩

theorem InOrder.serialize {side : WriteSide} (inOrder : InOrder side)
    {message : Message} (phase : side.phase = .received message) :
    InOrder (side.serialize message) := by
  have ordered := inOrder.toOrdered.serialize message
  obtain ⟨_, waiting, closed, sent⟩ := inOrder
  obtain ⟨queueEq, openEq, _, receivedEq, transmittedEq⟩ :=
    serialize_frame side message
  have notWaiting : side.writeQueue.waiting ≠ true := by
    rw [Ne, waiting, phase]
    simp
  by_cases fits : FitsWriteBuffer message
  · have nextPhase : (side.serialize message).phase = .writing (wire message) :=
      serialize_fits ‹Ordered side›.bufferSize fits
    refine ⟨ordered, ?_, by rw [queueEq, openEq]; exact closed, ?_⟩
    · rw [queueEq, nextPhase]
      simp [notWaiting]
    · rw [SentSoFar, phase] at sent
      obtain ⟨earlier, received, transmitted⟩ := sent
      rw [SentSoFar, nextPhase]
      simp only
      rw [receivedEq, transmittedEq, transmitted, received, List.flatMap_append]
      simp
  · have nextPhase : (side.serialize message).phase = .ended :=
      serialize_overruns ‹Ordered side›.bufferSize fits
    refine ⟨ordered, ?_, by rw [queueEq, openEq]; exact closed, ?_⟩
    · rw [queueEq, nextPhase]
      simp [notWaiting]
    · rw [SentSoFar, nextPhase]
      simp only
      rw [receivedEq, transmittedEq]
      exact sent.transmitted_received

theorem InOrder.closeUnderLock {side : WriteSide} (inOrder : InOrder side) :
    InOrder side.closeUnderLock := by
  have ordered := inOrder.toOrdered.closeUnderLock
  obtain ⟨_, waiting, closed, sent⟩ := inOrder
  unfold WriteSide.closeUnderLock at ordered ⊢
  by_cases isOpen : side.socketOpen = true
  · simp only [isOpen, if_true] at ordered ⊢
    by_cases waited : side.phase = .receiving
    · rw [SentSoFar, waited] at sent
      simp only [waited, if_true] at ordered ⊢
      exact ⟨ordered, by simp [BoundedChannel.close],
        by simp [BoundedChannel.close], sent ▸ List.prefix_rfl⟩
    · simp only [waited, if_false] at ordered ⊢
      exact ⟨ordered, by simp [BoundedChannel.close, waited],
        by simp [BoundedChannel.close], sent⟩
  · simp only [isOpen] at ordered ⊢
    exact ⟨ordered, waiting, closed, sent⟩

theorem InOrder.endLoop {side : WriteSide} (inOrder : InOrder side)
    (notReceiving : side.phase ≠ .receiving) : InOrder side.endLoop := by
  have ordered := inOrder.toOrdered.endLoop
  have closing := inOrder.closeUnderLock
  have phaseEq : side.closeUnderLock.phase ≠ .receiving := by
    unfold WriteSide.closeUnderLock
    split <;> simp [notReceiving]
  have notWaiting : side.closeUnderLock.writeQueue.waiting ≠ true := by
    rw [Ne, closing.waiting]
    exact phaseEq
  refine ⟨ordered, ?_, closing.closed, closing.sent.transmitted_received⟩
  simp [WriteSide.endLoop, notWaiting]

/-- The socket takes the octets in the order in which they are written. -/
theorem InOrder.transmit {side : WriteSide} (inOrder : InOrder side)
    {unsent : Text} (phase : side.phase = .writing unsent) (count : Nat) :
    InOrder { side with
      phase := .writing (unsent.drop count)
      transmitted := side.transmitted ++ unsent.take count } := by
  obtain ⟨ordered, waiting, closed, sent⟩ := inOrder
  rw [phase] at waiting
  rw [SentSoFar, phase] at sent
  refine ⟨⟨ordered.order, by simp, ordered.bufferSize⟩, ?_, closed, ?_⟩
  · simpa using waiting
  · simp only [SentSoFar, List.append_assoc, List.take_append_drop]
    exact sent

theorem InOrder.step {side next : WriteSide} {event : WriteEvent}
    (inOrder : InOrder side) (stepped : side.step event = some next) :
    InOrder next := by
  have sent := inOrder.sent
  cases event with
  | deliver message =>
      obtain rfl := Option.some.inj stepped
      exact inOrder.deliverResponse message
  | start =>
      simp only [WriteSide.step] at stepped
      split at stepped
      · rename_i phase
        obtain rfl := Option.some.inj stepped
        rw [SentSoFar, phase] at sent
        exact inOrder.asyncReceive sent
      · cases stepped
  | resume =>
      simp only [WriteSide.step] at stepped
      split at stepped
      · rename_i message phase
        obtain rfl := Option.some.inj stepped
        exact inOrder.serialize phase
      · rename_i phase
        obtain rfl := Option.some.inj stepped
        exact inOrder.endLoop (by simp [phase])
      · cases stepped
  | transmit count =>
      simp only [WriteSide.step] at stepped
      split at stepped
      · rename_i unsent phase
        split at stepped
        · obtain rfl := Option.some.inj stepped
          exact inOrder.transmit phase count
        · cases stepped
      · cases stepped
  | written =>
      simp only [WriteSide.step] at stepped
      split at stepped
      · rename_i phase
        obtain rfl := Option.some.inj stepped
        rw [SentSoFar, phase] at sent
        exact inOrder.asyncReceive (by simpa using sent)
      · cases stepped
  | writeFailed =>
      simp only [WriteSide.step] at stepped
      split at stepped
      · rename_i unsent phase
        obtain rfl := Option.some.inj stepped
        exact inOrder.endLoop (by simp [phase])
      · cases stepped
  | close =>
      obtain rfl := Option.some.inj stepped
      exact inOrder.closeUnderLock

theorem inOrder_of_run {events : List WriteEvent} {side : WriteSide}
    (ran : writeRun {} events = some side) : InOrder side :=
  EventRuns.run_invariant
    (fun _ _ _ inOrder stepped => InOrder.step inOrder stepped)
    inOrder_initial ran

/-! ## What the peer sees -/

/-- The peer has a part of what was accepted. -/
theorem InOrder.transmitted_accepted {side : WriteSide} (inOrder : InOrder side) :
    side.transmitted <+: side.accepted.flatMap wire := by
  rw [inOrder.order, List.flatMap_append]
  exact inOrder.sent.transmitted_received.trans (List.prefix_append _ _)

theorem within_of_run {events : List WriteEvent} {side : WriteSide}
    (ran : writeRun {} events = some side)
    (fits : ∀ message ∈ side.accepted, FitsWriteBuffer message) :
    WithinBuffer side := by
  have bounded := EventRuns.run_invariant
    (fun _ _ _ bounded stepped => Bounded.step bounded stepped)
    bounded_initial ran
  exact bounded.within fits

/-- As long as every message that was accepted fits into the write buffer, the
octets on the socket are the beginning of the lines of these messages, in the
order in which they were accepted; at most five of them are queued besides
those that the loop has taken out. -/
theorem transmitted_inOrder (events : List WriteEvent) (side : WriteSide)
    (ran : writeRun {} events = some side)
    (fits : ∀ message ∈ side.accepted, FitsWriteBuffer message) :
    WithinBuffer side ∧
      side.transmitted <+: side.accepted.flatMap wire ∧
      side.accepted = side.received ++ side.writeQueue.buffered ∧
      side.writeQueue.buffered.length ≤ 5 := by
  have inOrder := inOrder_of_run ran
  exact ⟨within_of_run ran fits, inOrder.transmitted_accepted, inOrder.order,
    side.writeQueue.bounded⟩

/-! ### A message on its way -/

/-- The loop writes the message, and the socket has taken so many octets. -/
def WriteSide.wrote (side : WriteSide) (message : Message) (count : Nat) :
    WriteSide :=
  { side.serialize message with
    phase := .writing ((wire message).drop count)
    transmitted := side.transmitted ++ (wire message).take count }

theorem wrote_frame (side : WriteSide) (message : Message) (count : Nat) :
    (side.wrote message count).writeQueue = side.writeQueue ∧
      (side.wrote message count).socketOpen = side.socketOpen ∧
      (side.wrote message count).accepted = side.accepted ∧
      (side.wrote message count).transmitted =
        side.transmitted ++ (wire message).take count := by
  obtain ⟨queueEq, openEq, acceptedEq, _⟩ := serialize_frame side message
  exact ⟨queueEq, openEq, acceptedEq, rfl⟩

theorem resume_wrote {side : WriteSide} {message : Message}
    (bufferSize : side.writeBuffer.length = writeBufferSize)
    (fits : FitsWriteBuffer message) (phase : side.phase = .received message) :
    side.step .resume = some (side.wrote message 0) := by
  have nextPhase := serialize_fits bufferSize fits
  obtain ⟨_, _, _, _, transmitted⟩ := serialize_frame side message
  have same : side.wrote message 0 = side.serialize message := by
    rw [WriteSide.wrote, List.drop_zero, List.take_zero, List.append_nil,
      ← nextPhase, ← transmitted]
  simp only [WriteSide.step, phase, same]

theorem transmit_wrote {side : WriteSide} (isOpen : side.socketOpen = true)
    {message : Message} {count more : Nat}
    (within : count + more ≤ (wire message).length) :
    (side.wrote message count).step (.transmit more) =
      some (side.wrote message (count + more)) := by
  obtain ⟨_, openEq, _⟩ := serialize_frame side message
  have enabled : (side.serialize message).socketOpen = true ∧
      more ≤ ((wire message).drop count).length := by
    rw [openEq, List.length_drop]
    exact ⟨isOpen, by omega⟩
  simp only [WriteSide.step, WriteSide.wrote, if_pos enabled, List.drop_drop,
    List.take_add, List.append_assoc]

/-- A message of six octets. -/
def pingMessage : Message where
  command := ascii "PING"

def pongMessage : Message where
  command := ascii "PONG"

theorem fitsWriteBuffer_pingMessage : FitsWriteBuffer pingMessage := by
  have size : computeRequiredSpace pingMessage = 6 := by decide
  rw [FitsWriteBuffer, size, writeBufferSize]
  omega

theorem fitsWriteBuffer_pongMessage : FitsWriteBuffer pongMessage := by
  have size : computeRequiredSpace pongMessage = 6 := by decide
  rw [FitsWriteBuffer, size, writeBufferSize]
  omega

/-- The loop has been handed a message, and another one is queued. -/
def sendingPing : WriteSide :=
  (((WriteSide.asyncReceive {}).deliverResponse pingMessage).2.deliverResponse
    pongMessage).2

/-- The two messages are accepted, and the first one is being written. -/
def sendPing (count : Nat) : List WriteEvent :=
  [.start, .deliver pingMessage, .deliver pongMessage, .resume, .transmit count]

theorem run_sendPing {count : Nat} (within : count ≤ (wire pingMessage).length) :
    writeRun {} (sendPing count) = some (sendingPing.wrote pingMessage count) := by
  have accepted : EventRuns.run WriteSide.step {}
      [.start, .deliver pingMessage, .deliver pongMessage] = some sendingPing := rfl
  have resumed : sendingPing.step .resume =
      some (sendingPing.wrote pingMessage 0) :=
    resume_wrote List.length_replicate fitsWriteBuffer_pingMessage rfl
  have isOpen : sendingPing.socketOpen = true := rfl
  have sent := @transmit_wrote sendingPing isOpen pingMessage 0 count (by omega)
  have split : sendPing count =
      [.start, .deliver pingMessage, .deliver pongMessage] ++
        [.resume, .transmit count] := rfl
  rw [split, writeRun, EventRuns.run_append, accepted, Option.bind_some,
    EventRuns.run, resumed, Option.bind_some, EventRuns.run, sent, Nat.zero_add]
  rfl

theorem fields_sendingPing (count : Nat) :
    (sendingPing.wrote pingMessage count).socketOpen = true ∧
      (sendingPing.wrote pingMessage count).accepted =
        [pingMessage, pongMessage] ∧
      (sendingPing.wrote pingMessage count).transmitted =
        (wire pingMessage).take count := by
  have before : sendingPing.socketOpen = true ∧
      sendingPing.accepted = [pingMessage, pongMessage] ∧
      sendingPing.transmitted = [] := ⟨rfl, rfl, rfl⟩
  obtain ⟨isOpen, accepted, transmitted⟩ := before
  obtain ⟨_, openEq, acceptedEq, transmittedEq⟩ :=
    wrote_frame sendingPing pingMessage count
  rw [transmitted, List.nil_append] at transmittedEq
  exact ⟨openEq.trans isOpen, acceptedEq.trans accepted, transmittedEq⟩

/-- Two messages are accepted, and the socket has taken four octets. -/
theorem transmitted_inOrder_pingMessage :
    ∃ side, writeRun {} (sendPing 4) = some side ∧
      side.accepted = [pingMessage, pongMessage] ∧
      side.transmitted = ascii "PING" ∧
      WithinBuffer side ∧
      side.transmitted <+: side.accepted.flatMap wire ∧
      side.accepted = side.received ++ side.writeQueue.buffered ∧
      side.writeQueue.buffered.length ≤ 5 := by
  obtain ⟨_, accepted, transmitted⟩ := fields_sendingPing 4
  have four : 4 ≤ (wire pingMessage).length ∧
      (wire pingMessage).take 4 = ascii "PING" := by decide
  refine ⟨_, run_sendPing four.1, accepted, transmitted.trans four.2, ?_⟩
  refine transmitted_inOrder (sendPing 4) _ (run_sendPing four.1) ?_
  rw [accepted]
  simp [fitsWriteBuffer_pingMessage, fitsWriteBuffer_pongMessage]

/-! ## What the senders see -/

/-- A message is enqueued, or handed to the loop that waits for one. -/
def TakenIn (side next : WriteSide) (message : Message) : Prop :=
  next.writeQueue.buffered = side.writeQueue.buffered ++ [message] ∨
    side.phase = .receiving ∧ next.phase = .received message

/-- Each result of `DeliverResponse` says what its name says. -/
structure ReportsTruth (side : WriteSide) (message : Message) : Prop where
  sent : (side.deliverResponse message).1 = .sent ↔
    TakenIn side (side.deliverResponse message).2 message
  backpressure : (side.deliverResponse message).1 = .backpressure ↔
    side.writeQueue.closed = false ∧
      side.writeQueue.buffered.length = writeQueueDefaultCapacity ∧
        side.writeQueue.waiting = false
  closed : (side.deliverResponse message).1 = .closed ↔
    side.writeQueue.closed = true

/-- The message is taken in exactly if `try_send` does not refuse it. -/
theorem takenIn_iff {side : WriteSide} (inOrder : InOrder side)
    (message : Message) :
    TakenIn side (side.deliverResponse message).2 message ↔
      (side.writeQueue.trySend message).1 ≠ .refused := by
  have cases := side.writeQueue.trySend_cases message
  have handedIff := side.writeQueue.trySend_handed_iff message
  rw [inOrder.waiting] at handedIff
  unfold WriteSide.deliverResponse TakenIn
  rcases tried : side.writeQueue.trySend message with ⟨result, writeQueue⟩
  rw [tried] at cases handedIff
  rcases cases with ⟨rfl, _⟩ | ⟨rfl, appended⟩ | ⟨rfl, _⟩
  · simp [handedIff.mp rfl]
  · simpa using Or.inl appended
  · have notReceiving : side.phase ≠ .receiving := by
      intro phase
      cases handedIff.mpr phase
    simp [notReceiving]

/-- Whether a message is refused is all that the result depends on. -/
theorem deliverResponse_result (side : WriteSide) (message : Message) :
    (side.deliverResponse message).1 =
      if (side.writeQueue.trySend message).1 = .refused then .backpressure
      else .sent := by
  unfold WriteSide.deliverResponse
  split <;> simp [*]

/-- In every state that a connection can be in, `DeliverResponse` tells the
truth exactly if the write queue has not been closed. -/
theorem reportsTruth_iff (events : List WriteEvent) (side : WriteSide)
    (ran : writeRun {} events = some side) (message : Message) :
    ReportsTruth side message ↔ side.writeQueue.closed = false := by
  have taken := takenIn_iff (inOrder_of_run ran) message
  have refusedIff := side.writeQueue.trySend_refused_iff message
  have result := deliverResponse_result side message
  constructor
  · intro truth
    rw [← Bool.not_eq_true, ← truth.closed, result]
    split <;> simp
  · intro isOpen
    rw [isOpen] at refusedIff
    by_cases refused : (side.writeQueue.trySend message).1 = .refused
    · rw [if_pos refused] at result
      obtain ⟨waiting, full⟩ := (refusedIff.mp refused).resolve_left (by simp)
      refine ⟨?_, ?_, ?_⟩
      · simp [result, taken, refused]
      · simp [result, isOpen, waiting, full]
      · simp [result, isOpen]
    · rw [if_neg refused] at result
      refine ⟨?_, ?_, ?_⟩
      · simp [result, taken, refused]
      · simp only [result, isOpen, true_and, reduceCtorEq, false_iff]
        rintro ⟨full, waiting⟩
        exact refused (refusedIff.mpr (Or.inr ⟨waiting, full⟩))
      · simp [result, isOpen]

theorem reportsTruth_iff_receiving :
    ReportsTruth (WriteSide.asyncReceive {}) pingMessage ↔
      (WriteSide.asyncReceive {}).writeQueue.closed = false :=
  reportsTruth_iff [.start] (WriteSide.asyncReceive {}) rfl pingMessage

/-- A connection that has been closed reports backpressure. -/
theorem not_reportsTruth_closed :
    ∃ side, writeRun {} [.close] = some side ∧
      side.writeQueue.closed = true ∧ side.writeQueue.buffered = [] ∧
      (side.deliverResponse pingMessage).1 = .backpressure ∧
      ¬ ReportsTruth side pingMessage := by
  have result :
      ((WriteSide.closeUnderLock {}).deliverResponse pingMessage).1 =
        .backpressure := rfl
  refine ⟨WriteSide.closeUnderLock {}, rfl, rfl, rfl, result, ?_⟩
  intro truth
  have closed := truth.closed.mpr rfl
  rw [result] at closed
  cases closed

end Birch
