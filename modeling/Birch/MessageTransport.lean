import Birch.ConnectionWriteOrder
import Birch.MessageRelay

/-!
# From one connection to another

The write loop of one connection and the read loop of another one at the other
end of the socket: however the writes and the reads are cut, the messages that
are read are the ones that were reported `Sent`, in this order.  As long as
nothing closes the connection, the write loop comes to its end with everything
on the socket, whatever it had accepted before.
-/

namespace Birch

open Octet IncrementalScanner

variable {platform : Platform}

/-! ## What the peer reads -/

/-- The message fits into the write buffer and is read back as itself. -/
structure Deliverable (platform : Platform) (message : Message) : Prop where
  fits : FitsWriteBuffer message
  readable : Readable platform message

/-- The readers that the lines of the messages end in. -/
theorem exists_finals_of_readable {messages : List Message}
    (readable : ∀ message ∈ messages, Readable platform message) :
    ∃ finals, List.Forall₂ ((lineScanner platform).Accepts {})
        (messages.map wire) finals ∧
      finals.map Reader.message = messages := by
  have wellFormed : List.Forall₂ (ParsesTo platform) (messages.map wire)
      messages := by
    induction messages with
    | nil => exact .nil
    | cons message messages ih =>
        obtain ⟨here, later⟩ := List.forall_mem_cons.mp readable
        exact .cons here.parsesTo (ih later)
  exact exists_finals wellFormed

/-- Reads that bring a beginning of the lines notify a beginning of the
messages. -/
theorem notified_prefix_of_reads {messages : List Message}
    (readable : ∀ message ∈ messages, Readable platform message)
    {reads : List Read}
    (brought : (reads.map Read.octets).flatten <+: messages.flatMap wire) :
    (runReadLoop platform {} reads).notified <+: messages := by
  obtain ⟨finals, accepted, messagesEq⟩ := exists_finals_of_readable readable
  rw [List.flatMap_def] at brought
  have emitted := Scanner.deliverAll_prefix accepted brought
  rw [runReadLoop_notified]
  exact messagesEq ▸ emitted

/-- Whatever order the events of the write side come in, and however the octets
that are on the socket are cut into reads: no message is lost between two that
are read, none is read twice, and none is changed. -/
theorem notified_prefix_accepted (platform : Platform)
    (events : List WriteEvent) (side : WriteSide) (reads : List Read)
    (ran : writeRun {} events = some side)
    (deliverable : ∀ message ∈ side.accepted, Deliverable platform message)
    (brought : (reads.map Read.octets).flatten <+: side.transmitted) :
    (runReadLoop platform {} reads).notified <+: side.accepted := by
  have transmitted := (inOrder_of_run ran).transmitted_accepted
  exact notified_prefix_of_reads
    (fun message member => (deliverable message member).readable)
    (brought.trans transmitted)

theorem deliverable_bare {command : Text} (isCommand : IsCommand command)
    (fits : FitsWriteBuffer { command }) :
    Deliverable plainPlatform { command } where
  fits := fits
  readable :=
    { tags := by simp
      prefixText := Or.inl rfl
      command := isCommand
      middles := by simp
      params := by simp
      noEquals := by simp [NoEquals]
      valued := by simp }

/-- The two messages of a connection that sends them. -/
theorem deliverable_sendingPing (count : Nat) :
    ∀ message ∈ (sendingPing.wrote pingMessage count).accepted,
      Deliverable plainPlatform message := by
  have ping : Deliverable plainPlatform pingMessage :=
    deliverable_bare (Or.inl (by decide)) fitsWriteBuffer_pingMessage
  have pong : Deliverable plainPlatform pongMessage :=
    deliverable_bare (Or.inl (by decide)) fitsWriteBuffer_pongMessage
  rw [(fields_sendingPing count).2.1]
  simp [ping, pong]

/-- The first message is on the socket, and the second one is being written. -/
def sendingPong : WriteSide :=
  (sendingPing.wrote pingMessage (wire pingMessage).length).asyncReceive

theorem fields_sendingPong :
    sendingPong.phase = .received pongMessage ∧
      sendingPong.writeQueue = .empty ∧ sendingPong.socketOpen = true ∧
      sendingPong.accepted = [pingMessage, pongMessage] ∧
      sendingPong.transmitted = wire pingMessage ∧
      sendingPong.writeBuffer.length = writeBufferSize := by
  obtain ⟨isOpen, accepted, transmitted⟩ :=
    fields_sendingPing (wire pingMessage).length
  have bufferSize := (inOrder_of_run (run_sendPing (Nat.le_refl _))).bufferSize
  have queueEq :
      (sendingPing.wrote pingMessage (wire pingMessage).length).writeQueue =
        sendingPing.writeQueue := (wrote_frame _ _ _).1
  have got : sendingPing.writeQueue.receive = (.received pongMessage, .empty) := rfl
  have fields : sendingPong = { sendingPing.wrote pingMessage
        (wire pingMessage).length with
      writeQueue := .empty
      phase := .received pongMessage
      received := (sendingPing.wrote pingMessage
        (wire pingMessage).length).received ++ [pongMessage] } := by
    unfold sendingPong WriteSide.asyncReceive
    rw [queueEq, got]
  rw [fields]
  dsimp only
  rw [isOpen, accepted, transmitted, List.take_length]
  exact ⟨rfl, rfl, rfl, rfl, rfl, bufferSize⟩

/-- The first write completes. -/
theorem written_wrote :
    (sendingPing.wrote pingMessage (wire pingMessage).length).step .written =
      some sendingPong := by
  simp only [WriteSide.step, WriteSide.wrote, List.drop_length]
  rfl

theorem run_sendPong {count : Nat} (within : count ≤ (wire pongMessage).length) :
    writeRun (sendingPing.wrote pingMessage (wire pingMessage).length)
        [.written, .resume, .transmit count] =
      some (sendingPong.wrote pongMessage count) := by
  obtain ⟨phase, _, isOpen, _, _, bufferSize⟩ := fields_sendingPong
  have resumed := resume_wrote bufferSize fitsWriteBuffer_pongMessage phase
  have sent := @transmit_wrote sendingPong isOpen pongMessage 0 count (by omega)
  simp only [writeRun, EventRuns.run, written_wrote, Option.bind_some, resumed,
    sent, Nat.zero_add]

/-- Both messages are sent, and the socket has taken so many octets of the
second one. -/
def sendBoth (count : Nat) : List WriteEvent :=
  sendPing (wire pingMessage).length ++ [.written, .resume, .transmit count]

theorem run_sendBoth {count : Nat} (within : count ≤ (wire pongMessage).length) :
    writeRun {} (sendBoth count) = some (sendingPong.wrote pongMessage count) := by
  have first := run_sendPing (Nat.le_refl _)
  have second := run_sendPong within
  rw [writeRun] at first second ⊢
  rw [sendBoth, EventRuns.run_append, first, Option.bind_some, second]

theorem fields_wrotePong (count : Nat) :
    (sendingPong.wrote pongMessage count).accepted = [pingMessage, pongMessage] ∧
      (sendingPong.wrote pongMessage count).transmitted =
        wire pingMessage ++ (wire pongMessage).take count := by
  obtain ⟨_, _, _, accepted, transmitted, _⟩ := fields_sendingPong
  obtain ⟨_, _, acceptedEq, transmittedEq⟩ :=
    wrote_frame sendingPong pongMessage count
  rw [transmitted] at transmittedEq
  exact ⟨acceptedEq.trans accepted, transmittedEq⟩

/-- The peer has read the first message, and a part of the second one. -/
theorem notified_prefix_accepted_ping :
    ∃ side, writeRun {} (sendBoth 2) = some side ∧
      side.accepted = [pingMessage, pongMessage] ∧
      (runReadLoop plainPlatform {} [⟨ascii "PI", by decide, by decide⟩,
        ⟨ascii "NG\r\nP", by decide, by decide⟩]).notified = [pingMessage] ∧
      (runReadLoop plainPlatform {} [⟨ascii "PI", by decide, by decide⟩,
        ⟨ascii "NG\r\nP", by decide, by decide⟩]).notified <+: side.accepted := by
  obtain ⟨accepted, transmitted⟩ := fields_wrotePong 2
  have ran : writeRun {} (sendBoth 2) = some (sendingPong.wrote pongMessage 2) :=
    run_sendBoth (by decide)
  have deliverable : ∀ message ∈ (sendingPong.wrote pongMessage 2).accepted,
      Deliverable plainPlatform message := by
    rw [accepted, ← (fields_sendingPing 0).2.1]
    exact deliverable_sendingPing 0
  refine ⟨_, ran, accepted, ?_,
    notified_prefix_accepted plainPlatform (sendBoth 2) _ _ ran deliverable ?_⟩
  · rw [runReadLoop_notified]
    decide
  · rw [transmitted]
    decide

/-! ## The write loop comes to rest -/

/-- The events of the write loop itself, in which every transmission takes some
octets. -/
def WriteEvent.IsOwn : WriteEvent → Prop
  | .start => True
  | .resume => True
  | .written => True
  | .transmit count => 0 < count
  | _ => False

/-- The octets that the loop has yet to transmit of what it holds, with its
suspensions. -/
def WritePhase.cost : WritePhase → Nat
  | .spawned => 1
  | .receiving => 0
  | .received message => (wire message).length + 2
  | .receiveFailed => 1
  | .writing unsent => unsent.length + 1
  | .ended => 0

def WriteSide.backlog (side : WriteSide) : Nat :=
  side.phase.cost + (side.writeQueue.buffered.flatMap wire).length +
    2 * side.writeQueue.buffered.length

/-- An open connection whose loop has neither failed nor ended, with the
messages that it has accepted. -/
structure Working (accepted : List Message) (side : WriteSide) : Prop extends
    InOrder side where
  isOpen : side.socketOpen = true
  notFailed : side.phase ≠ .receiveFailed
  notEnded : side.phase ≠ .ended
  acceptedEq : side.accepted = accepted

/-- A loop on an open connection has not ended, unless beyond its buffer. -/
structure Alive (side : WriteSide) : Prop extends InOrder side where
  phase : side.socketOpen = true → side.overran = false →
    side.phase ≠ .receiveFailed ∧ side.phase ≠ .ended

/-- The receive of a loop fails at a closed connection only. -/
theorem asyncReceive_phase {side : WriteSide} (inOrder : InOrder side)
    (isOpen : side.socketOpen = true) :
    side.asyncReceive.phase ≠ .receiveFailed ∧
      side.asyncReceive.phase ≠ .ended := by
  have failedClosed := side.writeQueue.closed_of_receive_failed
  unfold WriteSide.asyncReceive
  rcases got : side.writeQueue.receive with ⟨result, writeQueue⟩
  rw [got] at failedClosed
  cases result with
  | received message => simp
  | waits => simp
  | failed =>
      have closed := inOrder.closed.mp (failedClosed rfl)
      rw [isOpen] at closed
      cases closed

theorem socketOpen_closeUnderLock_write (side : WriteSide) :
    side.closeUnderLock.socketOpen = false := by
  unfold WriteSide.closeUnderLock
  split
  · rfl
  · rename_i closed
    simpa using closed

theorem asyncReceive_fields (side : WriteSide) :
    side.asyncReceive.socketOpen = side.socketOpen ∧
      side.asyncReceive.overran = side.overran ∧
      side.asyncReceive.accepted = side.accepted := by
  unfold WriteSide.asyncReceive
  split <;> exact ⟨rfl, rfl, rfl⟩

theorem Alive.step {side next : WriteSide} {event : WriteEvent}
    (alive : Alive side) (stepped : side.step event = some next) :
    Alive next := by
  have inOrder := alive.toInOrder.step stepped
  refine ⟨inOrder, fun isOpen within => ?_⟩
  rcases side.step_cases stepped with ⟨message, _, rfl⟩ | rfl |
    ⟨message, _, phase, rfl⟩ | ⟨count, unsent, phase, rfl⟩ | rfl | rfl
  · unfold WriteSide.deliverResponse at isOpen within ⊢
    rcases tried : side.writeQueue.trySend message with ⟨result, writeQueue⟩
    rw [tried] at isOpen within
    cases result with
    | handed => simp
    | buffered => exact alive.phase isOpen within
    | refused => exact alive.phase isOpen within
  · obtain ⟨openEq, overranEq, _⟩ := asyncReceive_fields side
    exact asyncReceive_phase alive.toInOrder (openEq ▸ isOpen)
  · unfold WriteSide.serialize at within ⊢
    split at within
    · cases within
    · simp
  · simp
  · have closed : side.endLoop.socketOpen = false :=
      socketOpen_closeUnderLock_write side
    rw [closed] at isOpen
    cases isOpen
  · rw [socketOpen_closeUnderLock_write] at isOpen
    cases isOpen

theorem Working.receiving {accepted : List Message} {side : WriteSide}
    (working : Working accepted side) (phase : side.phase = .receiving) :
    side.transmitted = accepted.flatMap wire := by
  have empty := (side.writeQueue.waits (working.waiting.mpr phase)).1
  have sent := working.sent
  have order := working.order
  rw [SentSoFar, phase] at sent
  rw [empty, List.append_nil] at order
  rw [← working.acceptedEq, order]
  exact sent

/-- A loop that comes to its receive is left with less to do. -/
theorem Working.asyncReceive {accepted : List Message} {side : WriteSide}
    (working : Working accepted side) (cost : side.phase.cost = 1)
    (all : side.transmitted = side.received.flatMap wire) :
    Working accepted side.asyncReceive ∧
      side.asyncReceive.backlog < side.backlog := by
  obtain ⟨openEq, _, acceptedEq⟩ := asyncReceive_fields side
  obtain ⟨notFailed, notEnded⟩ :=
    asyncReceive_phase working.toInOrder working.isOpen
  refine ⟨⟨working.toInOrder.asyncReceive all, openEq.trans working.isOpen,
    notFailed, notEnded, acceptedEq.trans working.acceptedEq⟩, ?_⟩
  have cases := side.writeQueue.receive_cases
  have before : side.backlog =
      1 + (side.writeQueue.buffered.flatMap wire).length +
        2 * side.writeQueue.buffered.length := by
    rw [WriteSide.backlog, cost]
  rw [before]
  unfold WriteSide.backlog WriteSide.asyncReceive
  rcases got : side.writeQueue.receive with ⟨result, writeQueue⟩
  rw [got] at cases
  rcases cases with ⟨message, rfl, taken⟩ | ⟨rfl | rfl, same⟩
  · simp only at taken
    simp only [taken, WritePhase.cost, List.flatMap_cons,
      List.length_append, List.length_cons]
    omega
  · simp only at same
    simp only [same, WritePhase.cost]
    omega
  · have closed := side.writeQueue.closed_of_receive_failed (by rw [got])
    rw [working.closed, working.isOpen] at closed
    cases closed

theorem Working.serialize {accepted : List Message} {side : WriteSide}
    (working : Working accepted side) {message : Message}
    (phase : side.phase = .received message) (fits : FitsWriteBuffer message) :
    Working accepted (side.serialize message) ∧
      (side.serialize message).backlog < side.backlog := by
  have nextPhase := serialize_fits working.bufferSize fits
  obtain ⟨queueEq, openEq, acceptedEq, _⟩ := serialize_frame side message
  refine ⟨⟨working.toInOrder.serialize phase, openEq.trans working.isOpen,
    by simp [nextPhase], by simp [nextPhase],
    acceptedEq.trans working.acceptedEq⟩, ?_⟩
  simp only [WriteSide.backlog, nextPhase, phase, queueEq, WritePhase.cost]
  omega

/-- An event of the loop itself keeps it working, and leaves less to do. -/
theorem Working.step {accepted : List Message}
    (fits : ∀ message ∈ accepted, FitsWriteBuffer message)
    {side next : WriteSide} {event : WriteEvent}
    (working : Working accepted side) (own : event.IsOwn)
    (stepped : side.step event = some next) :
    Working accepted next ∧ next.backlog < side.backlog := by
  have sent := working.sent
  cases event with
  | deliver message => exact own.elim
  | start =>
      simp only [WriteSide.step] at stepped
      split at stepped
      · rename_i phase
        obtain rfl := Option.some.inj stepped
        rw [SentSoFar, phase] at sent
        exact working.asyncReceive (by rw [phase]; rfl) sent
      · cases stepped
  | resume =>
      simp only [WriteSide.step] at stepped
      split at stepped
      · rename_i message phase
        obtain rfl := Option.some.inj stepped
        have member := working.toOrdered.mem_accepted phase
        rw [working.acceptedEq] at member
        exact working.serialize phase (fits message member)
      · rename_i phase
        exact absurd phase working.notFailed
      · cases stepped
  | transmit count =>
      simp only [WriteSide.step] at stepped
      split at stepped
      · rename_i unsent phase
        split at stepped
        · rename_i room
          obtain rfl := Option.some.inj stepped
          refine ⟨⟨working.toInOrder.transmit phase count, working.isOpen,
            by simp, by simp, working.acceptedEq⟩, ?_⟩
          have some_ : 0 < count := own
          simp only [WriteSide.backlog, phase, WritePhase.cost,
            List.length_drop]
          omega
        · cases stepped
      · cases stepped
  | written =>
      simp only [WriteSide.step] at stepped
      split at stepped
      · rename_i phase
        obtain rfl := Option.some.inj stepped
        rw [SentSoFar, phase] at sent
        exact working.asyncReceive (by rw [phase]; rfl) (by simpa using sent)
      · cases stepped
  | writeFailed => exact own.elim
  | close => exact own.elim

end Birch
