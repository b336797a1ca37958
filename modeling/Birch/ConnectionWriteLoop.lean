import Birch.BoundedChannel
import Birch.EventRuns
import Birch.MessageSerializer

/-!
# The write loop of a connection

`DeliverResponse` puts messages into the write queue from any thread;
`RunWriteLoop` takes them out, serializes each into the one write buffer and
writes that to the socket.  The loop is a coroutine, so it is modeled by what
it is suspended in, and its run by the events that resume it.
-/

namespace Birch

open Octet

/-- The size of `m_writeBuffer`. -/
def writeBufferSize : Nat := 1024 * 12

def writeQueueDefaultCapacity : Nat := 5

inductive WriteResult
  | sent
  | backpressure
  | closed
  deriving DecidableEq, Repr

/-- What `RunWriteLoop` is suspended in.  A receive that has completed holds
its message until the coroutine is resumed. -/
inductive WritePhase
  | spawned
  | receiving
  | received (message : Message)
  | receiveFailed
  | writing (unsent : Text)
  | ended
  deriving DecidableEq

/-- The write side of a connection.  The last five fields are its history: the
octets on the socket, the messages that were reported `Sent`, those that the
loop has received, the lengths handed to `async_write`, and whether
`WriteToBuffer` was made to store beyond the buffer. -/
structure WriteSide where
  socketOpen : Bool := true
  writeQueue : BoundedChannel Message writeQueueDefaultCapacity := .empty
  phase : WritePhase := .spawned
  writeBuffer : Text := List.replicate writeBufferSize nul
  transmitted : Text := []
  accepted : List Message := []
  received : List Message := []
  handedLengths : List Nat := []
  overran : Bool := false

namespace WriteSide

def deliverResponse (side : WriteSide) (message : Message) :
    WriteResult × WriteSide :=
  -- The error code is part of what is sent; `try_send` does not set it.
  let ec := false
  match side.writeQueue.trySend message with
  | (.handed, writeQueue) =>
      (.sent, { side with
        writeQueue, phase := .received message
        accepted := side.accepted ++ [message]
        received := side.received ++ [message] })
  | (.buffered, writeQueue) =>
      (.sent, { side with
        writeQueue, accepted := side.accepted ++ [message] })
  | (.refused, _) => (if ec then .closed else .backpressure, side)

/-- The loop comes to its `async_receive`. -/
def asyncReceive (side : WriteSide) : WriteSide :=
  match side.writeQueue.receive with
  | (.received message, writeQueue) =>
      { side with
        writeQueue, phase := .received message
        received := side.received ++ [message] }
  | (.waits, writeQueue) => { side with writeQueue, phase := .receiving }
  | (.failed, _) => { side with phase := .receiveFailed }

/-- The loop is resumed with a message. -/
def serialize (side : WriteSide) (message : Message) : WriteSide :=
  match writeToBuffer side.writeBuffer message with
  | none => { side with overran := true, phase := .ended }
  | some (writeBuffer, cbWrite) =>
      { side with
        writeBuffer, phase := .writing (writeBuffer.take cbWrite)
        handedLengths := side.handedLengths ++ [cbWrite] }

/-- The part of `CloseUnderLock` that concerns the write side. -/
def closeUnderLock (side : WriteSide) : WriteSide :=
  if side.socketOpen then
    { side with
      socketOpen := false
      writeQueue := side.writeQueue.close
      phase := if side.phase = .receiving then .receiveFailed else side.phase }
  else
    side

def endLoop (side : WriteSide) : WriteSide :=
  { side.closeUnderLock with phase := .ended }

end WriteSide

inductive WriteEvent
  /-- `DeliverResponse`, on any thread. -/
  | deliver (message : Message)
  /-- The coroutine takes its first step. -/
  | start
  /-- It is resumed with a message, or with the failure to receive one. -/
  | resume
  /-- The socket takes some more of the octets that are being written. -/
  | transmit (count : Nat)
  /-- The write completes, or fails. -/
  | written
  | writeFailed
  /-- `CloseUnderLock` runs for a reason outside of the loop. -/
  | close

/-- One event of the write side, where it can happen. -/
def WriteSide.step (side : WriteSide) : WriteEvent → Option WriteSide
  | .deliver message => some (side.deliverResponse message).2
  | .start =>
      match side.phase with
      | .spawned => some side.asyncReceive
      | _ => none
  | .resume =>
      match side.phase with
      | .received message => some (side.serialize message)
      | .receiveFailed => some side.endLoop
      | _ => none
  | .transmit count =>
      match side.phase with
      | .writing unsent =>
          if side.socketOpen ∧ count ≤ unsent.length then
            some { side with
              phase := .writing (unsent.drop count)
              transmitted := side.transmitted ++ unsent.take count }
          else
            none
      | _ => none
  | .written =>
      match side.phase with
      | .writing [] => some side.asyncReceive
      | _ => none
  | .writeFailed =>
      match side.phase with
      | .writing _ => some side.endLoop
      | _ => none
  | .close => some side.closeUnderLock

def writeRun : WriteSide → List WriteEvent → Option WriteSide :=
  EventRuns.run WriteSide.step

/-- Every store so far was inside of `m_writeBuffer`, and no length beyond it
was handed to `async_write`. -/
def WithinBuffer (side : WriteSide) : Prop :=
  side.overran = false ∧
    ∀ length ∈ side.handedLengths, length ≤ writeBufferSize

def FitsWriteBuffer (message : Message) : Prop :=
  computeRequiredSpace message ≤ writeBufferSize

/-! ## The order of the messages -/

/-- What holds between any two events: the messages that were accepted are
received in this order, the loop holds the last one that was received, and the
write buffer keeps its size. -/
structure Ordered (side : WriteSide) : Prop where
  order : side.accepted = side.received ++ side.writeQueue.buffered
  current : ∀ message, side.phase = .received message →
    ∃ earlier, side.received = earlier ++ [message]
  bufferSize : side.writeBuffer.length = writeBufferSize

theorem ordered_initial : Ordered {} where
  order := rfl
  current := by simp
  bufferSize := by simp

theorem Ordered.deliverResponse {side : WriteSide} (ordered : Ordered side)
    (message : Message) : Ordered (side.deliverResponse message).2 := by
  obtain ⟨order, current, bufferSize⟩ := ordered
  have cases := side.writeQueue.trySend_cases message
  unfold WriteSide.deliverResponse
  rcases sent : side.writeQueue.trySend message with ⟨result, writeQueue⟩
  rw [sent] at cases
  rcases cases with ⟨rfl, empty, emptied⟩ | ⟨rfl, appended⟩ | ⟨rfl, _⟩
  · refine ⟨?_, ?_, bufferSize⟩
    · rw [empty] at order
      simp only at emptied
      simp [order, emptied]
    · rintro other phase
      obtain rfl := WritePhase.received.inj phase
      exact ⟨side.received, rfl⟩
  · refine ⟨?_, current, bufferSize⟩
    simp only at appended
    simp [order, appended]
  · exact ⟨order, current, bufferSize⟩

theorem Ordered.asyncReceive {side : WriteSide} (ordered : Ordered side) :
    Ordered side.asyncReceive := by
  obtain ⟨order, current, bufferSize⟩ := ordered
  have cases := side.writeQueue.receive_cases
  unfold WriteSide.asyncReceive
  rcases got : side.writeQueue.receive with ⟨result, writeQueue⟩
  rw [got] at cases
  rcases cases with ⟨message, rfl, taken⟩ | ⟨rfl | rfl, same⟩
  · refine ⟨?_, ?_, bufferSize⟩
    · simp only at taken
      simp [order, taken]
    · rintro other phase
      obtain rfl := WritePhase.received.inj phase
      exact ⟨side.received, rfl⟩
  · refine ⟨?_, by simp, bufferSize⟩
    simp only at same
    simp [order, same]
  · exact ⟨order, by simp, bufferSize⟩

theorem writeToBuffer_length {buffer written : Text} {message : Message}
    {size : Nat} (wrote : writeToBuffer buffer message = some (written, size)) :
    written.length = buffer.length := by
  rw [writeToBuffer_eq] at wrote
  split at wrote
  · rename_i room
    simp only [Option.some.injEq, Prod.mk.injEq] at wrote
    obtain ⟨rfl, rfl⟩ := wrote
    rw [computeRequiredSpace_eq] at room ⊢
    rw [List.length_append, List.length_drop]
    omega
  · simp at wrote

theorem Ordered.serialize {side : WriteSide} (ordered : Ordered side)
    (message : Message) : Ordered (side.serialize message) := by
  obtain ⟨order, current, bufferSize⟩ := ordered
  unfold WriteSide.serialize
  split
  · exact ⟨order, by simp, bufferSize⟩
  · rename_i written cbWrite wrote
    refine ⟨order, by simp, ?_⟩
    exact (writeToBuffer_length wrote).trans bufferSize

theorem Ordered.closeUnderLock {side : WriteSide} (ordered : Ordered side) :
    Ordered side.closeUnderLock := by
  obtain ⟨order, current, bufferSize⟩ := ordered
  unfold WriteSide.closeUnderLock
  split
  · refine ⟨order, ?_, bufferSize⟩
    intro message phase
    apply current message
    by_cases waited : side.phase = .receiving
    · simp [waited] at phase
    · simpa [waited] using phase
  · exact ⟨order, current, bufferSize⟩

theorem Ordered.endLoop {side : WriteSide} (ordered : Ordered side) :
    Ordered side.endLoop :=
  ⟨ordered.closeUnderLock.order, by simp [WriteSide.endLoop],
    ordered.closeUnderLock.bufferSize⟩

/-- What an event does, each with the phase that it needs. -/
theorem WriteSide.step_cases {side next : WriteSide} {event : WriteEvent}
    (stepped : side.step event = some next) :
    (∃ message, event = .deliver message ∧
        next = (side.deliverResponse message).2) ∨
      next = side.asyncReceive ∨
      (∃ message, event = .resume ∧ side.phase = .received message ∧
        next = side.serialize message) ∨
      (∃ count unsent, side.phase = .writing unsent ∧
        next = { side with
          phase := .writing (unsent.drop count)
          transmitted := side.transmitted ++ unsent.take count }) ∨
      next = side.endLoop ∨ next = side.closeUnderLock := by
  cases event with
  | deliver message =>
      left
      exact ⟨message, rfl, (Option.some.inj stepped).symm⟩
  | start =>
      right; left
      simp only [step] at stepped
      split at stepped
      · exact (Option.some.inj stepped).symm
      · cases stepped
  | resume =>
      simp only [step] at stepped
      split at stepped
      · rename_i message phase
        right; right; left
        exact ⟨message, rfl, phase, (Option.some.inj stepped).symm⟩
      · right; right; right; right; left
        exact (Option.some.inj stepped).symm
      · cases stepped
  | transmit count =>
      right; right; right; left
      simp only [step] at stepped
      split at stepped
      · rename_i unsent phase
        split at stepped
        · exact ⟨count, unsent, phase, (Option.some.inj stepped).symm⟩
        · cases stepped
      · cases stepped
  | written =>
      right; left
      simp only [step] at stepped
      split at stepped
      · exact (Option.some.inj stepped).symm
      · cases stepped
  | writeFailed =>
      right; right; right; right; left
      simp only [step] at stepped
      split at stepped
      · exact (Option.some.inj stepped).symm
      · cases stepped
  | close =>
      right; right; right; right; right
      exact (Option.some.inj stepped).symm

theorem Ordered.step {side next : WriteSide} {event : WriteEvent}
    (ordered : Ordered side) (stepped : side.step event = some next) :
    Ordered next := by
  rcases side.step_cases stepped with ⟨message, _, rfl⟩ | rfl |
    ⟨message, _, _, rfl⟩ | ⟨count, unsent, _, rfl⟩ | rfl | rfl
  · exact ordered.deliverResponse message
  · exact ordered.asyncReceive
  · exact ordered.serialize message
  · exact ⟨ordered.order, by simp, ordered.bufferSize⟩
  · exact ordered.endLoop
  · exact ordered.closeUnderLock

/-! ## The bound of the write buffer -/

/-- The history that an event other than a resumption with a message leaves as
it was, apart from the messages that it accepts. -/
structure KeepsStores (side next : WriteSide) : Prop where
  handedLengths : next.handedLengths = side.handedLengths
  overran : next.overran = side.overran
  accepted : ∀ message ∈ side.accepted, message ∈ next.accepted

theorem KeepsStores.withinBuffer {side next : WriteSide}
    (keeps : KeepsStores side next) :
    WithinBuffer next ↔ WithinBuffer side := by
  rw [WithinBuffer, WithinBuffer, keeps.handedLengths, keeps.overran]

theorem keepsStores_deliverResponse (side : WriteSide) (message : Message) :
    KeepsStores side (side.deliverResponse message).2 := by
  unfold WriteSide.deliverResponse
  split
  · exact ⟨rfl, rfl, fun _ member => List.mem_append_left _ member⟩
  · exact ⟨rfl, rfl, fun _ member => List.mem_append_left _ member⟩
  · exact ⟨rfl, rfl, fun _ member => member⟩

theorem keepsStores_asyncReceive (side : WriteSide) :
    KeepsStores side side.asyncReceive := by
  unfold WriteSide.asyncReceive
  split <;> exact ⟨rfl, rfl, fun _ member => member⟩

theorem keepsStores_closeUnderLock (side : WriteSide) :
    KeepsStores side side.closeUnderLock := by
  unfold WriteSide.closeUnderLock
  split <;> exact ⟨rfl, rfl, fun _ member => member⟩

theorem keepsStores_endLoop (side : WriteSide) :
    KeepsStores side side.endLoop :=
  ⟨(keepsStores_closeUnderLock side).handedLengths,
    (keepsStores_closeUnderLock side).overran,
    (keepsStores_closeUnderLock side).accepted⟩

/-- Serializing a message stays inside of the buffer just when it fits. -/
theorem withinBuffer_serialize_iff {side : WriteSide}
    (bufferSize : side.writeBuffer.length = writeBufferSize)
    (message : Message) :
    WithinBuffer (side.serialize message) ↔
      WithinBuffer side ∧ FitsWriteBuffer message := by
  unfold WriteSide.serialize FitsWriteBuffer
  rw [writeToBuffer_eq, bufferSize]
  by_cases fits : computeRequiredSpace message ≤ writeBufferSize
  · simp only [WithinBuffer, fits, if_true, and_true]
    refine and_congr_right fun _ => ?_
    constructor
    · intro all length member
      exact all length (List.mem_append_left _ member)
    · intro all length member
      rcases List.mem_append.mp member with old | new
      · exact all length old
      · rw [List.mem_singleton.mp new]
        exact fits
  · simp [WithinBuffer, fits]

/-- As long as every message that was accepted fits, the loop stays inside of
its buffer. -/
structure Bounded (side : WriteSide) : Prop extends Ordered side where
  within : (∀ message ∈ side.accepted, FitsWriteBuffer message) →
    WithinBuffer side

theorem bounded_initial : Bounded {} where
  toOrdered := ordered_initial
  within := fun _ => ⟨rfl, by simp⟩

theorem Bounded.of_keepsStores {side next : WriteSide} (bounded : Bounded side)
    (ordered : Ordered next) (keeps : KeepsStores side next) : Bounded next where
  toOrdered := ordered
  within := fun fits => keeps.withinBuffer.mpr
    (bounded.within fun message member =>
      fits message (keeps.accepted message member))

/-- The message that the loop is resumed with was accepted. -/
theorem Ordered.mem_accepted {side : WriteSide} (ordered : Ordered side)
    {message : Message} (phase : side.phase = .received message) :
    message ∈ side.accepted := by
  obtain ⟨earlier, received⟩ := ordered.current message phase
  rw [ordered.order, received]
  simp

theorem Bounded.step {side next : WriteSide} {event : WriteEvent}
    (bounded : Bounded side) (stepped : side.step event = some next) :
    Bounded next := by
  have ordered := bounded.toOrdered.step stepped
  rcases side.step_cases stepped with ⟨message, _, rfl⟩ | rfl |
    ⟨message, _, phase, rfl⟩ | ⟨count, unsent, _, rfl⟩ | rfl | rfl
  · exact bounded.of_keepsStores ordered (keepsStores_deliverResponse side message)
  · exact bounded.of_keepsStores ordered (keepsStores_asyncReceive side)
  · refine ⟨ordered, fun fits => ?_⟩
    have acceptedEq : (side.serialize message).accepted = side.accepted := by
      unfold WriteSide.serialize
      split <;> rfl
    rw [acceptedEq] at fits
    have here := fits message (bounded.toOrdered.mem_accepted phase)
    exact (withinBuffer_serialize_iff bounded.bufferSize message).mpr
      ⟨bounded.within fits, here⟩
  · exact bounded.of_keepsStores ordered ⟨rfl, rfl, fun _ member => member⟩
  · exact bounded.of_keepsStores ordered (keepsStores_endLoop side)
  · exact bounded.of_keepsStores ordered (keepsStores_closeUnderLock side)

/-- A message is accepted while the loop waits for one, and serialized. -/
def deliverOnce (message : Message) : List WriteEvent :=
  [.start, .deliver message, .resume]

theorem deliverOnce_reaches (buffer : Text) (message : Message) :
    ∃ side : WriteSide, side.writeBuffer = buffer ∧
      writeRun { writeBuffer := buffer } (deliverOnce message) =
        some (side.serialize message) ∧
      (side.serialize message).accepted = [message] := by
  let waiting := WriteSide.asyncReceive { writeBuffer := buffer }
  refine ⟨(waiting.deliverResponse message).2, rfl, rfl, ?_⟩
  unfold WriteSide.serialize
  split <;> rfl

/-- Whichever messages are allowed: every run that accepts only these stays
inside of the write buffer exactly if each of them fits into it. -/
theorem withinBuffer_iff_fits (allowed : Message → Prop) :
    (∀ events side, writeRun {} events = some side →
        (∀ message ∈ side.accepted, allowed message) → WithinBuffer side) ↔
      ∀ message, allowed message → FitsWriteBuffer message := by
  constructor
  · intro stays message isAllowed
    obtain ⟨side, bufferEq, ran, acceptedEq⟩ :=
      deliverOnce_reaches (List.replicate writeBufferSize nul) message
    have within := stays _ _ ran (by simpa [acceptedEq] using isAllowed)
    have bufferSize : side.writeBuffer.length = writeBufferSize := by
      rw [bufferEq, List.length_replicate]
    exact ((withinBuffer_serialize_iff bufferSize message).mp within).2
  · intro fits events side ran isAllowed
    have bounded := EventRuns.run_invariant
      (fun _ _ _ bounded stepped => Bounded.step bounded stepped)
      bounded_initial ran
    exact bounded.within fun message member =>
      fits message (isAllowed message member)

/-- A text as long as the write buffer. -/
def longMessage : Message where
  command := ascii "PRIVMSG"
  params := [ascii "#c", List.replicate writeBufferSize 0x61]

theorem length_le_lastParamText (param : Text) :
    param.length ≤ (lastParamText param).length := by
  unfold lastParamText
  split
  · rw [List.length_cons]
    omega
  · rfl

theorem not_fitsWriteBuffer_longMessage : ¬ FitsWriteBuffer longMessage := by
  have textLength :=
    length_le_lastParamText (List.replicate writeBufferSize (0x61 : Octet))
  rw [List.length_replicate] at textLength
  have lineLength : (lastParamText (List.replicate writeBufferSize
      (0x61 : Octet))).length < (wire longMessage).length := by
    simp only [wire, wireBody, longMessage, paramsText, List.length_append,
      List.length_cons]
    omega
  rw [FitsWriteBuffer, computeRequiredSpace_eq]
  omega

/-- The long message is accepted, received and stored beyond the buffer. -/
theorem not_withinBuffer_longMessage :
    ∃ side, writeRun {} [.start, .deliver longMessage, .resume] = some side ∧
      longMessage ∈ side.accepted ∧ ¬ WithinBuffer side := by
  obtain ⟨side, bufferEq, ran, acceptedEq⟩ :=
    deliverOnce_reaches (List.replicate writeBufferSize nul) longMessage
  refine ⟨side.serialize longMessage, ran, by simp [acceptedEq], ?_⟩
  rw [withinBuffer_serialize_iff (by rw [bufferEq, List.length_replicate])]
  exact fun within => not_fitsWriteBuffer_longMessage within.2

end Birch
