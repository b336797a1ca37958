import Mathlib.Data.List.Basic
import Mathlib.Tactic.Common

/-!
# Bounded channels

A channel of a fixed capacity between senders, which never wait, and one
receiver, which waits where nothing is buffered.  A closed channel refuses what
is sent, and still yields what it has buffered.
-/

/-- A receiver waits only at an open channel that has nothing buffered. -/
structure BoundedChannel (Payload : Type*) (capacity : Nat) where
  buffered : List Payload
  waiting : Bool
  closed : Bool
  bounded : buffered.length ≤ capacity
  waits : waiting = true → buffered = [] ∧ closed = false

namespace BoundedChannel

variable {Payload : Type*} {capacity : Nat}

/-- What becomes of a payload: it is handed to the receiver that waits, it is
buffered, or it is refused. -/
inductive SendResult
  | handed
  | buffered
  | refused
  deriving DecidableEq, Repr

/-- What becomes of a receiver: it gets a payload, it waits, or it fails. -/
inductive ReceiveResult (Payload : Type*)
  | received (payload : Payload)
  | waits
  | failed
  deriving DecidableEq, Repr

def empty : BoundedChannel Payload capacity where
  buffered := []
  waiting := false
  closed := false
  bounded := Nat.zero_le capacity
  waits := fun absurd => Bool.noConfusion absurd

def trySend (channel : BoundedChannel Payload capacity) (payload : Payload) :
    SendResult × BoundedChannel Payload capacity :=
  if _ : channel.closed = true then
    (.refused, channel)
  else if _ : channel.waiting = true then
    (.handed, { channel with
      waiting := false, waits := fun absurd => Bool.noConfusion absurd })
  else if room : channel.buffered.length < capacity then
    (.buffered, { channel with
      buffered := channel.buffered ++ [payload]
      bounded := by rw [List.length_append]; exact room
      waits := fun waiting => absurd waiting ‹_› })
  else
    (.refused, channel)

def receive (channel : BoundedChannel Payload capacity) :
    ReceiveResult Payload × BoundedChannel Payload capacity :=
  match bufferedEq : channel.buffered with
  | payload :: rest =>
      (.received payload, { channel with
        buffered := rest
        bounded := by
          have bounded := channel.bounded
          rw [bufferedEq, List.length_cons] at bounded
          omega
        waits := fun waiting => by
          have empty := (channel.waits waiting).1
          rw [bufferedEq] at empty
          cases empty })
  | [] =>
      if open_ : channel.closed = true then
        (.failed, channel)
      else
        (.waits, { channel with
          waiting := true
          waits := fun _ => ⟨bufferedEq, by simpa using open_⟩ })

/-- Close the channel, which cancels a receiver that waits. -/
def close (channel : BoundedChannel Payload capacity) :
    BoundedChannel Payload capacity :=
  { channel with
    waiting := false
    closed := true
    waits := fun absurd => Bool.noConfusion absurd }

/-! ## What the operations do to the payloads -/

variable (channel : BoundedChannel Payload capacity)

/-- A payload that is handed over passes nothing that is buffered. -/
theorem trySend_cases (payload : Payload) :
    ((channel.trySend payload).1 = .handed ∧ channel.buffered = [] ∧
        (channel.trySend payload).2.buffered = []) ∨
      ((channel.trySend payload).1 = .buffered ∧
        (channel.trySend payload).2.buffered = channel.buffered ++ [payload]) ∨
      ((channel.trySend payload).1 = .refused ∧
        (channel.trySend payload).2 = channel) := by
  unfold trySend
  split
  · exact Or.inr (Or.inr ⟨rfl, rfl⟩)
  · split
    · rename_i waiting
      have empty := (channel.waits waiting).1
      exact Or.inl ⟨rfl, empty, empty⟩
    · split
      · exact Or.inr (Or.inl ⟨rfl, rfl⟩)
      · exact Or.inr (Or.inr ⟨rfl, rfl⟩)

/-- A receiver takes the payload that was buffered first. -/
theorem receive_cases :
    (∃ payload, channel.receive.1 = .received payload ∧
        channel.buffered = payload :: channel.receive.2.buffered) ∨
      ((channel.receive.1 = .waits ∨ channel.receive.1 = .failed) ∧
        channel.receive.2.buffered = channel.buffered) := by
  unfold receive
  split
  · rename_i payload rest bufferedEq
    exact Or.inl ⟨payload, rfl, bufferedEq⟩
  · split
    · exact Or.inr ⟨Or.inr rfl, rfl⟩
    · exact Or.inr ⟨Or.inl rfl, rfl⟩

/-! ## The flags of the channel -/

theorem waiting_eq_false_of_closed (closed : channel.closed = true) :
    channel.waiting = false := by
  rw [Bool.eq_false_iff]
  intro waiting
  rw [(channel.waits waiting).2] at closed
  cases closed

theorem trySend_handed_iff (payload : Payload) :
    (channel.trySend payload).1 = .handed ↔ channel.waiting = true := by
  unfold trySend
  constructor
  · intro handed
    split at handed
    · cases handed
    · split at handed
      · assumption
      · split at handed <;> cases handed
  · intro waiting
    simp [(channel.waits waiting).2, waiting]

/-- What is sent is refused by a closed channel, and by a full one. -/
theorem trySend_refused_iff (payload : Payload) :
    (channel.trySend payload).1 = .refused ↔
      channel.closed = true ∨
        channel.waiting = false ∧ channel.buffered.length = capacity := by
  have bounded := channel.bounded
  unfold trySend
  split
  · simp [*]
  · split
    · simp [*]
    · split
      · rename_i room
        have notFull : channel.buffered.length ≠ capacity := by omega
        simp [*]
      · rename_i full
        have isFull : channel.buffered.length = capacity := by omega
        simp [*]

theorem trySend_closed (payload : Payload) :
    (channel.trySend payload).2.closed = channel.closed := by
  unfold trySend
  split
  · rfl
  · split
    · rfl
    · split <;> rfl

/-- No receiver waits after something was sent. -/
theorem trySend_waiting (payload : Payload) :
    (channel.trySend payload).2.waiting = false := by
  unfold trySend
  split
  · exact channel.waiting_eq_false_of_closed ‹_›
  · split
    · rfl
    · rename_i notWaiting
      split <;> simpa using notWaiting

theorem receive_closed : channel.receive.2.closed = channel.closed := by
  unfold receive
  split
  · rfl
  · split <;> rfl

theorem closed_of_receive_failed (failed : channel.receive.1 = .failed) :
    channel.closed = true := by
  unfold receive at failed
  split at failed
  · cases failed
  · split at failed
    · assumption
    · cases failed

theorem receive_waiting_iff :
    channel.receive.2.waiting = true ↔ channel.receive.1 = .waits := by
  unfold receive
  split
  · rename_i payload rest bufferedEq
    have notWaiting : channel.waiting ≠ true := by
      intro waiting
      rw [(channel.waits waiting).1] at bufferedEq
      cases bufferedEq
    simpa using notWaiting
  · split
    · rename_i closed
      simp [channel.waiting_eq_false_of_closed closed]
    · simp

end BoundedChannel
