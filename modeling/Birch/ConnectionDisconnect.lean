import Birch.ConnectionReadLoop
import Birch.EventRuns

/-!
# The notifications of a connection

`RunReadLoop` notifies the messages of a read from inside of its loop, and any
observer may call `Close()` from inside of a notification.  The read loop runs
on the strand of the connection, so the close runs before the call returns.
This file determines in which runs no message is notified after the disconnect.
-/

namespace Birch

open IncrementalScanner

abbrev ObserverId := Nat

/-- The call of an observer, and whether it calls `Close()` before it returns. -/
structure ObserverCall where
  observer : ObserverId
  closes : Bool

/-- What the observers are given to see, and the call of `NotifyDisconnect`. -/
inductive Notice
  | onMessage (observer : ObserverId) (message : Message)
  | notifyDisconnect
  | onDisconnect (observer : ObserverId)
  deriving DecidableEq

namespace Notice

def isMessage : Notice → Bool
  | .onMessage _ _ => true
  | _ => false

def isDisconnect : Notice → Bool
  | .onMessage _ _ => false
  | _ => true

end Notice

/-- The socket, and what has been notified so far. -/
structure Link where
  socketOpen : Bool := true
  trace : List Notice := []
  deriving DecidableEq

namespace Link

def record (link : Link) (notice : Notice) : Link :=
  { link with trace := link.trace ++ [notice] }

/-- One call of `Observable::Notify`, with what a `Close()` in it does. -/
def call (close : Link → Link) (link : Link) (notice : Notice)
    (closes : Bool) : Link :=
  let link := link.record notice
  if closes then close link else link

/-- `Observable::Notify`.  Which observers are alive, and so are called, and
what they do is not up to the connection. -/
def notify (close : Link → Link) (notice : ObserverId → Notice)
    (calls : List ObserverCall) (link : Link) : Link :=
  calls.foldl
    (fun link call => link.call close (notice call.observer) call.closes) link

def notifyDisconnect (close : Link → Link) (calls : List ObserverCall)
    (link : Link) : Link :=
  (link.record .notifyDisconnect).notify close .onDisconnect calls

/-- The body of `CloseUnderLock`, around what it notifies. -/
def closeBefore (notified : Link → Link) (link : Link) : Link :=
  if link.socketOpen then
    notified { link with socketOpen := false }
  else
    link

/-- `CloseUnderLock`.  A `Close()` from inside of `OnDisconnect` returns before
it notifies anything, see `closeUnderLock_reentrant`. -/
def closeUnderLock (onDisconnect : List ObserverCall) (link : Link) : Link :=
  link.closeBefore (notifyDisconnect (closeBefore id) onDisconnect)

def notifyMessage (onMessage onDisconnect : List ObserverCall) (link : Link)
    (message : Message) : Link :=
  link.notify (closeUnderLock onDisconnect) (.onMessage · message) onMessage

end Link

/-- What `RunReadLoop` is suspended in: a read that was started on an open or
on a closed socket. -/
inductive ReadPhase
  | spawned
  | reading (startedOpen : Bool)
  | ended
  deriving DecidableEq

structure ReadSide where
  link : Link := {}
  reader : Reader := {}
  phase : ReadPhase := .spawned
  deriving DecidableEq

/-- What is called while a read is handled: in its first `NotifyMessage`, its
second, and so on, and in its `NotifyDisconnect`, if it comes to it. -/
structure ReadCalls where
  onMessage : Nat → List ObserverCall
  onDisconnect : List ObserverCall

inductive ReadEvent
  /-- The coroutine takes its first step. -/
  | start
  /-- It is resumed with a read that succeeded, or with an error. -/
  | received (read : Read) (calls : ReadCalls)
  | readFailed (onDisconnect : List ObserverCall)
  /-- `CloseUnderLock` runs for a reason outside of the loop. -/
  | close (onDisconnect : List ObserverCall)

namespace ReadSide

/-- The loop over a read, and the next `async_read_some`. -/
def handleRead (platform : Platform) (side : ReadSide) (read : Read)
    (calls : ReadCalls) : ReadSide :=
  let ((link, _), reader, exit) := readBuffered platform
    (fun (link, i) message =>
      (Link.notifyMessage (calls.onMessage i) calls.onDisconnect link message,
        i + 1))
    (side.link, 0) side.reader read.octets
  { link, reader
    phase := if exit.aborts then .ended else .reading link.socketOpen }

/-- One event of the read side, where it can happen.  A read that succeeded may
be handled after the socket has been closed, if it was started before. -/
def step (platform : Platform) (side : ReadSide) : ReadEvent → Option ReadSide
  | .start =>
      match side.phase with
      | .spawned => some { side with phase := .reading side.link.socketOpen }
      | _ => none
  | .received read calls =>
      match side.phase with
      | .reading true => some (side.handleRead platform read calls)
      | _ => none
  | .readFailed onDisconnect =>
      match side.phase with
      | .reading _ =>
          some { side with
            link := side.link.closeUnderLock onDisconnect, phase := .ended }
      | _ => none
  | .close onDisconnect =>
      some { side with link := side.link.closeUnderLock onDisconnect }

end ReadSide

def readSideRun (platform : Platform) :
    ReadSide → List ReadEvent → Option ReadSide :=
  EventRuns.run (ReadSide.step platform)

/-- No observer is given a message after the disconnect has been notified. -/
def NoMessageAfterDisconnect (trace : List Notice) : Prop :=
  trace.Pairwise fun earlier later =>
    earlier.isDisconnect = true → later.isMessage = false

/-- The calls of `OnMessage` for these messages, the first of which is the
`i`-th one of its read. -/
def messageCalls (onMessage : Nat → List ObserverCall) :
    Nat → List Message → List (ObserverCall × Message)
  | _, [] => []
  | i, message :: messages =>
      (onMessage i).map (·, message) ++ messageCalls onMessage (i + 1) messages

/-- The calls of `OnMessage` that a read makes. -/
def ReadSide.onMessageCalls (platform : Platform) (side : ReadSide)
    (read : Read) (calls : ReadCalls) : List (ObserverCall × Message) :=
  messageCalls calls.onMessage 0
    ((lineScanner platform).deliver side.reader read.octets).2

/-- A read that makes calls of `OnMessage` is handled on an open socket, and
only the last one of them closes the connection. -/
def ClosesLast (platform : Platform) (side : ReadSide) : ReadEvent → Prop
  | .received read calls =>
      (side.onMessageCalls platform read calls ≠ [] →
        side.link.socketOpen = true) ∧
        ∀ call ∈ (side.onMessageCalls platform read calls).dropLast,
          call.1.closes = false
  | _ => True

/-! ## Closing -/

namespace Link

theorem closeBefore_open (notified : Link → Link) {link : Link}
    (isOpen : link.socketOpen = true) :
    link.closeBefore notified = notified { link with socketOpen := false } := by
  rw [closeBefore, if_pos isOpen]

theorem closeBefore_closed (notified : Link → Link) {link : Link}
    (closed : link.socketOpen = false) : link.closeBefore notified = link := by
  simp [closeBefore, closed]

/-- On a closed socket, the observers of the disconnect are called in order. -/
theorem notify_closed (onDisconnect : List ObserverCall)
    (notified : Link → Link) (link : Link) (closed : link.socketOpen = false) :
    link.notify (closeBefore notified) .onDisconnect onDisconnect =
      { link with
        trace := link.trace ++
          onDisconnect.map fun call => .onDisconnect call.observer } := by
  induction onDisconnect generalizing link with
  | nil => simp [notify]
  | cons first rest ih =>
      have unchanged : link.call (closeBefore notified)
          (.onDisconnect first.observer) first.closes =
            link.record (.onDisconnect first.observer) := by
        have stays : (link.record (.onDisconnect first.observer)).socketOpen =
            false := closed
        simp only [call, closeBefore_closed notified stays, ite_self]
      have later := ih (link.record (.onDisconnect first.observer)) closed
      rw [notify] at later ⊢
      rw [List.foldl_cons, unchanged, later]
      simp [record]

/-- The connection after a disconnect that notified these observers. -/
def disconnected (onDisconnect : List ObserverCall) (link : Link) : Link where
  socketOpen := false
  trace := link.trace ++ .notifyDisconnect ::
    onDisconnect.map fun call => .onDisconnect call.observer

theorem notifyDisconnect_eq (onDisconnect : List ObserverCall)
    (notified : Link → Link) (link : Link) :
    notifyDisconnect (closeBefore notified) onDisconnect
        { link with socketOpen := false } =
      link.disconnected onDisconnect := by
  rw [notifyDisconnect, notify_closed onDisconnect notified _ rfl]
  simp [record, disconnected]

theorem closeUnderLock_open (onDisconnect : List ObserverCall) {link : Link}
    (isOpen : link.socketOpen = true) :
    link.closeUnderLock onDisconnect = link.disconnected onDisconnect := by
  rw [closeUnderLock, closeBefore_open _ isOpen, notifyDisconnect_eq]

theorem closeUnderLock_closed (onDisconnect : List ObserverCall) {link : Link}
    (closed : link.socketOpen = false) :
    link.closeUnderLock onDisconnect = link :=
  closeBefore_closed _ closed

/-- `CloseUnderLock` is what its own call from inside of `OnDisconnect` makes
it, whatever that would notify. -/
theorem closeUnderLock_reentrant (onDisconnect nested : List ObserverCall)
    (link : Link) :
    link.closeUnderLock onDisconnect =
      link.closeBefore
        (notifyDisconnect (closeUnderLock nested) onDisconnect) := by
  rcases opened : link.socketOpen
  · rw [closeUnderLock_closed _ opened, closeBefore_closed _ opened]
  · rw [closeUnderLock_open _ opened, closeBefore_open _ opened]
    exact (notifyDisconnect_eq onDisconnect _ link).symm

end Link

/-! ## One notification -/

/-- The socket is open as long as no disconnect has been notified. -/
def Consistent (link : Link) : Prop :=
  link.socketOpen = true ↔ ∀ notice ∈ link.trace, notice.isDisconnect = false

theorem noMessageAfterDisconnect_append {first second : List Notice}
    (noMessage : ∀ notice ∈ second, notice.isMessage = false) :
    NoMessageAfterDisconnect (first ++ second) ↔
      NoMessageAfterDisconnect first := by
  rw [NoMessageAfterDisconnect, List.pairwise_append]
  constructor
  · exact fun all => all.1
  · intro before
    refine ⟨before, ?_, fun _ _ later member _ => noMessage later member⟩
    exact List.pairwise_iff_forall_sublist.mpr fun sublist _ =>
      noMessage _ (sublist.subset (by simp))

/-- Closing notifies no message. -/
theorem noMessage_closeUnderLock (onDisconnect : List ObserverCall)
    (link : Link) :
    NoMessageAfterDisconnect (link.closeUnderLock onDisconnect).trace ↔
      NoMessageAfterDisconnect link.trace := by
  rcases opened : link.socketOpen
  · rw [Link.closeUnderLock_closed _ opened]
  · rw [Link.closeUnderLock_open _ opened]
    apply noMessageAfterDisconnect_append
    simp [Notice.isMessage]

theorem socketOpen_closeUnderLock (onDisconnect : List ObserverCall)
    (link : Link) : (link.closeUnderLock onDisconnect).socketOpen = false := by
  rcases opened : link.socketOpen
  · rw [Link.closeUnderLock_closed _ opened, opened]
  · rw [Link.closeUnderLock_open _ opened]
    rfl

theorem Consistent.closeUnderLock {link : Link} (consistent : Consistent link)
    (onDisconnect : List ObserverCall) :
    Consistent (link.closeUnderLock onDisconnect) := by
  rcases opened : link.socketOpen
  · rwa [Link.closeUnderLock_closed _ opened]
  · rw [Link.closeUnderLock_open _ opened]
    constructor
    · exact fun absurd => Bool.noConfusion absurd
    · intro none
      have marked := none .notifyDisconnect (by simp [Link.disconnected])
      exact Bool.noConfusion marked

theorem Consistent.record_message {link : Link} (consistent : Consistent link)
    (observer : ObserverId) (message : Message) :
    Consistent (link.record (.onMessage observer message)) := by
  rw [Consistent] at consistent ⊢
  simp only [Link.record, List.mem_append, List.mem_singleton]
  rw [consistent]
  constructor
  · rintro none notice (old | rfl)
    · exact none notice old
    · rfl
  · exact fun none notice member => none notice (Or.inl member)

/-- A message is notified in order just when the socket is still open. -/
theorem noMessage_record_message {link : Link} (consistent : Consistent link)
    (observer : ObserverId) (message : Message) :
    NoMessageAfterDisconnect
        (link.record (.onMessage observer message)).trace ↔
      NoMessageAfterDisconnect link.trace ∧ link.socketOpen = true := by
  have openIff : link.socketOpen = true ↔
      ∀ notice ∈ link.trace, notice.isDisconnect = false := consistent
  rw [openIff, Link.record, NoMessageAfterDisconnect, List.pairwise_append]
  simp [NoMessageAfterDisconnect, Notice.isMessage]

/-! ## The calls of a read -/

/-- A call of `OnMessage`, with the close that it may make. -/
def Link.messageCall (onDisconnect : List ObserverCall) (link : Link)
    (call : ObserverCall × Message) : Link :=
  link.call (Link.closeUnderLock onDisconnect)
    (.onMessage call.1.observer call.2) call.1.closes

theorem Consistent.messageCall {link : Link} (consistent : Consistent link)
    (onDisconnect : List ObserverCall) (call : ObserverCall × Message) :
    Consistent (link.messageCall onDisconnect call) := by
  have recorded := consistent.record_message call.1.observer call.2
  unfold Link.messageCall Link.call
  by_cases closes : call.1.closes = true
  · simp only [closes, if_true]
    exact recorded.closeUnderLock onDisconnect
  · simpa only [closes, Bool.false_eq_true, if_false] using recorded

theorem noMessage_messageCall {link : Link} (consistent : Consistent link)
    (onDisconnect : List ObserverCall) (call : ObserverCall × Message) :
    NoMessageAfterDisconnect (link.messageCall onDisconnect call).trace ↔
      NoMessageAfterDisconnect link.trace ∧ link.socketOpen = true := by
  rw [← noMessage_record_message consistent call.1.observer call.2]
  unfold Link.messageCall Link.call
  by_cases closes : call.1.closes = true
  · simp only [closes, if_true]
    exact noMessage_closeUnderLock onDisconnect _
  · simp [closes]

theorem socketOpen_messageCall (onDisconnect : List ObserverCall) (link : Link)
    (call : ObserverCall × Message) :
    (link.messageCall onDisconnect call).socketOpen = true ↔
      link.socketOpen = true ∧ call.1.closes = false := by
  unfold Link.messageCall Link.call
  by_cases closes : call.1.closes = true
  · simp [closes, socketOpen_closeUnderLock]
  · simp [closes, Link.record]

/-- By induction on the calls: each one finds the socket open, unless the one
before it has closed it. -/
theorem noMessage_messageCalls (onDisconnect : List ObserverCall)
    (calls : List (ObserverCall × Message)) {link : Link}
    (consistent : Consistent link) :
    Consistent (calls.foldl (Link.messageCall onDisconnect) link) ∧
      (NoMessageAfterDisconnect
          (calls.foldl (Link.messageCall onDisconnect) link).trace ↔
        NoMessageAfterDisconnect link.trace ∧
          (calls ≠ [] → link.socketOpen = true) ∧
            ∀ call ∈ calls.dropLast, call.1.closes = false) := by
  induction calls generalizing link with
  | nil => simp [consistent]
  | cons call calls ih =>
      obtain ⟨later, laterIff⟩ := ih (consistent.messageCall onDisconnect call)
      refine ⟨later, ?_⟩
      rw [List.foldl_cons, laterIff, noMessage_messageCall consistent,
        socketOpen_messageCall]
      cases calls with
      | nil => simp
      | cons next calls =>
          rw [List.dropLast_cons_cons, List.forall_mem_cons]
          constructor
          · rintro ⟨⟨before, isOpen⟩, more, none⟩
            exact ⟨before, fun _ => isOpen, (more (by simp)).2, none⟩
          · rintro ⟨before, isOpen, stays, none⟩
            exact ⟨⟨before, isOpen (by simp)⟩,
              fun _ => ⟨isOpen (by simp), stays⟩, none⟩

/-- The messages of a read are notified call by call. -/
theorem foldl_notifyMessage (calls : ReadCalls) (messages : List Message)
    (link : Link) (i : Nat) :
    messages.foldl
        (fun (world : Link × Nat) message =>
          (Link.notifyMessage (calls.onMessage world.2) calls.onDisconnect
            world.1 message, world.2 + 1)) (link, i) =
      ((messageCalls calls.onMessage i messages).foldl
        (Link.messageCall calls.onDisconnect) link, i + messages.length) := by
  induction messages generalizing link i with
  | nil => simp [messageCalls]
  | cons message messages ih =>
      have first : Link.notifyMessage (calls.onMessage i) calls.onDisconnect
          link message =
            ((calls.onMessage i).map (·, message)).foldl
              (Link.messageCall calls.onDisconnect) link := by
        rw [List.foldl_map]
        rfl
      have count : i + 1 + messages.length = i + (messages.length + 1) := by
        omega
      rw [List.foldl_cons, ih, first, messageCalls, List.foldl_append,
        List.length_cons, count]

theorem handleRead_eq (platform : Platform) (side : ReadSide) (read : Read)
    (calls : ReadCalls) :
    (side.handleRead platform read calls).link =
      (side.onMessageCalls platform read calls).foldl
        (Link.messageCall calls.onDisconnect) side.link := by
  have folded := foldl_notifyMessage calls
    ((lineScanner platform).deliver side.reader read.octets).2 side.link 0
  simp only [ReadSide.handleRead, readBuffered_eq, ReadSide.onMessageCalls]
  exact congrArg Prod.fst folded

/-! ## Runs -/

theorem ReadSide.step_iff {platform : Platform} {side next : ReadSide}
    {event : ReadEvent} (consistent : Consistent side.link)
    (stepped : side.step platform event = some next) :
    Consistent next.link ∧
      (NoMessageAfterDisconnect next.link.trace ↔
        NoMessageAfterDisconnect side.link.trace ∧
          ClosesLast platform side event) := by
  cases event with
  | start =>
      simp only [step] at stepped
      split at stepped
      · obtain rfl := Option.some.inj stepped
        exact ⟨consistent, by simp [ClosesLast]⟩
      · cases stepped
  | received read calls =>
      simp only [step] at stepped
      split at stepped
      · obtain rfl := Option.some.inj stepped
        rw [handleRead_eq]
        exact noMessage_messageCalls calls.onDisconnect _ consistent
      · cases stepped
  | readFailed onDisconnect =>
      simp only [step] at stepped
      split at stepped
      · obtain rfl := Option.some.inj stepped
        refine ⟨consistent.closeUnderLock onDisconnect, ?_⟩
        simp [noMessage_closeUnderLock, ClosesLast]
      · cases stepped
  | close onDisconnect =>
      simp only [step] at stepped
      obtain rfl := Option.some.inj stepped
      refine ⟨consistent.closeUnderLock onDisconnect, ?_⟩
      simp [noMessage_closeUnderLock, ClosesLast]

/-- In a run of a connection, no message is notified after the disconnect,
exactly if each read of it that makes calls of `OnMessage` is handled on an open
socket and closes the connection in the last one of them at the earliest. -/
theorem noMessageAfterDisconnect_iff (platform : Platform)
    (events : List ReadEvent) (side : ReadSide)
    (ran : readSideRun platform {} events = some side) :
    NoMessageAfterDisconnect side.link.trace ↔
      EventRuns.EachStep (ReadSide.step platform) (ClosesLast platform) {}
        events := by
  have initial : Consistent ({} : ReadSide).link := by
    simp [Consistent]
  rw [EventRuns.run_iff_eachStep
    (fun side : ReadSide => Consistent side.link)
    (fun side : ReadSide => NoMessageAfterDisconnect side.link.trace)
    (fun _ _ _ consistent stepped => (ReadSide.step_iff consistent stepped).1)
    (fun _ _ _ consistent stepped => (ReadSide.step_iff consistent stepped).2)
    initial ran]
  simp [NoMessageAfterDisconnect]

/-- Two lines in one read. -/
def pipelinedRead : Read := ⟨ascii "A\r\nB\r\n", by decide, by decide⟩

/-- One observer, which closes the connection at the message of this index. -/
def closingAt (index : Nat) : ReadCalls where
  onMessage := fun i => [⟨0, i == index⟩]
  onDisconnect := [⟨0, false⟩]

/-- The read side that has handled the two lines. -/
def pipelinedSide (index : Nat) : ReadSide :=
  ReadSide.handleRead plainPlatform { phase := .reading true } pipelinedRead
    (closingAt index)

theorem noMessageAfterDisconnect_closingAtLast :
    NoMessageAfterDisconnect (pipelinedSide 1).link.trace ↔
      EventRuns.EachStep (ReadSide.step plainPlatform)
        (ClosesLast plainPlatform) {}
        [.start, .received pipelinedRead (closingAt 1)] :=
  noMessageAfterDisconnect_iff plainPlatform
    [.start, .received pipelinedRead (closingAt 1)] (pipelinedSide 1) rfl

/-- Closed from inside of the first message, the connection still notifies the
second one. -/
theorem not_noMessageAfterDisconnect_closingAtFirst :
    readSideRun plainPlatform {}
        [.start, .received pipelinedRead (closingAt 0)] =
          some (pipelinedSide 0) ∧
      (pipelinedSide 0).link.trace =
        [.onMessage 0 { command := ascii "A" }, .notifyDisconnect,
          .onDisconnect 0, .onMessage 0 { command := ascii "B" }] ∧
      ¬ NoMessageAfterDisconnect (pipelinedSide 0).link.trace := by
  have traceEq : (pipelinedSide 0).link.trace =
      [.onMessage 0 { command := ascii "A" }, .notifyDisconnect,
        .onDisconnect 0, .onMessage 0 { command := ascii "B" }] := by
    rw [pipelinedSide, handleRead_eq]
    decide
  refine ⟨rfl, traceEq, ?_⟩
  rw [traceEq, NoMessageAfterDisconnect]
  decide

end Birch
