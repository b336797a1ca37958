import Birch.ConnectionDisconnect

/-!
# The session behind a connection

A `SessionConnectionObserver` gives its session the messages that a connection
notifies, and gives the connection the messages that its session emits, until
the connection tells it of an error or of the disconnect: it then closes the
session and drops both.  This file determines what the session of a connection
is given in any run, also where messages are notified after the disconnect.
-/

namespace Birch

open IncrementalScanner

/-- An `absl::Status`. -/
inductive Status
  | ok
  | error (message : String)
  deriving DecidableEq

inductive SessionCall
  | acceptMessage (message : Message)
  | close (status : Status)
  deriving DecidableEq

/-- What a `SessionConnectionObserver` calls. -/
inductive AdapterCall
  | session (call : SessionCall)
  | deliverResponse (message : Message)
  deriving DecidableEq

namespace AdapterCall

def session? : AdapterCall → Option SessionCall
  | session call => some call
  | deliverResponse _ => none

def deliverResponse? : AdapterCall → Option Message
  | session _ => none
  | deliverResponse message => some message

end AdapterCall

/-- Whether `m_session` and `m_connection` are there, and the calls that have
been made through them. -/
structure SessionConnectionObserver where
  session : Bool := true
  connection : Bool := true
  calls : List AdapterCall := []
  deriving DecidableEq

namespace SessionConnectionObserver

variable (adapter : SessionConnectionObserver)

def call (call : AdapterCall) : SessionConnectionObserver :=
  { adapter with calls := adapter.calls ++ [call] }

/-- What `DeliverResponse` returns is only logged. -/
def onMessageEmitted (message : Message) : SessionConnectionObserver :=
  if adapter.connection then
    adapter.call (.deliverResponse message)
  else
    adapter

/-- A call of the session, which may emit messages before it returns. -/
def callSession (call : SessionCall) (emitted : List Message) :
    SessionConnectionObserver :=
  if adapter.session then
    emitted.foldl onMessageEmitted (adapter.call (.session call))
  else
    adapter

def onMessage (message : Message) (emitted : List Message) :
    SessionConnectionObserver :=
  adapter.callSession (.acceptMessage message) emitted

/-- The session is closed before the pointers are set to null. -/
def closeSession (status : Status) (emitted : List Message) :
    SessionConnectionObserver :=
  { adapter.callSession (.close status) emitted with
    session := false, connection := false }

def onError (status : Status) (emitted : List Message) :
    SessionConnectionObserver :=
  adapter.closeSession status emitted

def onDisconnect (emitted : List Message) : SessionConnectionObserver :=
  adapter.closeSession .ok emitted

end SessionConnectionObserver

/-- The methods of an `IConnectionObserver`. -/
inductive ConnectionCallback
  | onMessage (message : Message)
  | onError (status : Status)
  | onDisconnect
  deriving DecidableEq

/-- What happens at the adapter: a callback, with what the session emits from
inside of it, or the session emits a message at another time. -/
inductive AdapterEvent
  | notified (callback : ConnectionCallback) (emitted : List Message)
  | emits (message : Message)

namespace AdapterEvent

def callback? : AdapterEvent → Option ConnectionCallback
  | notified callback _ => some callback
  | emits _ => none

def emitted : AdapterEvent → List Message
  | notified _ emitted => emitted
  | emits message => [message]

end AdapterEvent

def SessionConnectionObserver.react (adapter : SessionConnectionObserver) :
    AdapterEvent → SessionConnectionObserver
  | .notified (.onMessage message) emitted => adapter.onMessage message emitted
  | .notified (.onError status) emitted => adapter.onError status emitted
  | .notified .onDisconnect emitted => adapter.onDisconnect emitted
  | .emits message => adapter.onMessageEmitted message

/-! ## What the adapter calls -/

namespace ConnectionCallback

/-- The adapter drops its session with this callback. -/
def ends : ConnectionCallback → Bool
  | onMessage _ => false
  | onError _ => true
  | onDisconnect => true

/-- What the session is called with. -/
def sessionCall : ConnectionCallback → SessionCall
  | onMessage message => .acceptMessage message
  | onError status => .close status
  | onDisconnect => .close .ok

/-- The calls of a session for these callbacks: none after the first one that
ends it. -/
def sessionCalls : List ConnectionCallback → List SessionCall
  | [] => []
  | callback :: callbacks =>
      callback.sessionCall ::
        if callback.ends then [] else sessionCalls callbacks

theorem sessionCalls_append (first second : List ConnectionCallback) :
    sessionCalls (first ++ second) =
      sessionCalls first ++
        if first.any ends then [] else sessionCalls second := by
  induction first with
  | nil => simp [sessionCalls]
  | cons callback first ih =>
      cases ending : callback.ends with
      | true => simp [sessionCalls, ending]
      | false => simp [sessionCalls, ending, ih]

end ConnectionCallback

/-- The events up to the one that ends the session. -/
def untilEnd : List AdapterEvent → List AdapterEvent
  | [] => []
  | event :: events =>
      event :: if event.callback?.any ConnectionCallback.ends then []
        else untilEnd events

namespace SessionConnectionObserver

/-- A call that is made through both pointers. -/
def madeCalls : AdapterEvent → List AdapterCall
  | .notified callback emitted =>
      .session callback.sessionCall :: emitted.map .deliverResponse
  | .emits message => [.deliverResponse message]

theorem foldl_onMessageEmitted {adapter : SessionConnectionObserver}
    (connected : adapter.connection = true) (emitted : List Message) :
    emitted.foldl onMessageEmitted adapter =
      { adapter with
        calls := adapter.calls ++ emitted.map .deliverResponse } := by
  induction emitted generalizing adapter with
  | nil => simp
  | cons message emitted ih =>
      have delivered : adapter.onMessageEmitted message =
          adapter.call (.deliverResponse message) := by
        rw [onMessageEmitted, if_pos connected]
      have stays :
          (adapter.call (.deliverResponse message)).connection = true :=
        connected
      rw [List.foldl_cons, delivered, ih stays]
      simp [call]

/-- What an event does as long as both pointers are there. -/
theorem react_connected (calls : List AdapterCall) (event : AdapterEvent) :
    react ⟨true, true, calls⟩ event =
      { session := !event.callback?.any ConnectionCallback.ends
        connection := !event.callback?.any ConnectionCallback.ends
        calls := calls ++ madeCalls event } := by
  have called : ∀ call emitted,
      callSession ⟨true, true, calls⟩ call emitted =
        ⟨true, true,
          calls ++ .session call :: emitted.map .deliverResponse⟩ := by
    intro call emitted
    rw [callSession, if_pos rfl, foldl_onMessageEmitted rfl]
    simp [SessionConnectionObserver.call]
  cases event with
  | notified callback emitted =>
      cases callback with
      | onMessage message => exact called (.acceptMessage message) emitted
      | onError status =>
          simp [react, onError, closeSession, called, madeCalls,
            AdapterEvent.callback?, ConnectionCallback.ends,
            ConnectionCallback.sessionCall]
      | onDisconnect =>
          simp [react, onDisconnect, closeSession, called, madeCalls,
            AdapterEvent.callback?, ConnectionCallback.ends,
            ConnectionCallback.sessionCall]
  | emits message => rfl

/-- Without its pointers, the adapter calls nothing any more. -/
theorem foldl_react_dropped (calls : List AdapterCall)
    (events : List AdapterEvent) :
    events.foldl react ⟨false, false, calls⟩ = ⟨false, false, calls⟩ := by
  induction events with
  | nil => rfl
  | cons event events ih =>
      have stays : react ⟨false, false, calls⟩ event =
          ⟨false, false, calls⟩ := by
        cases event with
        | notified callback emitted => cases callback <;> rfl
        | emits message => rfl
      rw [List.foldl_cons, stays, ih]

/-- By induction on the events: the adapter makes the calls of each one up to
the one that ends the session. -/
theorem foldl_react (calls : List AdapterCall) (events : List AdapterEvent) :
    let dropped := events.any (·.callback?.any ConnectionCallback.ends)
    events.foldl react ⟨true, true, calls⟩ =
      ⟨!dropped, !dropped, calls ++ (untilEnd events).flatMap madeCalls⟩ := by
  induction events generalizing calls with
  | nil => simp [untilEnd]
  | cons event events ih =>
      rw [List.foldl_cons, react_connected]
      cases ending : event.callback?.any ConnectionCallback.ends with
      | true =>
          rw [Bool.not_true, foldl_react_dropped]
          simp [untilEnd, ending]
      | false =>
          rw [Bool.not_false, ih]
          simp [untilEnd, ending]

theorem filterMap_deliverResponse?_madeCalls (event : AdapterEvent) :
    (madeCalls event).filterMap AdapterCall.deliverResponse? =
      event.emitted := by
  cases event with
  | notified callback emitted =>
      have each : AdapterCall.deliverResponse? ∘ AdapterCall.deliverResponse =
          some := rfl
      rw [madeCalls, List.filterMap_cons_none rfl, List.filterMap_map, each,
        List.filterMap_some, AdapterEvent.emitted]
  | emits message => rfl

/-- What the session emits has no part in how it is called. -/
theorem sessionCalls_untilEnd (events : List AdapterEvent) :
    ((untilEnd events).flatMap madeCalls).filterMap AdapterCall.session? =
      ConnectionCallback.sessionCalls
        (events.filterMap AdapterEvent.callback?) := by
  induction events with
  | nil => rfl
  | cons event events ih =>
      cases event with
      | notified callback emitted =>
          have none : (emitted.map AdapterCall.deliverResponse).filterMap
              AdapterCall.session? = [] := by
            simp [AdapterCall.session?]
          cases ending : callback.ends with
          | true =>
              simp [untilEnd, AdapterEvent.callback?, ending, madeCalls, none,
                AdapterCall.session?, ConnectionCallback.sessionCalls]
          | false =>
              simp [untilEnd, AdapterEvent.callback?, ending, madeCalls, none,
                AdapterCall.session?, ConnectionCallback.sessionCalls, ih]
      | emits message =>
          simp [untilEnd, AdapterEvent.callback?, madeCalls,
            AdapterCall.session?, List.filterMap_cons, ih]

end SessionConnectionObserver

/-! ## What a connection notifies to the adapter -/

/-- The callback that a notice is for the observer. -/
def Notice.callbackOf (observer : ObserverId) :
    Notice → Option ConnectionCallback
  | .onMessage called message =>
      if called = observer then some (.onMessage message) else none
  | .notifyDisconnect => none
  | .onDisconnect called =>
      if called = observer then some .onDisconnect else none

/-- The callbacks that the observer has been given, in their order. -/
def Link.heardBy (observer : ObserverId) (link : Link) :
    List ConnectionCallback :=
  link.trace.filterMap (Notice.callbackOf observer)

/-- A session behind the connection has been given a beginning of the messages,
and has been closed if the socket has been. -/
structure SessionServed (observer : ObserverId) (messages : List Message)
    (link : Link) : Prop where
  ended : (link.heardBy observer).any ConnectionCallback.ends = !link.socketOpen
  given : ∃ accepted, accepted <+: messages ∧
    (link.socketOpen = true → accepted = messages) ∧
      ConnectionCallback.sessionCalls (link.heardBy observer) =
        accepted.map .acceptMessage ++
          if link.socketOpen then [] else [.close .ok]

/-- The observer is called once for each message, and for the disconnect. -/
def Attends (observer : ObserverId) : ReadEvent → Prop
  | .start => True
  | .received _ calls =>
      (∀ i, (calls.onMessage i).countP (·.observer = observer) = 1) ∧
        ∃ call ∈ calls.onDisconnect, call.observer = observer
  | .readFailed onDisconnect =>
      ∃ call ∈ onDisconnect, call.observer = observer
  | .close onDisconnect => ∃ call ∈ onDisconnect, call.observer = observer

namespace SessionServed

variable {observer : ObserverId} {messages : List Message} {link : Link}
  {onDisconnect : List ObserverCall}

theorem filterMap_callbackOf_onDisconnect (calls : List ObserverCall) :
    (calls.map fun call => Notice.onDisconnect call.observer).filterMap
        (Notice.callbackOf observer) =
      List.replicate (calls.countP (·.observer = observer)) .onDisconnect := by
  induction calls with
  | nil => rfl
  | cons call calls ih =>
      by_cases same : call.observer = observer
      · simp [Notice.callbackOf, same, ih, List.replicate_succ]
      · simp [Notice.callbackOf, same, ih]

/-- The adapter hears of the disconnect, once or several times. -/
theorem heardBy_disconnected (link : Link)
    (attends : ∃ call ∈ onDisconnect, call.observer = observer) :
    ∃ count, (link.disconnected onDisconnect).heardBy observer =
      link.heardBy observer ++
        List.replicate (count + 1) .onDisconnect := by
  have told : 0 < onDisconnect.countP (·.observer = observer) := by
    apply List.countP_pos_iff.mpr
    simpa using attends
  refine ⟨onDisconnect.countP (·.observer = observer) - 1, ?_⟩
  rw [Nat.sub_add_cancel told, ← filterMap_callbackOf_onDisconnect,
    Link.heardBy, Link.heardBy, Link.disconnected, List.filterMap_append,
    List.filterMap_cons_none rfl]

theorem closeUnderLock (served : SessionServed observer messages link)
    (attends : ∃ call ∈ onDisconnect, call.observer = observer) :
    SessionServed observer messages (link.closeUnderLock onDisconnect) := by
  rcases opened : link.socketOpen
  · rwa [Link.closeUnderLock_closed onDisconnect opened]
  · rw [Link.closeUnderLock_open onDisconnect opened]
    obtain ⟨count, heard⟩ := heardBy_disconnected link attends
    obtain ⟨accepted, beginning, _, calls⟩ := served.given
    have notEnded := served.ended
    rw [opened, Bool.not_true] at notEnded
    refine ⟨?_, accepted, beginning, by simp [Link.disconnected], ?_⟩
    · rw [heard, List.any_append, notEnded]
      simp [ConnectionCallback.ends, Link.disconnected]
    · rw [heard, ConnectionCallback.sessionCalls_append, notEnded, calls]
      simp [opened, Link.disconnected, List.replicate_succ,
        ConnectionCallback.sessionCalls, ConnectionCallback.ends,
        ConnectionCallback.sessionCall]

/-- The notification of the message to the adapter itself. -/
theorem record (served : SessionServed observer messages link)
    (message : Message) :
    SessionServed observer (messages ++ [message])
      (link.record (.onMessage observer message)) := by
  have heard : (link.record (.onMessage observer message)).heardBy observer =
      link.heardBy observer ++ [.onMessage message] := by
    simp [Link.heardBy, Link.record, Notice.callbackOf]
  have ended := served.ended
  obtain ⟨accepted, beginning, all, calls⟩ := served.given
  rcases opened : link.socketOpen
  · rw [opened] at ended calls
    refine ⟨?_, accepted,
      beginning.trans (List.prefix_append messages [message]), ?_, ?_⟩
    · rw [heard, List.any_append, ended]
      simp [Link.record, opened]
    · simp [Link.record, opened]
    · rw [heard, ConnectionCallback.sessionCalls_append, ended, calls]
      simp [Link.record, opened]
  · rw [opened] at ended calls
    refine ⟨?_, messages ++ [message], List.prefix_refl _, fun _ => rfl, ?_⟩
    · rw [heard, List.any_append, ended]
      simp [Link.record, opened, ConnectionCallback.ends]
    · rw [heard, ConnectionCallback.sessionCalls_append, ended, calls,
        all opened]
      simp [Link.record, opened, ConnectionCallback.sessionCalls,
        ConnectionCallback.sessionCall]

/-- The notification of a message to another observer. -/
theorem record_other (served : SessionServed observer messages link)
    {other : ObserverId} (notSame : other ≠ observer) (message : Message) :
    SessionServed observer messages
      (link.record (.onMessage other message)) := by
  have heard : (link.record (.onMessage other message)).heardBy observer =
      link.heardBy observer := by
    simp [Link.heardBy, Link.record, Notice.callbackOf, notSame]
  refine ⟨?_, ?_⟩
  · rw [heard]
    exact served.ended
  · rw [heard]
    exact served.given

theorem messageCall_other (served : SessionServed observer messages link)
    (attends : ∃ call ∈ onDisconnect, call.observer = observer)
    {call : ObserverCall} (notSame : call.observer ≠ observer)
    (message : Message) :
    SessionServed observer messages
      (link.messageCall onDisconnect (call, message)) := by
  have recorded := served.record_other notSame message
  unfold Link.messageCall Link.call
  by_cases closes : call.closes = true
  · simpa only [closes, if_true] using recorded.closeUnderLock attends
  · simpa only [closes, Bool.false_eq_true, if_false] using recorded

theorem messageCall_self (served : SessionServed observer messages link)
    (attends : ∃ call ∈ onDisconnect, call.observer = observer)
    {call : ObserverCall} (same : call.observer = observer)
    (message : Message) :
    SessionServed observer (messages ++ [message])
      (link.messageCall onDisconnect (call, message)) := by
  have recorded := served.record message
  rw [← same] at recorded attends ⊢
  unfold Link.messageCall Link.call
  by_cases closes : call.closes = true
  · simpa only [closes, if_true] using recorded.closeUnderLock attends
  · simpa only [closes, Bool.false_eq_true, if_false] using recorded

theorem foldl_messageCall_others {calls : List ObserverCall}
    (served : SessionServed observer messages link)
    (attends : ∃ call ∈ onDisconnect, call.observer = observer)
    (others : ∀ call ∈ calls, call.observer ≠ observer) (message : Message) :
    SessionServed observer messages
      ((calls.map (·, message)).foldl
        (Link.messageCall onDisconnect) link) := by
  induction calls generalizing link with
  | nil => exact served
  | cons call calls ih =>
      obtain ⟨first, later⟩ := List.forall_mem_cons.mp others
      exact ih (served.messageCall_other attends first message) later

/-- One message, with the adapter among the observers that it is notified to:
any of them may close the connection. -/
theorem foldl_messageCall {calls : List ObserverCall}
    (served : SessionServed observer messages link)
    (attends : ∃ call ∈ onDisconnect, call.observer = observer)
    (once : calls.countP (·.observer = observer) = 1) (message : Message) :
    SessionServed observer (messages ++ [message])
      ((calls.map (·, message)).foldl
        (Link.messageCall onDisconnect) link) := by
  induction calls generalizing link with
  | nil => cases once
  | cons call calls ih =>
      by_cases same : call.observer = observer
      · have others : ∀ call ∈ calls, call.observer ≠ observer := by
          simpa [same, List.countP_eq_zero] using once
        have given := served.messageCall_self attends same message
        exact given.foldl_messageCall_others attends others message
      · have laterOnce : calls.countP (·.observer = observer) = 1 := by
          simpa [same] using once
        exact ih (served.messageCall_other attends same message) laterOnce

/-- The messages of a read, one after the other. -/
theorem foldl_messageCalls {onMessage : Nat → List ObserverCall}
    (served : SessionServed observer messages link)
    (attends : ∃ call ∈ onDisconnect, call.observer = observer)
    (once : ∀ i, (onMessage i).countP (·.observer = observer) = 1)
    (later : List Message) (i : Nat) :
    SessionServed observer (messages ++ later)
      ((messageCalls onMessage i later).foldl
        (Link.messageCall onDisconnect) link) := by
  induction later generalizing messages link i with
  | nil => simpa [messageCalls] using served
  | cons message later ih =>
      rw [messageCalls, List.foldl_append, List.append_cons]
      exact ih (served.foldl_messageCall attends (once i) message) (i + 1)

end SessionServed

/-! ## Runs of a connection -/

/-- The reads that are handled in a run. -/
def readsOf : List ReadEvent → List Read
  | [] => []
  | .received read _ :: events => read :: readsOf events
  | _ :: events => readsOf events

theorem reader_handleRead (platform : Platform) (side : ReadSide) (read : Read)
    (calls : ReadCalls) :
    (side.handleRead platform read calls).reader =
      ((lineScanner platform).deliver side.reader read.octets).1 := by
  simp only [ReadSide.handleRead, readBuffered_eq]

theorem readsOf_cons (event : ReadEvent) (events : List ReadEvent) :
    readsOf (event :: events) = readsOf [event] ++ readsOf events := by
  cases event <;> rfl

/-- A read adds its messages, and the other events add none. -/
theorem SessionServed.step {platform : Platform} {observer : ObserverId}
    {messages : List Message} {side next : ReadSide} {event : ReadEvent}
    (served : SessionServed observer messages side.link)
    (attends : Attends observer event)
    (stepped : side.step platform event = some next) :
    let delivered := (lineScanner platform).deliverAll side.reader
      ((readsOf [event]).map Read.octets)
    next.reader = delivered.1 ∧
      SessionServed observer (messages ++ delivered.2) next.link := by
  cases event with
  | start =>
      simp only [ReadSide.step] at stepped
      split at stepped
      · obtain rfl := Option.some.inj stepped
        simpa [readsOf, Scanner.deliverAll] using served
      · cases stepped
  | received read calls =>
      simp only [ReadSide.step] at stepped
      split at stepped
      · obtain rfl := Option.some.inj stepped
        have given := served.foldl_messageCalls attends.2 attends.1
          ((lineScanner platform).deliver side.reader read.octets).2 0
        rw [← ReadSide.onMessageCalls, ← handleRead_eq] at given
        simpa [readsOf, Scanner.deliverAll, reader_handleRead] using given
      · cases stepped
  | readFailed onDisconnect =>
      simp only [ReadSide.step] at stepped
      split at stepped
      · obtain rfl := Option.some.inj stepped
        simpa [readsOf, Scanner.deliverAll] using
          served.closeUnderLock attends
      · cases stepped
  | close onDisconnect =>
      obtain rfl := Option.some.inj stepped
      simpa [readsOf, Scanner.deliverAll] using served.closeUnderLock attends

theorem SessionServed.run {platform : Platform} {observer : ObserverId}
    {messages : List Message} {side final : ReadSide} {events : List ReadEvent}
    (served : SessionServed observer messages side.link)
    (attends : ∀ event ∈ events, Attends observer event)
    (ran : readSideRun platform side events = some final) :
    SessionServed observer
      (messages ++ ((lineScanner platform).deliverAll side.reader
        ((readsOf events).map Read.octets)).2) final.link := by
  induction events generalizing messages side with
  | nil =>
      obtain rfl := Option.some.inj ran
      simpa [readsOf, Scanner.deliverAll] using served
  | cons event events ih =>
      obtain ⟨next, stepped, rest⟩ := EventRuns.run_cons ran
      obtain ⟨here, later⟩ := List.forall_mem_cons.mp attends
      obtain ⟨reader, given⟩ := served.step here stepped
      have all := ih given later rest
      rw [reader, List.append_assoc] at all
      rw [readsOf_cons, List.map_append, Scanner.deliverAll_append]
      exact all

/-- What the adapter is told of a connection and of its session, in the order
in which it happens. -/
def IsExchange (observer : ObserverId) (link : Link)
    (exchange : List AdapterEvent) : Prop :=
  exchange.filterMap AdapterEvent.callback? = link.heardBy observer

/-- What the adapter has done for a session: it has given it a beginning of the
messages and has closed it if the connection is closed, and it has handed over
all that the session emitted until it had been closed. -/
structure Adapts (messages : List Message) (isOpen : Bool)
    (exchange : List AdapterEvent) (adapter : SessionConnectionObserver) : Prop
    where
  session : adapter.session = isOpen
  connection : adapter.connection = isOpen
  given : ∃ accepted, accepted <+: messages ∧
    (isOpen = true → accepted = messages) ∧
      adapter.calls.filterMap AdapterCall.session? =
        accepted.map .acceptMessage ++ if isOpen then [] else [.close .ok]
  delivered : adapter.calls.filterMap AdapterCall.deliverResponse? =
    (untilEnd exchange).flatMap AdapterEvent.emitted

/-- In a run of a connection whose observers may close it at any time, the
session behind it is given the messages of the reads up to some point, once and
in their order, and is closed once, behind them, exactly if the socket has been
closed: also where messages are notified after the disconnect. -/
theorem connection_adapts (platform : Platform) (observer : ObserverId)
    (events : List ReadEvent) (side : ReadSide)
    (ran : readSideRun platform {} events = some side)
    (attends : ∀ event ∈ events, Attends observer event)
    (exchange : List AdapterEvent)
    (heard : IsExchange observer side.link exchange) :
    Adapts (runReadLoop platform {} (readsOf events)).notified
      side.link.socketOpen exchange
      (exchange.foldl SessionConnectionObserver.react {}) := by
  have initial : SessionServed observer [] ({} : ReadSide).link :=
    ⟨rfl, [], List.nil_prefix, fun _ => rfl, rfl⟩
  have served := initial.run attends ran
  rw [List.nil_append] at served
  have dropped : exchange.any (·.callback?.any ConnectionCallback.ends) =
      !side.link.socketOpen := by
    rw [← served.ended, ← heard, List.any_filterMap]
    rfl
  rw [SessionConnectionObserver.foldl_react, dropped, Bool.not_not,
    runReadLoop_notified]
  refine ⟨rfl, rfl, ?_, ?_⟩
  · have given := served.given
    rw [← heard, ← SessionConnectionObserver.sessionCalls_untilEnd] at given
    exact given
  · rw [List.nil_append, List.filterMap_flatMap]
    simp only [SessionConnectionObserver.filterMap_deliverResponse?_madeCalls]

/-- The session is closed from inside of its first message, and emits a message
then and another one later. -/
def hungUpExchange : List AdapterEvent :=
  [.notified (.onMessage { command := ascii "A" }) [],
    .notified .onDisconnect [{ command := ascii "ERROR" }],
    .notified (.onMessage { command := ascii "B" }) [],
    .emits { command := ascii "PING" }]

/-- The second message is notified after the disconnect, and the session is not
given it. -/
theorem connection_adapts_closingAtFirst :
    Adapts (runReadLoop plainPlatform {} [pipelinedRead]).notified
        (pipelinedSide 0).link.socketOpen hungUpExchange
        (hungUpExchange.foldl SessionConnectionObserver.react {}) ∧
      hungUpExchange.foldl SessionConnectionObserver.react {} =
        { session := false
          connection := false
          calls :=
            [.session (.acceptMessage { command := ascii "A" }),
              .session (.close .ok),
              .deliverResponse { command := ascii "ERROR" }] } := by
  have heard : IsExchange 0 (pipelinedSide 0).link hungUpExchange := by
    rw [IsExchange, Link.heardBy, pipelinedSide, handleRead_eq]
    decide
  have attends : ∀ event ∈ [.start, .received pipelinedRead (closingAt 0)],
      Attends 0 event := by
    simp [Attends, closingAt]
  exact ⟨connection_adapts plainPlatform 0
    [.start, .received pipelinedRead (closingAt 0)] (pipelinedSide 0) rfl
    attends hungUpExchange heard, rfl⟩

end Birch
