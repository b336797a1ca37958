import Birch.ConnectionReadLoop

/-!
# Rejected octets on a connection

`RunReadLoop` leaves a read at a rejected octet: it neither resets the parser
and the message, as it does behind a complete line, nor reads the octets that
follow in the buffer.  This file determines when the lines that come later are
unaffected by it, and when the cutting into reads is irrelevant.
-/

namespace Birch

open Octet IncrementalScanner

/-- The connection as the reads received so far leave it. -/
def readerAfter (platform : Platform) (history : List Read) : Reader :=
  (runReadLoop platform {} history).reader

/-- What `RunReadLoop` notifies for further reads. -/
def notifiedFrom (platform : Platform) (reader : Reader)
    (reads : List Read) : List Message :=
  (runReadLoop platform ⟨[], reader, []⟩ reads).notified

/-- The parser returns `Invalid` during the read. -/
def RejectsDuring (platform : Platform) (reader : Reader)
    (read : Read) : Prop :=
  (readBuffered platform (fun messages message => messages ++ [message])
    ([] : List Message) reader read.octets).2.2 = .invalid

/-- From here on, well-formed lines are notified as a fresh parser reads them,
however they are cut. -/
def Isolated (platform : Platform) (reader : Reader) : Prop :=
  ∀ lines messages reads, List.Forall₂ (ParsesTo platform) lines messages →
    IsCutting reads lines.flatten →
      notifiedFrom platform reader reads = messages

/-- An octet that a line may begin with. -/
def beginsLine (c : Octet) : Bool :=
  c == at_ || c == colon || isLetter c || isDigit c

/-- The read completes the line in progress, if there is one, and further whole
lines, and goes on with an octet that no line begins with. -/
def RejectedBetweenLines (platform : Platform) (reader : Reader)
    (octets : Text) : Prop :=
  ∃ whole c rest, octets = whole ++ c :: rest ∧
    (lineScanner platform).ReadsWhole reader whole ∧ beginsLine c = false

theorem readerAfter_eq (platform : Platform) (history : List Read) :
    readerAfter platform history =
      ((lineScanner platform).deliverAll {} (history.map Read.octets)).1 := by
  rw [readerAfter, runReadLoop_eq]

theorem readerAfter_concat (platform : Platform) (history : List Read)
    (read : Read) :
    readerAfter platform (history ++ [read]) =
      ((lineScanner platform).deliver (readerAfter platform history)
        read.octets).1 := by
  simp only [readerAfter_eq, List.map_append, Scanner.deliverAll_append]
  rfl

theorem notifiedFrom_eq (platform : Platform) (reader : Reader)
    (reads : List Read) :
    notifiedFrom platform reader reads =
      ((lineScanner platform).deliverAll reader (reads.map Read.octets)).2 := by
  rw [notifiedFrom, runReadLoop_eq]
  rfl

theorem scannerExit_invalid_iff (platform : Platform) (reader : Reader)
    (pending : Text) :
    scannerExit platform reader pending = .invalid ↔
      ¬ (lineScanner platform).Clean reader pending := by
  induction pending generalizing reader with
  | nil => simp [scannerExit, Scanner.Clean]
  | cons input rest ih =>
      simp only [scannerExit, Scanner.Clean]
      split <;> rename_i stepEq <;> simp only [stepEq]
      · split
        · rename_i last
          subst last
          simp [Scanner.Clean]
        · exact ih _
      · exact ih _
      · simp

theorem rejectsDuring_iff (platform : Platform) (reader : Reader)
    (read : Read) :
    RejectsDuring platform reader read ↔
      ¬ (lineScanner platform).Clean reader read.octets := by
  rw [RejectsDuring, readBuffered_eq]
  exact scannerExit_invalid_iff platform reader read.octets

/-! ## Reachable connections -/

/-- What holds of a connection between two reads. -/
structure BetweenReads (platform : Platform) (reader : Reader) : Prop where
  fine : ParserInvariant platform reader.parser reader.message
  notComplete : reader.parser.state ≠ .parseStateComplete

theorem betweenReads_start (platform : Platform) : BetweenReads platform {} :=
  ⟨parserInvariant_fresh platform, by decide⟩

/-- A rejected octet leaves the reader as it was. -/
theorem lineScanner_step_invalid {platform : Platform} {reader next : Reader}
    {input : Octet}
    (rejected : (lineScanner platform).step reader input = (next, .invalid)) :
    next = reader := by
  obtain ⟨parserEq, messageEq⟩ :=
    MessageParser.consume_invalid (consume_of_step rejected)
  rcases next with ⟨parser, message⟩
  exact congrArg₂ Reader.mk parserEq messageEq

theorem BetweenReads.step {platform : Platform} {reader : Reader}
    (between : BetweenReads platform reader) (input : Octet)
    (notDone : ((lineScanner platform).step reader input).2 ≠ .complete) :
    BetweenReads platform ((lineScanner platform).step reader input).1 := by
  rcases stepped : (lineScanner platform).step reader input
    with ⟨next, _ | _ | _⟩
  · have consumed := consume_of_step stepped
    have kept := MessageParser.consume_fine between.fine input
    rw [consumed] at kept
    exact ⟨kept, (MessageParser.consume_incomplete_state consumed).2⟩
  · rw [stepped] at notDone
    exact absurd rfl notDone
  · rw [lineScanner_step_invalid stepped]
    exact between

theorem betweenReads_after (platform : Platform) (history : List Read) :
    BetweenReads platform (readerAfter platform history) := by
  rw [readerAfter_eq]
  exact Scanner.deliverAll_keeps (betweenReads_start platform)
    (fun _ input between notDone => between.step input notDone)
    (betweenReads_start platform) _

/-- A connection whose parser stands at the start of a line is a fresh one. -/
theorem BetweenReads.eq_start {platform : Platform} {reader : Reader}
    (between : BetweenReads platform reader)
    (atStart : reader.parser.state = .parseStateStart) : reader = {} := by
  have contents := between.fine
  simp only [ParserInvariant, atStart] at contents
  rcases reader with ⟨⟨state, buffer⟩, message⟩
  simp only at atStart contents
  rw [atStart, contents.1, contents.2]

/-! ## Isolation -/

/-- A line without tags, and one with a tag: a parser inside another line
misreads one of them. -/
def plainProbe : Text := ascii "A\r\n"

def taggedProbe : Text := ascii "@a A\r\n"

theorem parsesTo_plainProbe (platform : Platform) :
    ParsesTo platform plainProbe { command := ascii "A" } :=
  ⟨_, rfl⟩

theorem parsesTo_taggedProbe (platform : Platform) :
    ParsesTo platform taggedProbe
      { command := ascii "A", tags := ⟨[(ascii "a", [])], by decide⟩ } :=
  ⟨_, rfl⟩

/-- Inside a line, one of the two probes is not notified as it should be: it
is rejected, or its letter becomes part of a parameter. -/
theorem probe_misread (platform : Platform) {reader : Reader}
    (notStart : reader.parser.state ≠ .parseStateStart)
    (notComplete : reader.parser.state ≠ .parseStateComplete) :
    ((lineScanner platform).deliver reader plainProbe).2 ≠
        [{ command := ascii "A" }] ∨
      ((lineScanner platform).deliver reader taggedProbe).2 ≠
        [{ command := ascii "A", tags := ⟨[(ascii "a", [])], by decide⟩ }] := by
  have someParam : ∀ (message : Message) (param : Text),
      [message.addParam param] ≠ [{ command := ascii "A" }] := by
    intro message param equal
    have params := congrArg Message.params (List.singleton_inj.mp equal)
    simp [Message.addParam] at params
  rcases reader with ⟨⟨state, buffer⟩, message⟩
  cases state with
  | parseStateStart => exact absurd rfl notStart
  | parseStateComplete => exact absurd rfl notComplete
  | parseStateTagKey => exact Or.inl (List.cons_ne_nil _ _).symm
  | parseStateTagValue => exact Or.inl (List.cons_ne_nil _ _).symm
  | parseStatePrefix => exact Or.inl (List.cons_ne_nil _ _).symm
  | parseStateCr => exact Or.inl (List.cons_ne_nil _ _).symm
  | parseStateAfterTags => exact Or.inr (List.cons_ne_nil _ _).symm
  | parseStateCommandNameOrNumber => exact Or.inr (List.cons_ne_nil _ _).symm
  | parseStateCommandName => exact Or.inr (List.cons_ne_nil _ _).symm
  | parseStateCommandNumber => exact Or.inr (List.cons_ne_nil _ _).symm
  | parseStateParamStart => exact Or.inl (someParam message _)
  | parseStateParam => exact Or.inl (someParam message _)
  | parseStateTrailing => exact Or.inl (someParam message _)

theorem isolated_start (platform : Platform) : Isolated platform {} := by
  intro lines messages reads wellFormed cut
  rw [notifiedFrom_eq, deliverAll_lines wellFormed cut]

/-- A single read that holds a whole line. -/
theorem notifiedFrom_single (platform : Platform) (reader : Reader)
    (read : Read) :
    notifiedFrom platform reader [read] =
      ((lineScanner platform).deliver reader read.octets).2 := by
  rw [notifiedFrom_eq]
  simp [Scanner.deliverAll]

theorem isolated_iff_start {platform : Platform} {reader : Reader}
    (between : BetweenReads platform reader) :
    Isolated platform reader ↔ reader = {} := by
  constructor
  · intro isolated
    by_contra started
    have notStart : reader.parser.state ≠ .parseStateStart :=
      fun atStart => started (between.eq_start atStart)
    have notified (line : Text) (message : Message)
        (parsed : ParsesTo platform line message) (nonempty : line ≠ [])
        (fits : line.length ≤ readBufferSize) :
        ((lineScanner platform).deliver reader line).2 = [message] := by
      rw [← notifiedFrom_single platform reader ⟨line, nonempty, fits⟩]
      exact isolated [line] [message] _ (.cons parsed .nil) rfl
    rcases probe_misread platform notStart between.notComplete
      with misread | misread
    · exact misread (notified _ _ (parsesTo_plainProbe platform)
        (by decide) (by decide))
    · exact misread (notified _ _ (parsesTo_taggedProbe platform)
        (by decide) (by decide))
  · rintro rfl
    exact isolated_start platform

theorem lineScanner_leaves_start (platform : Platform) (reader : Reader)
    (input : Octet)
    (inside : ((lineScanner platform).step reader input).2 = .incomplete) :
    ((lineScanner platform).step reader input).1 ≠ {} := by
  intro atStart
  have consumed := consume_of_step (Prod.ext atStart inside)
  exact (MessageParser.consume_incomplete_state consumed).1 rfl

/-- What a fresh parser rejects at once. -/
theorem start_rejects_iff (platform : Platform) (c : Octet) :
    (lineScanner platform).step {} c = ({}, .invalid) ↔
      beginsLine c = false := by
  have nulBegins : beginsLine nul = false := by decide
  simp only [lineScanner_step, MessageParser.consume,
    MessageParser.consumeStart, MessageParser.consumeCommandStart,
    MessageParser.push, beginsLine] at nulBegins ⊢
  grind

/-- A read is left in the starting state just when its rejected octet stands
between two lines. -/
theorem deliver_eq_start_iff {platform : Platform} {reader : Reader}
    {octets : Text}
    (rejected : ¬ (lineScanner platform).Clean reader octets) :
    ((lineScanner platform).deliver reader octets).1 = {} ↔
      RejectedBetweenLines platform reader octets := by
  constructor
  · intro atStart
    obtain ⟨whole, c, rest, rfl, clean, step⟩ := Scanner.exists_rejected rejected
    rw [atStart] at step
    have stands := lineScanner_step_invalid step
    refine ⟨whole, c, rest, rfl, ?_, ?_⟩
    · exact Scanner.readsWhole_of_clean (lineScanner_leaves_start platform)
        clean stands.symm
    · rw [← stands] at step
      exact (start_rejects_iff platform c).mp step
  · rintro ⟨whole, c, rest, rfl, readsWhole, noStart⟩
    have step : (lineScanner platform).step
        ((lineScanner platform).deliver reader whole).1 c = ({}, .invalid) := by
      rw [readsWhole.deliver_fst]
      exact (start_rejects_iff platform c).mpr noStart
    rw [Scanner.deliver_rejected readsWhole.clean step]

/-- A read that is rejected leaves the connection isolated from it exactly when
the rejected octet stands between two lines: where nothing of a line has been
read, nothing of it can be kept. -/
theorem isolated_after_rejection_iff (platform : Platform)
    (history : List Read) (read : Read)
    (rejected : RejectsDuring platform (readerAfter platform history) read) :
    Isolated platform (readerAfter platform (history ++ [read])) ↔
      RejectedBetweenLines platform (readerAfter platform history)
        read.octets := by
  rw [rejectsDuring_iff] at rejected
  rw [isolated_iff_start (betweenReads_after platform _), readerAfter_concat]
  exact deliver_eq_start_iff rejected

/-- A line, and an octet that begins none. -/
def strayRead : Read := ⟨ascii "A\r\n ", by decide, by decide⟩

theorem isolated_after_strayRead :
    RejectsDuring plainPlatform (readerAfter plainPlatform []) strayRead ∧
      (Isolated plainPlatform (readerAfter plainPlatform ([] ++ [strayRead])) ↔
        RejectedBetweenLines plainPlatform (readerAfter plainPlatform [])
          strayRead.octets) := by
  have rejected :
      RejectsDuring plainPlatform (readerAfter plainPlatform []) strayRead := by
    rw [rejectsDuring_iff]
    exact id
  exact ⟨rejected, isolated_after_rejection_iff plainPlatform [] strayRead rejected⟩

/-- A line that is rejected inside its parameter. -/
def tornRead : Read := ⟨ascii "LIST x\x00", by decide, by decide⟩

def pingRead : Read := ⟨ascii "PING\r\n", by decide, by decide⟩

/-- Behind the torn line, a well-formed one is read as its continuation. -/
theorem not_isolated_after_tornRead :
    RejectsDuring plainPlatform (readerAfter plainPlatform []) tornRead ∧
      ParsesTo plainPlatform pingRead.octets { command := ascii "PING" } ∧
      notifiedFrom plainPlatform (readerAfter plainPlatform ([] ++ [tornRead]))
          [pingRead] =
        [{ command := ascii "LIST", params := [ascii "xPING"] }] ∧
      ¬ Isolated plainPlatform
        (readerAfter plainPlatform ([] ++ [tornRead])) := by
  have parsed :
      ParsesTo plainPlatform pingRead.octets { command := ascii "PING" } :=
    ⟨_, rfl⟩
  have notified :
      notifiedFrom plainPlatform (readerAfter plainPlatform ([] ++ [tornRead]))
          [pingRead] =
        [{ command := ascii "LIST", params := [ascii "xPING"] }] := by
    rw [notifiedFrom_eq, readerAfter_eq]
    decide
  refine ⟨?_, parsed, notified, ?_⟩
  · rw [rejectsDuring_iff]
    exact id
  · intro isolated
    have expected := isolated [pingRead.octets] [_] [pingRead]
      (.cons parsed .nil) rfl
    rw [notified] at expected
    exact absurd expected (by decide)

/-! ## Cutting -/

/-- No read has octets behind a rejected one: `RunReadLoop` leaves none of the
stream unread. -/
def LeavesNothingUnread (platform : Platform) (reads : List Read) : Prop :=
  (lineScanner platform).Tidy {} (reads.map Read.octets)

/-- Two cuttings of a stream into reads that leave nothing of it unread yield
the same messages. -/
theorem notified_eq_of_cuttings (platform : Platform) (stream : Text)
    (first second : List Read)
    (firstCut : IsCutting first stream) (secondCut : IsCutting second stream)
    (firstWhole : LeavesNothingUnread platform first)
    (secondWhole : LeavesNothingUnread platform second) :
    (runReadLoop platform {} first).notified =
      (runReadLoop platform {} second).notified := by
  rw [runReadLoop_notified, runReadLoop_notified,
    Scanner.deliverAll_of_tidy firstWhole,
    Scanner.deliverAll_of_tidy secondWhole, firstCut, secondCut]

/-- Cut behind the octet that is rejected, and inside the line. -/
def strayReads : List Read :=
  [⟨[nul], by decide, by decide⟩, ⟨ascii "PI", by decide, by decide⟩,
    ⟨ascii "NG\r\n", by decide, by decide⟩]

def strayReads' : List Read :=
  [⟨[nul], by decide, by decide⟩, pingRead]

theorem notified_strayReads :
    (runReadLoop plainPlatform {} strayReads).notified =
      (runReadLoop plainPlatform {} strayReads').notified :=
  notified_eq_of_cuttings plainPlatform (nul :: ascii "PING\r\n") strayReads
    strayReads' rfl rfl
    ⟨trivial, trivial, trivial, trivial⟩ ⟨trivial, trivial, trivial⟩

/-- One read of the same octets. -/
def strayWholeRead : Read :=
  ⟨nul :: ascii "PING\r\n", by decide, by decide⟩

/-- The line is notified if it comes with a read of its own, and is dropped if
it comes behind the rejected octet in one read. -/
theorem notified_ne_strayWholeRead :
    IsCutting strayReads' strayWholeRead.octets ∧
      IsCutting [strayWholeRead] strayWholeRead.octets ∧
      (runReadLoop plainPlatform {} strayReads').notified =
        [{ command := ascii "PING" }] ∧
      (runReadLoop plainPlatform {} [strayWholeRead]).notified = [] := by
  refine ⟨rfl, rfl, ?_, ?_⟩
  · rw [runReadLoop_notified]
    decide
  · rw [runReadLoop_notified]
    decide

end Birch
