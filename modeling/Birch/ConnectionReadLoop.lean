import Birch.MessageParserInvariant

/-!
# The read loop of a connection

`RunReadLoop` parses what each read put into the buffer of the connection.
This file models the loop over the reads that succeed, proves that it drives
the line scanner over them, and that well-formed lines are framed correctly
however they are cut into reads.
-/

namespace Birch

open Octet IncrementalScanner

/-- The size of `m_buffer`. -/
def readBufferSize : Nat := 4096

/-- What a successful `async_read_some` into `m_buffer` delivers. -/
structure Read where
  octets : Text
  nonempty : octets ≠ []
  fits : octets.length ≤ readBufferSize

/-- How the inner loop of `RunReadLoop` ends: with `pos == end`, at one of its
two `break` statements, at the `DCHECK`, or at the `LOG(FATAL)`. -/
inductive LoopExit
  | drained
  | invalid
  | incomplete
  | dcheckFailed
  | fatal
  deriving DecidableEq, Repr

/-- The process does not survive these. -/
def LoopExit.aborts : LoopExit → Bool
  | .dcheckFailed => true
  | .fatal => true
  | _ => false

theorem scan_rest_length (platform : Platform) (reader : Reader)
    {pending : Text} (nonempty : pending ≠ []) :
    ((lineScanner platform).scan reader pending).2.2.length <
      pending.length := by
  induction pending generalizing reader with
  | nil => exact absurd rfl nonempty
  | cons input rest ih =>
      simp only [Scanner.scan]
      split
      · rename_i next _
        rcases rest with _ | ⟨second, rest⟩
        · simp [Scanner.scan]
        · have shorter := ih next (by simp)
          simp only [List.length_cons] at shorter ⊢
          omega
      · simp
      · simp

/-- `Parse` consumes at least one octet. -/
theorem parse_rest_length (platform : Platform) (reader : Reader)
    {pending : Text} (nonempty : pending ≠ []) :
    (reader.parser.parse platform reader.message pending).2.length <
      pending.length := by
  have shorter := scan_rest_length platform reader nonempty
  rw [parse_eq_scan]
  exact shorter

/-- The inner loop of `RunReadLoop` on the octets from `pos` to `end`.
`notify` is `NotifyMessage`, acting on the world around the parser. -/
def readBuffered {World : Type*} (platform : Platform)
    (notify : World → Message → World) (world : World) (reader : Reader)
    (pending : Text) : World × Reader × LoopExit :=
  if _ : pending = [] then
    (world, reader, .drained)
  else
    let parsed := reader.parser.parse platform reader.message pending
    let parser := parsed.1.1
    let message := parsed.1.2.1
    let parseState := parsed.1.2.2
    let rest := parsed.2
    if parseState = .complete then
      readBuffered platform notify (notify world message)
        ⟨parser.reset, {}⟩ rest
    else if parseState = .invalid then
      -- Neither the parser nor the message is reset, and `rest` is not read.
      (world, ⟨parser, message⟩, .invalid)
    else if parseState = .incomplete then
      if rest = [] then
        (world, ⟨parser, message⟩, .incomplete)
      else
        (world, ⟨parser, message⟩, .dcheckFailed)
    else
      (world, ⟨parser, message⟩, .fatal)
termination_by pending.length
decreasing_by exact parse_rest_length platform reader ‹_›

/-- The messages notified so far, what the loop holds between two reads, and
how each read was left. -/
structure ReadRun where
  notified : List Message := []
  reader : Reader := {}
  exits : List LoopExit := []

/-- `RunReadLoop` over the reads of a connection, up to an abort. -/
def runReadLoop (platform : Platform) : ReadRun → List Read → ReadRun
  | run, [] => run
  | run, read :: reads =>
      let (notified, reader, exit) := readBuffered platform
        (fun messages message => messages ++ [message])
        run.notified run.reader read.octets
      let next : ReadRun := ⟨notified, reader, run.exits ++ [exit]⟩
      if exit.aborts then next else runReadLoop platform next reads

/-- A cutting of a stream into the reads that deliver it. -/
def IsCutting (reads : List Read) (stream : Text) : Prop :=
  (reads.map Read.octets).flatten = stream

/-! ## The loop drives the line scanner -/

/-- How the inner loop is left, read off the scanner. -/
def scannerExit (platform : Platform) : Reader → Text → LoopExit
  | _, [] => .drained
  | reader, input :: rest =>
      match (lineScanner platform).step reader input with
      | (next, .incomplete) =>
          if rest = [] then .incomplete else scannerExit platform next rest
      | (_, .complete) => scannerExit platform {} rest
      | (_, .invalid) => .invalid

theorem scannerExit_not_aborts (platform : Platform) (reader : Reader)
    (pending : Text) : (scannerExit platform reader pending).aborts = false := by
  induction pending generalizing reader with
  | nil => rfl
  | cons input rest ih =>
      simp only [scannerExit]
      split
      · split
        · rfl
        · exact ih _
      · exact ih _
      · rfl

/-- The verdict that ends `Parse`, where the scanner stands then, and what the
driven scanner makes of the octets. -/
theorem scan_cases (platform : Platform) (reader : Reader) {pending : Text}
    (nonempty : pending ≠ []) :
    ∃ next, (lineScanner platform).scan reader pending =
        (next, .incomplete, []) ∧
        (lineScanner platform).deliver reader pending = (next, []) ∧
        scannerExit platform reader pending = .incomplete
    ∨ (∃ rest, (lineScanner platform).scan reader pending =
        (next, .complete, rest) ∧
        (lineScanner platform).deliver reader pending =
          (((lineScanner platform).deliver {} rest).1,
            next.message :: ((lineScanner platform).deliver {} rest).2) ∧
        scannerExit platform reader pending = scannerExit platform {} rest)
    ∨ (∃ rest, (lineScanner platform).scan reader pending =
        (next, .invalid, rest) ∧
        (lineScanner platform).deliver reader pending = (next, []) ∧
        scannerExit platform reader pending = .invalid) := by
  induction pending generalizing reader with
  | nil => exact absurd rfl nonempty
  | cons input rest ih =>
      simp only [Scanner.scan, Scanner.deliver, scannerExit]
      rcases stepEq : (lineScanner platform).step reader input
        with ⟨next, _ | _ | _⟩
      · by_cases last : rest = []
        · subst last
          exact ⟨next, Or.inl ⟨rfl, rfl, rfl⟩⟩
        · simpa only [if_neg last] using ih next last
      · exact ⟨next, Or.inr (Or.inl ⟨rest, rfl, rfl, rfl⟩)⟩
      · exact ⟨next, Or.inr (Or.inr ⟨rest, rfl, rfl, rfl⟩)⟩

/-- The inner loop notifies what the driven scanner emits, holds what it holds,
and never aborts. -/
theorem readBuffered_eq {World : Type*} (platform : Platform)
    (notify : World → Message → World) (world : World) (reader : Reader)
    (pending : Text) :
    readBuffered platform notify world reader pending =
      (((lineScanner platform).deliver reader pending).2.foldl notify world,
        ((lineScanner platform).deliver reader pending).1,
        scannerExit platform reader pending) := by
  induction length : pending.length using Nat.strong_induction_on
    generalizing world reader pending with
  | _ _ ih =>
      subst length
      unfold readBuffered
      by_cases empty : pending = []
      · subst empty
        rfl
      · have shorter := parse_rest_length platform reader empty
        have parsed := parse_eq_scan platform reader pending
        rw [dif_neg empty]
        obtain ⟨next, ⟨scanned, delivered, exited⟩ |
          ⟨rest, scanned, delivered, exited⟩ |
          ⟨rest, scanned, delivered, exited⟩⟩ := scan_cases platform reader empty
        · rw [scanned] at parsed
          simp [parsed, delivered, exited]
        · rw [scanned] at parsed
          rw [parsed] at shorter
          simp only [parsed, if_true, delivered, exited]
          exact ih rest.length shorter (notify world next.message) {} rest rfl
        · rw [scanned] at parsed
          simp [parsed, delivered, exited]

/-- The exits of successive reads. -/
def scannerExits (platform : Platform) : Reader → List Read → List LoopExit
  | _, [] => []
  | reader, read :: reads =>
      scannerExit platform reader read.octets ::
        scannerExits platform
          ((lineScanner platform).deliver reader read.octets).1 reads

theorem runReadLoop_eq (platform : Platform) (run : ReadRun)
    (reads : List Read) :
    runReadLoop platform run reads =
      { notified := run.notified ++ ((lineScanner platform).deliverAll
          run.reader (reads.map Read.octets)).2
        reader := ((lineScanner platform).deliverAll run.reader
          (reads.map Read.octets)).1
        exits := run.exits ++ scannerExits platform run.reader reads } := by
  induction reads generalizing run with
  | nil => simp [runReadLoop, Scanner.deliverAll, scannerExits]
  | cons read reads ih =>
      have appended : ∀ messages earlier : List Message,
          messages.foldl (fun sent message => sent ++ [message]) earlier =
            earlier ++ messages := by
        intro messages
        induction messages with
        | nil => simp
        | cons message messages ih => intro earlier; simp [ih]
      rw [runReadLoop, readBuffered_eq]
      simp only [scannerExit_not_aborts, Bool.false_eq_true, if_false]
      rw [ih]
      simp [Scanner.deliverAll, scannerExits, appended]

theorem runReadLoop_notified (platform : Platform) (reads : List Read) :
    (runReadLoop platform {} reads).notified =
      ((lineScanner platform).deliverAll {} (reads.map Read.octets)).2 := by
  rw [runReadLoop_eq]
  rfl

theorem exits_not_aborts (platform : Platform) (reader : Reader)
    (reads : List Read) :
    ∀ exit ∈ scannerExits platform reader reads, exit.aborts = false := by
  induction reads generalizing reader with
  | nil => simp [scannerExits]
  | cons read reads ih =>
      intro exit member
      rcases List.mem_cons.mp member with rfl | later
      · exact scannerExit_not_aborts platform reader read.octets
      · exact ih _ exit later

/-! ## Framing of well-formed streams -/

/-- The readers that fresh parses of the lines end in. -/
theorem exists_finals {platform : Platform} {lines : List Text}
    {messages : List Message}
    (wellFormed : List.Forall₂ (ParsesTo platform) lines messages) :
    ∃ finals, List.Forall₂ ((lineScanner platform).Accepts {}) lines finals ∧
      finals.map Reader.message = messages := by
  induction wellFormed with
  | nil => exact ⟨[], .nil, rfl⟩
  | cons head _ ih =>
      obtain ⟨parser, accepted⟩ := (parsesTo_iff_accepts _ _ _).mp head
      obtain ⟨finals, rest, messagesEq⟩ := ih
      exact ⟨_ :: finals, .cons accepted rest, by simp [messagesEq]⟩

/-- Well-formed lines are delivered line by line from between two lines, and
leave the connection there. -/
theorem deliverAll_lines {platform : Platform} {lines : List Text}
    {messages : List Message} {reads : List Read}
    (wellFormed : List.Forall₂ (ParsesTo platform) lines messages)
    (cut : IsCutting reads lines.flatten) :
    (lineScanner platform).deliverAll {} (reads.map Read.octets) =
      ({}, messages) := by
  obtain ⟨finals, accepted, messagesEq⟩ := exists_finals wellFormed
  have framed := Scanner.deliverAll_words accepted cut
  rw [← messagesEq]
  exact framed

/-- A stream of well-formed lines is framed correctly under every cutting: the
message of each line is notified once, in order, and nothing else is; and the
loop reaches neither its `DCHECK` nor its `LOG(FATAL)`. -/
theorem runReadLoop_framing (platform : Platform) (lines : List Text)
    (messages : List Message) (reads : List Read)
    (wellFormed : List.Forall₂ (ParsesTo platform) lines messages)
    (cut : IsCutting reads lines.flatten) :
    (runReadLoop platform {} reads).notified = messages ∧
      LoopExit.dcheckFailed ∉ (runReadLoop platform {} reads).exits ∧
      LoopExit.fatal ∉ (runReadLoop platform {} reads).exits := by
  have sound := exits_not_aborts platform {} reads
  rw [runReadLoop_eq, deliverAll_lines wellFormed cut]
  refine ⟨rfl, ?_, ?_⟩
  · intro member
    exact Bool.noConfusion (sound .dcheckFailed member)
  · intro member
    exact Bool.noConfusion (sound .fatal member)

/-- Two lines, cut inside the second one. -/
theorem runReadLoop_framing_twoLines :
    (runReadLoop plainPlatform {}
        [⟨ascii "LIST :a b\r\nPI", by decide, by decide⟩,
          ⟨ascii "NG\r\n", by decide, by decide⟩]).notified =
        [{ command := ascii "LIST", params := [ascii "a b"] },
          { command := ascii "PING" }] ∧
      LoopExit.dcheckFailed ∉ (runReadLoop plainPlatform {}
        [⟨ascii "LIST :a b\r\nPI", by decide, by decide⟩,
          ⟨ascii "NG\r\n", by decide, by decide⟩]).exits ∧
      LoopExit.fatal ∉ (runReadLoop plainPlatform {}
        [⟨ascii "LIST :a b\r\nPI", by decide, by decide⟩,
          ⟨ascii "NG\r\n", by decide, by decide⟩]).exits :=
  runReadLoop_framing plainPlatform
    [ascii "LIST :a b\r\n", ascii "PING\r\n"] _ _
    (.cons ⟨_, rfl⟩ (.cons ⟨_, rfl⟩ .nil)) rfl

end Birch
