import Birch.IncrementalScanner
import Birch.Message
import Birch.MessagePrefix

/-!
# The message parser

`MessageParser` reads a line octet by octet.  `consume` is its transition
function, one definition for each state; `parse` is the loop that drives it up
to the first octet that is not answered `Incomplete`.
-/

namespace Birch

open Octet IncrementalScanner

/-- `ParseState`, the verdict on an octet. -/
abbrev ParseState := Verdict

/-- The values of `m_state`. -/
inductive ParserState
  | parseStateStart
  | parseStateTagKey
  | parseStateTagValue
  | parseStateAfterTags
  | parseStatePrefix
  | parseStateCommandNameOrNumber
  | parseStateCommandName
  | parseStateCommandNumber
  | parseStateParamStart
  | parseStateParam
  | parseStateTrailing
  | parseStateCr
  | parseStateComplete
  deriving DecidableEq, Repr

structure MessageParser where
  state : ParserState := .parseStateStart
  buffer : Text := []
  deriving DecidableEq

/-- `absl::StrSplit(text, absl::MaxSplits(delimiter, maxSplits))`. -/
def strSplit (delimiter : Octet) : Nat → Text → List Text
  | 0, text => [text]
  | maxSplits + 1, text =>
      match text.dropWhile (· != delimiter) with
      | [] => [text]
      | _ :: rest =>
          text.takeWhile (· != delimiter) :: strSplit delimiter maxSplits rest

/-- The key and the value that are read off a buffered tag. -/
def splitTag (buffer : Text) : Text × Text :=
  let tags := strSplit equals 2 buffer
  let tags := if tags.length < 2 then tags ++ [[]] else tags
  (tags.getD 0 [], tags.getD 1 [])

namespace MessageParser

def reset (parser : MessageParser) : MessageParser :=
  { parser with state := .parseStateStart, buffer := [] }

/-- The parser, the message it fills and its verdict after an octet. -/
abbrev Consumed := MessageParser × Message × ParseState

def push (parser : MessageParser) (input : Octet) : MessageParser :=
  { parser with buffer := parser.buffer ++ [input] }

/-- The branches that begin a command, which three states share. -/
def consumeCommandStart (parser : MessageParser) (message : Message)
    (input : Octet) : Consumed :=
  if isLetter input then
    ({ parser.push input with state := .parseStateCommandName }, message,
      .incomplete)
  else if isDigit input then
    ({ parser.push input with state := .parseStateCommandNumber }, message,
      .incomplete)
  else
    (parser, message, .invalid)

def consumeStart (parser : MessageParser) (message : Message)
    (input : Octet) : Consumed :=
  if input == at_ then
    ({ parser with state := .parseStateTagKey }, message, .incomplete)
  else if input == colon then
    ({ parser with state := .parseStatePrefix }, message, .incomplete)
  else
    consumeCommandStart parser message input

def consumeTagKey (parser : MessageParser) (message : Message)
    (input : Octet) : Consumed :=
  if isTagKeyChar input then
    (parser.push input, message, .incomplete)
  else if input == equals then
    if parser.buffer.isEmpty then
      (parser, message, .invalid)
    else
      ({ parser.push input with state := .parseStateTagValue }, message,
        .incomplete)
  else if input == space then
    if parser.buffer.isEmpty then
      ({ parser with state := .parseStateAfterTags }, message, .incomplete)
    else
      ({ state := .parseStateAfterTags, buffer := [] },
        message.addTagMoved parser.buffer [], .incomplete)
  else
    (parser, message, .invalid)

def consumeTagValue (parser : MessageParser) (message : Message)
    (input : Octet) : Consumed :=
  let (key, value) := splitTag parser.buffer
  if input == space then
    ({ state := .parseStateAfterTags, buffer := [] },
      message.addTag key value, .incomplete)
  else if input == semicolon then
    ({ state := .parseStateTagKey, buffer := [] },
      message.addTag key value, .incomplete)
  else if input != space && input != cr && input != lf then
    (parser.push input, message, .incomplete)
  else
    (parser, message, .invalid)

def consumeAfterTags (parser : MessageParser) (message : Message)
    (input : Octet) : Consumed :=
  if input == space then
    (parser, message, .incomplete)
  else if input == colon then
    ({ parser with state := .parseStatePrefix }, message, .incomplete)
  else
    consumeCommandStart parser message input

def consumePrefix (platform : Platform) (parser : MessageParser)
    (message : Message) (input : Octet) : Consumed :=
  if isPrefixChar input then
    (parser.push input, message, .incomplete)
  else if input == space then
    if !isValidPrefix platform parser.buffer then
      (parser, message, .invalid)
    else
      ({ state := .parseStateCommandNameOrNumber, buffer := [] },
        message.setPrefix parser.buffer, .incomplete)
  else
    (parser, message, .invalid)

def consumeCommandName (parser : MessageParser) (message : Message)
    (input : Octet) : Consumed :=
  if isLetter input then
    (parser.push input, message, .incomplete)
  else if input == space then
    ({ state := .parseStateParamStart, buffer := [] },
      message.setCommand parser.buffer, .incomplete)
  else if input == cr then
    ({ state := .parseStateCr, buffer := [] },
      message.setCommand parser.buffer, .incomplete)
  else
    (parser, message, .invalid)

def consumeCommandNumber (parser : MessageParser) (message : Message)
    (input : Octet) : Consumed :=
  if input == space || input == cr then
    if parser.buffer.length != 3 then
      (parser, message, .invalid)
    else
      ({ state := if input == space then .parseStateParamStart
            else .parseStateCr, buffer := [] },
        message.setCommand parser.buffer, .incomplete)
  else if isDigit input && decide (parser.buffer.length < 3) then
    (parser.push input, message, .incomplete)
  else
    (parser, message, .invalid)

def consumeParamStart (parser : MessageParser) (message : Message)
    (input : Octet) : Consumed :=
  if input == colon then
    ({ parser with state := .parseStateTrailing }, message, .incomplete)
  else if isParamStartChar input then
    ({ parser.push input with state := .parseStateParam }, message,
      .incomplete)
  else if input == cr then
    ({ parser with state := .parseStateCr }, message, .incomplete)
  else if input == space then
    ({ parser with state := .parseStateParamStart }, message, .incomplete)
  else
    -- Any other octet is answered like a space.
    (parser, message, .incomplete)

def consumeParam (parser : MessageParser) (message : Message)
    (input : Octet) : Consumed :=
  if input == space || input == cr then
    ({ state := if input == space then .parseStateParamStart
          else .parseStateCr, buffer := [] },
      message.addParam parser.buffer, .incomplete)
  else if isParamStartChar input || input == colon then
    (parser.push input, message, .incomplete)
  else
    (parser, message, .invalid)

def consumeTrailing (platform : Platform) (parser : MessageParser)
    (message : Message) (input : Octet) : Consumed :=
  if input == cr then
    -- The buffer is moved from and, in this state only, not cleared.
    ({ state := .parseStateCr, buffer := platform.movedFrom parser.buffer },
      message.addParam parser.buffer, .incomplete)
  else if isParamStartChar input || input == colon || input == space then
    (parser.push input, message, .incomplete)
  else
    (parser, message, .invalid)

def consumeCr (parser : MessageParser) (message : Message)
    (input : Octet) : Consumed :=
  if input == lf then
    ({ parser with state := .parseStateComplete }, message, .complete)
  else
    (parser, message, .invalid)

def consume (platform : Platform) (parser : MessageParser) (message : Message)
    (input : Octet) : Consumed :=
  if input == nul then
    (parser, message, .invalid)
  else
    match parser.state with
    | .parseStateStart => consumeStart parser message input
    | .parseStateTagKey => consumeTagKey parser message input
    | .parseStateTagValue => consumeTagValue parser message input
    | .parseStateAfterTags => consumeAfterTags parser message input
    | .parseStatePrefix => consumePrefix platform parser message input
    | .parseStateCommandNameOrNumber => consumeCommandStart parser message input
    | .parseStateCommandName => consumeCommandName parser message input
    | .parseStateCommandNumber => consumeCommandNumber parser message input
    | .parseStateParamStart => consumeParamStart parser message input
    | .parseStateParam => consumeParam parser message input
    | .parseStateTrailing => consumeTrailing platform parser message input
    | .parseStateCr => consumeCr parser message input
    | .parseStateComplete => (parser, message, .complete)

/-- The loop of `Parse`, with the verdict on the octet before: what it returns,
and the octets from `iter` on. -/
def parseLoop (platform : Platform) :
    MessageParser → Message → ParseState → Text → Consumed × Text
  | parser, message, state, [] => ((parser, message, state), [])
  | parser, message, state, input :: rest =>
      if state == .incomplete then
        match consume platform parser message input with
        | (nextParser, nextMessage, nextState) =>
            parseLoop platform nextParser nextMessage nextState rest
      else
        ((parser, message, state), input :: rest)

def parse (platform : Platform) (parser : MessageParser) (message : Message)
    (pending : Text) : Consumed × Text :=
  parseLoop platform parser message .incomplete pending

end MessageParser

/-- A fresh parser with an empty message returns `Complete` exactly on the last
octet of the line, with this message. -/
def ParsesTo (platform : Platform) (line : Text) (message : Message) : Prop :=
  ∃ parser, MessageParser.parse platform {} {} line =
    ((parser, message, .complete), [])

/-! ## The parser as a scanner -/

/-- A parser together with the message that it fills. -/
structure Reader where
  parser : MessageParser := {}
  message : Message := {}
  deriving DecidableEq

/-- The scanner whose words are lines.  It starts a line with a reset parser
and an empty message. -/
def lineScanner (platform : Platform) : Scanner Reader Octet Message where
  start := {}
  step reader input :=
    match reader.parser.consume platform reader.message input with
    | (parser, message, state) => (⟨parser, message⟩, state)
  result := Reader.message

@[simp]
theorem lineScanner_start (platform : Platform) :
    (lineScanner platform).start = {} :=
  rfl

@[simp]
theorem lineScanner_result (platform : Platform) (reader : Reader) :
    (lineScanner platform).result reader = reader.message :=
  rfl

theorem lineScanner_step (platform : Platform) (reader : Reader)
    (input : Octet) :
    (lineScanner platform).step reader input =
      (⟨(reader.parser.consume platform reader.message input).1,
        (reader.parser.consume platform reader.message input).2.1⟩,
        (reader.parser.consume platform reader.message input).2.2) :=
  rfl

/-- A step of the scanner is a call of `Consume`. -/
theorem consume_of_step {platform : Platform} {reader next : Reader}
    {input : Octet} {verdict : ParseState}
    (stepped : (lineScanner platform).step reader input = (next, verdict)) :
    reader.parser.consume platform reader.message input =
      (next.parser, next.message, verdict) := by
  rw [lineScanner_step, Prod.mk.injEq] at stepped
  obtain ⟨rfl, rfl⟩ := stepped
  rfl

theorem parseLoop_eq_scan (platform : Platform) (reader : Reader)
    (pending : Text) :
    MessageParser.parseLoop platform reader.parser reader.message .incomplete
        pending =
      match (lineScanner platform).scan reader pending with
      | (next, state, rest) => ((next.parser, next.message, state), rest) := by
  induction pending generalizing reader with
  | nil => rfl
  | cons input rest ih =>
      simp only [MessageParser.parseLoop, beq_self_eq_true, if_true,
        Scanner.scan, lineScanner]
      rcases consumed : reader.parser.consume platform reader.message input
        with ⟨parser, message, state⟩
      cases state with
      | incomplete => exact ih ⟨parser, message⟩
      | complete => cases rest <;> rfl
      | invalid => cases rest <;> rfl

theorem parse_eq_scan (platform : Platform) (reader : Reader)
    (pending : Text) :
    reader.parser.parse platform reader.message pending =
      match (lineScanner platform).scan reader pending with
      | (next, state, rest) => ((next.parser, next.message, state), rest) :=
  parseLoop_eq_scan platform reader pending

theorem parsesTo_iff_accepts (platform : Platform) (line : Text)
    (message : Message) :
    ParsesTo platform line message ↔
      ∃ parser, (lineScanner platform).Accepts {} line ⟨parser, message⟩ := by
  have scanned := parse_eq_scan platform {} line
  simp only [ParsesTo, Scanner.Accepts]
  constructor
  · rintro ⟨parser, parsed⟩
    refine ⟨parser, ?_⟩
    rw [parsed] at scanned
    simp only [Prod.mk.injEq] at scanned
    obtain ⟨⟨rfl, rfl, stateEq⟩, restEq⟩ := scanned
    exact Prod.ext rfl (Prod.ext stateEq.symm restEq.symm)
  · rintro ⟨parser, accepted⟩
    rw [accepted] at scanned
    exact ⟨parser, scanned⟩

end Birch
