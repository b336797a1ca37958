import Birch.MessageParserInvariant

/-!
# Runs of the message parser over the parts of a line

Each part of a line leads the parser from the state that begins the part to the
state that follows it.  The lemmas are stated for `Scanner.advance`, so that
the run over a line is put together by `Scanner.advance_trans`.
-/

namespace Birch

open Octet IncrementalScanner

variable (platform : Platform)

/-- The reader in this state, with this buffer and this message. -/
abbrev reading (state : ParserState) (buffer : Text)
    (message : Message) : Reader :=
  ⟨⟨state, buffer⟩, message⟩

theorem step_of_consume {state next : ParserState} {buffer rest : Text}
    {message filled : Message} {input : Octet} {verdict : ParseState}
    (consumed : MessageParser.consume platform ⟨state, buffer⟩ message input =
      (⟨next, rest⟩, filled, verdict)) :
    (lineScanner platform).step (reading state buffer message) input =
      (reading next rest filled, verdict) := by
  simp only [lineScanner, consumed]

theorem advance_single {reader next : Reader} {input : Octet}
    (step : (lineScanner platform).step reader input = (next, .incomplete)) :
    (lineScanner platform).advance reader [input] = some next :=
  Scanner.advance_cons step rfl

/-- A state that buffers the octets of a kind buffers a text of that kind. -/
theorem advance_push {state : ParserState} {kind : Octet → Prop}
    (pushes : ∀ buffer message c, kind c →
      (lineScanner platform).step (reading state buffer message) c =
        (reading state (buffer ++ [c]) message, .incomplete))
    {text : Text} (allKind : ∀ c ∈ text, kind c) (buffer : Text)
    (message : Message) :
    (lineScanner platform).advance (reading state buffer message) text =
      some (reading state (buffer ++ text) message) := by
  induction text generalizing buffer with
  | nil => simp [Scanner.advance]
  | cons c text ih =>
      obtain ⟨here, later⟩ := List.forall_mem_cons.mp allKind
      have head := pushes buffer message c here
      have tail := ih later (buffer ++ [c])
      simpa using Scanner.advance_cons head tail

/-! ## Tags -/

theorem step_tagKey_push (buffer : Text) (message : Message) (c : Octet)
    (keyChar : isTagKeyChar c = true) :
    (lineScanner platform).step
        (reading .parseStateTagKey buffer message) c =
      (reading .parseStateTagKey (buffer ++ [c]) message, .incomplete) := by
  have plain := isTagKeyChar_plain c keyChar
  simp [lineScanner, MessageParser.consume, MessageParser.consumeTagKey,
    MessageParser.push, keyChar, plain.1]

theorem step_tagValue_push (buffer : Text) (message : Message) (c : Octet)
    (valueChar : c ≠ nul ∧ c ≠ lf ∧ c ≠ cr ∧ c ≠ space ∧ c ≠ semicolon) :
    (lineScanner platform).step
        (reading .parseStateTagValue buffer message) c =
      (reading .parseStateTagValue (buffer ++ [c]) message, .incomplete) := by
  obtain ⟨notNul, notLf, notCr, notSpace, notSemicolon⟩ := valueChar
  simp [lineScanner, MessageParser.consume, MessageParser.consumeTagValue,
    MessageParser.push, notNul, notLf, notCr, notSpace, notSemicolon]

theorem step_tagKey_equals {buffer : Text} (nonempty : buffer ≠ [])
    (message : Message) :
    (lineScanner platform).step
        (reading .parseStateTagKey buffer message) equals =
      (reading .parseStateTagValue (buffer ++ [equals]) message,
        .incomplete) := by
  cases buffer with
  | nil => exact absurd rfl nonempty
  | cons first rest => rfl

/-- A tag with a `=`, up to the end of its value. -/
theorem advance_tag {key value : Text} (isKey : IsTagKey key)
    (isValue : IsTagValue value) (message : Message) :
    (lineScanner platform).advance (reading .parseStateTagKey [] message)
        (key ++ equals :: value) =
      some (reading .parseStateTagValue (key ++ equals :: value) message) := by
  have keyRun := advance_push platform
    (step_tagKey_push platform) isKey.2 [] message
  have valueRun := advance_push platform
    (step_tagValue_push platform) isValue (key ++ [equals]) message
  have equalsStep := step_tagKey_equals platform isKey.1 message
  simpa using Scanner.advance_trans keyRun
    (Scanner.advance_cons equalsStep valueRun)

/-- What the parser keeps of a value: the text before its first `=`. -/
def keptValue (value : Text) : Text :=
  value.takeWhile (· != equals)

theorem step_tagValue_semicolon {key value : Text} (isKey : IsTagKey key)
    (message : Message) :
    (lineScanner platform).step
        (reading .parseStateTagValue (key ++ equals :: value) message)
        semicolon =
      (reading .parseStateTagKey [] (message.addTag key (keptValue value)),
        .incomplete) := by
  have split := splitTag_eq isKey.no_equals value
  have consumed : MessageParser.consume platform
      ⟨.parseStateTagValue, key ++ equals :: value⟩ message semicolon =
        (⟨.parseStateTagKey, []⟩, message.addTag (splitTag
          (key ++ equals :: value)).1 (splitTag (key ++ equals :: value)).2,
          .incomplete) := rfl
  rw [split] at consumed
  exact step_of_consume platform consumed

theorem step_tagValue_space {key value : Text} (isKey : IsTagKey key)
    (message : Message) :
    (lineScanner platform).step
        (reading .parseStateTagValue (key ++ equals :: value) message)
        space =
      (reading .parseStateAfterTags [] (message.addTag key (keptValue value)),
        .incomplete) := by
  have split := splitTag_eq isKey.no_equals value
  have consumed : MessageParser.consume platform
      ⟨.parseStateTagValue, key ++ equals :: value⟩ message space =
        (⟨.parseStateAfterTags, []⟩, message.addTag (splitTag
          (key ++ equals :: value)).1 (splitTag (key ++ equals :: value)).2,
          .incomplete) := rfl
  rw [split] at consumed
  exact step_of_consume platform consumed

/-- A tag without a value ends the tags at a space. -/
theorem advance_bareTag_space {key : Text} (isKey : IsTagKey key)
    (message : Message) :
    (lineScanner platform).advance (reading .parseStateTagKey [] message)
        (key ++ [space]) =
      some (reading .parseStateAfterTags [] (message.addTagMoved key [])) := by
  have keyRun := advance_push platform
    (step_tagKey_push platform) isKey.2 [] message
  refine Scanner.advance_trans keyRun (advance_single platform ?_)
  rcases key with _ | ⟨first, rest⟩
  · exact absurd rfl isKey.1
  · rfl

/-- A tag without a value is rejected at a semicolon. -/
theorem advance_bareTag_semicolon {key : Text} (isKey : IsTagKey key)
    (message : Message) (rest : Text) :
    (lineScanner platform).advance (reading .parseStateTagKey [] message)
        (key ++ semicolon :: rest) = none := by
  have keyRun := advance_push platform
    (step_tagKey_push platform) isKey.2 [] message
  rw [Scanner.advance_append, keyRun]
  rfl

/-! ## The prefix -/

theorem step_prefix_push (buffer : Text) (message : Message) (c : Octet)
    (prefixChar : isPrefixChar c = true) :
    (lineScanner platform).step
        (reading .parseStatePrefix buffer message) c =
      (reading .parseStatePrefix (buffer ++ [c]) message, .incomplete) := by
  have plain := isPrefixChar_plain c prefixChar
  simp [lineScanner, MessageParser.consume, MessageParser.consumePrefix,
    MessageParser.push, prefixChar, plain.1]

theorem step_prefix_space {buffer : Text}
    (valid : isValidPrefix platform buffer = true) (message : Message) :
    (lineScanner platform).step
        (reading .parseStatePrefix buffer message) space =
      (reading .parseStateCommandNameOrNumber [] (message.setPrefix buffer),
        .incomplete) := by
  have notChar : isPrefixChar space = false := by decide
  have notNul : space ≠ nul := by decide
  simp [lineScanner, MessageParser.consume, MessageParser.consumePrefix,
    notChar, notNul, valid]

/-- A prefix and the space behind it, from behind the colon. -/
theorem advance_prefixText {text : Text}
    (chars : ∀ c ∈ text, isPrefixChar c = true)
    (valid : isValidPrefix platform text = true) (message : Message) :
    (lineScanner platform).advance (reading .parseStatePrefix [] message)
        (text ++ [space]) =
      some (reading .parseStateCommandNameOrNumber []
        (message.setPrefix text)) := by
  have run := advance_push platform
    (step_prefix_push platform) chars [] message
  exact Scanner.advance_trans run
    (advance_single platform (step_prefix_space platform valid message))

/-! ## The command -/

/-- The states in which a command may begin. -/
def BeginsCommand (state : ParserState) : Prop :=
  state = .parseStateStart ∨ state = .parseStateAfterTags ∨
    state = .parseStateCommandNameOrNumber

theorem step_begin_letter {state : ParserState} (begins : BeginsCommand state)
    (message : Message) (c : Octet) (letter : isLetter c = true) :
    (lineScanner platform).step (reading state [] message) c =
      (reading .parseStateCommandName [c] message, .incomplete) := by
  obtain ⟨notNul, _, _, notSpace, notColon, notAt⟩ :=
    alphanumeric_plain c (Or.inl letter)
  rcases begins with rfl | rfl | rfl <;>
    simp [lineScanner, MessageParser.consume, MessageParser.consumeStart,
      MessageParser.consumeAfterTags, MessageParser.consumeCommandStart,
      MessageParser.push, letter, notNul, notSpace, notColon, notAt]

theorem step_begin_digit {state : ParserState} (begins : BeginsCommand state)
    (message : Message) (c : Octet) (digit : isDigit c = true) :
    (lineScanner platform).step (reading state [] message) c =
      (reading .parseStateCommandNumber [c] message, .incomplete) := by
  obtain ⟨notNul, _, _, notSpace, notColon, notAt⟩ :=
    alphanumeric_plain c (Or.inr digit)
  have notLetter : isLetter c = false := by
    by_contra letter
    have noDigit := isLetter_not_isDigit c (by simpa using letter)
    rw [digit] at noDigit
    exact Bool.false_ne_true noDigit.symm
  rcases begins with rfl | rfl | rfl <;>
    simp [lineScanner, MessageParser.consume, MessageParser.consumeStart,
      MessageParser.consumeAfterTags, MessageParser.consumeCommandStart,
      MessageParser.push, digit, notLetter, notNul, notSpace, notColon, notAt]

theorem step_commandName_push (buffer : Text) (message : Message) (c : Octet)
    (letter : isLetter c = true) :
    (lineScanner platform).step
        (reading .parseStateCommandName buffer message) c =
      (reading .parseStateCommandName (buffer ++ [c]) message,
        .incomplete) := by
  have plain := alphanumeric_plain c (Or.inl letter)
  simp [lineScanner, MessageParser.consume, MessageParser.consumeCommandName,
    MessageParser.push, letter, plain.1]

theorem step_commandNumber_push {buffer : Text} (room : buffer.length < 3)
    (message : Message) (c : Octet) (digit : isDigit c = true) :
    (lineScanner platform).step
        (reading .parseStateCommandNumber buffer message) c =
      (reading .parseStateCommandNumber (buffer ++ [c]) message,
        .incomplete) := by
  have plain := alphanumeric_plain c (Or.inr digit)
  simp [lineScanner, MessageParser.consume,
    MessageParser.consumeCommandNumber, MessageParser.push, digit, room,
    plain.1, plain.2.2.1, plain.2.2.2.1]

/-- The octets that end a command or a middle parameter, and the states that
they lead to. -/
def endState (terminator : Octet) : ParserState :=
  if terminator == space then .parseStateParamStart else .parseStateCr

theorem step_commandName_end {buffer : Text} (message : Message)
    {terminator : Octet} (ends : terminator = space ∨ terminator = cr) :
    (lineScanner platform).step
        (reading .parseStateCommandName buffer message) terminator =
      (reading (endState terminator) [] (message.setCommand buffer),
        .incomplete) := by
  rcases ends with rfl | rfl <;> rfl

theorem step_commandNumber_end {buffer : Text} (three : buffer.length = 3)
    (message : Message) {terminator : Octet}
    (ends : terminator = space ∨ terminator = cr) :
    (lineScanner platform).step
        (reading .parseStateCommandNumber buffer message) terminator =
      (reading (endState terminator) [] (message.setCommand buffer),
        .incomplete) := by
  rcases ends with rfl | rfl <;>
    simp +decide [lineScanner, MessageParser.consume,
      MessageParser.consumeCommandNumber, endState, three]

/-- A command and the octet that ends it. -/
theorem advance_command {state : ParserState} (begins : BeginsCommand state)
    {command : Text} (isCommand : IsCommand command) (message : Message)
    {terminator : Octet} (ends : terminator = space ∨ terminator = cr) :
    (lineScanner platform).advance (reading state [] message)
        (command ++ [terminator]) =
      some (reading (endState terminator) [] (message.setCommand command)) := by
  rcases isCommand with ⟨nonempty, letters⟩ | ⟨three, digits⟩
  · rcases command with _ | ⟨first, rest⟩
    · exact absurd rfl nonempty
    · obtain ⟨firstLetter, later⟩ := List.forall_mem_cons.mp letters
      have head := step_begin_letter platform begins message first firstLetter
      have run := advance_push platform (step_commandName_push platform) later
        [first] message
      exact Scanner.advance_cons head (Scanner.advance_trans run
        (advance_single platform (step_commandName_end platform message ends)))
  · obtain ⟨a, b, c, rfl⟩ := List.length_eq_three.mp three
    have first := step_begin_digit platform begins message a
      (digits a (by simp))
    have second := step_commandNumber_push platform
      (show [a].length < 3 by simp) message b (digits b (by simp))
    have third := step_commandNumber_push platform
      (show [a, b].length < 3 by simp) message c (digits c (by simp))
    have last := step_commandNumber_end platform three message ends
    exact Scanner.advance_cons first (Scanner.advance_cons second
      (Scanner.advance_cons third (advance_single platform last)))

/-! ## Parameters -/

theorem step_paramStart_push (message : Message) (c : Octet)
    (start : isParamStartChar c = true) :
    (lineScanner platform).step
        (reading .parseStateParamStart [] message) c =
      (reading .parseStateParam [c] message, .incomplete) := by
  have plain := (isParamStartChar_iff c).mp start
  simp [lineScanner, MessageParser.consume, MessageParser.consumeParamStart,
    MessageParser.push, start, plain.2.1, plain.2.2.2.2.2]

theorem step_param_push (buffer : Text) (message : Message) (c : Octet)
    (kind : isParamStartChar c = true ∨ c = colon) :
    (lineScanner platform).step
        (reading .parseStateParam buffer message) c =
      (reading .parseStateParam (buffer ++ [c]) message, .incomplete) := by
  rcases kind with start | rfl
  · have plain := (isParamStartChar_iff c).mp start
    simp [lineScanner, MessageParser.consume, MessageParser.consumeParam,
      MessageParser.push, start, plain.2.1, plain.2.2.2.1, plain.2.2.2.2.1]
  · rfl

theorem step_trailing_push (buffer : Text) (message : Message) (c : Octet)
    (kind : isParamStartChar c = true ∨ c = colon ∨ c = space) :
    (lineScanner platform).step
        (reading .parseStateTrailing buffer message) c =
      (reading .parseStateTrailing (buffer ++ [c]) message, .incomplete) := by
  rcases kind with start | rfl | rfl
  · have plain := (isParamStartChar_iff c).mp start
    simp [lineScanner, MessageParser.consume, MessageParser.consumeTrailing,
      MessageParser.push, start, plain.2.1, plain.2.2.2.1]
  · rfl
  · rfl

/-- A middle parameter and the octet that ends it. -/
theorem advance_middle {param : Text} (middle : IsMiddle param)
    (message : Message) {terminator : Octet}
    (ends : terminator = space ∨ terminator = cr) :
    (lineScanner platform).advance (reading .parseStateParamStart [] message)
        (param ++ [terminator]) =
      some (reading (endState terminator) [] (message.addParam param)) := by
  cases param with
  | nil => exact middle.elim
  | cons first rest =>
      have head := step_paramStart_push platform message first
        middle.1
      have run := advance_push platform (step_param_push platform) middle.2
        [first] message
      refine Scanner.advance_cons head
        (Scanner.advance_trans run (advance_single platform ?_))
      rcases ends with rfl | rfl <;> rfl

def Message.addParams (message : Message) (params : List Text) : Message :=
  { message with params := message.params ++ params }

theorem Message.addParams_nil (message : Message) :
    message.addParams [] = message := by
  cases message
  simp [Message.addParams]

/-- Middle parameters, by induction on their list: each one leads back to the
state that begins a parameter. -/
theorem advance_middles {params : List Text}
    (middles : ∀ param ∈ params, IsMiddle param) (message : Message) :
    (lineScanner platform).advance (reading .parseStateParamStart [] message)
        (params.flatMap fun param => param ++ [space]) =
      some (reading .parseStateParamStart [] (message.addParams params)) := by
  induction params generalizing message with
  | nil =>
      rw [Message.addParams_nil]
      rfl
  | cons param params ih =>
      obtain ⟨isMiddle, later⟩ := List.forall_mem_cons.mp middles
      have head := advance_middle platform isMiddle message (Or.inl rfl)
      have tail := ih later (message.addParam param)
      rw [List.flatMap_cons, Scanner.advance_trans head tail]
      simp [Message.addParam, Message.addParams]

/-- A trailing parameter, from its colon to the carriage return. -/
theorem advance_trailing {param : Text} (trailing : IsTrailing param)
    (message : Message) :
    (lineScanner platform).advance (reading .parseStateParamStart [] message)
        (colon :: param ++ [cr]) =
      some (reading .parseStateCr (platform.movedFrom param)
        (message.addParam param)) := by
  have run := advance_push platform (step_trailing_push platform) trailing
    [] message
  exact Scanner.advance_cons rfl
    (Scanner.advance_trans run (advance_single platform rfl))

/-- The end of the line. -/
theorem accepts_lf (buffer : Text) (message : Message) :
    (lineScanner platform).Accepts (reading .parseStateCr buffer message) [lf]
      (reading .parseStateComplete buffer message) :=
  Scanner.accepts_singleton rfl

/-- A run from a fresh parser up to the carriage return makes a line. -/
theorem parsesTo_of_advance {text buffer : Text} {message : Message}
    (run : (lineScanner platform).advance {} text =
      some (reading .parseStateCr buffer message)) :
    ParsesTo platform (text ++ [lf]) message :=
  (parsesTo_iff_accepts _ _ _).mpr
    ⟨_, Scanner.accepts_of_advance run (accepts_lf platform buffer message)⟩

end Birch
