import Birch.MessageParser

/-!
# What a message parser holds

Every state of the parser says something about the buffer and about the part
of the message that is filled already.  The invariant is kept by every octet,
also by one that is answered `Invalid`, since such an octet changes nothing.
-/

namespace Birch

open Octet IncrementalScanner

/-! ## Texts that the parser accepts as the parts of a message -/

def IsTagKey (text : Text) : Prop :=
  text ≠ [] ∧ ∀ c ∈ text, isTagKeyChar c = true

def IsTagValue (text : Text) : Prop :=
  ∀ c ∈ text, c ≠ nul ∧ c ≠ lf ∧ c ≠ cr ∧ c ≠ space ∧ c ≠ semicolon

/-- A command is a name of letters or a number of three digits. -/
def IsCommand (text : Text) : Prop :=
  (text ≠ [] ∧ ∀ c ∈ text, isLetter c = true) ∨
    (text.length = 3 ∧ ∀ c ∈ text, isDigit c = true)

/-- A parameter that is ended by a space or by the end of the line. -/
def IsMiddle : Text → Prop
  | [] => False
  | first :: rest => isParamStartChar first = true ∧
      ∀ c ∈ rest, isParamStartChar c = true ∨ c = colon

/-- A parameter that extends to the end of the line. -/
def IsTrailing (text : Text) : Prop :=
  ∀ c ∈ text, isParamStartChar c = true ∨ c = colon ∨ c = space

theorem IsMiddle.isTrailing {text : Text} (middle : IsMiddle text) :
    IsTrailing text := by
  cases text with
  | nil => exact middle.elim
  | cons first rest =>
      intro c member
      rcases List.mem_cons.mp member with rfl | later
      · exact Or.inl middle.1
      · rcases middle.2 c later with start | isColon
        · exact Or.inl start
        · exact Or.inr (Or.inl isColon)

theorem IsMiddle.concat {text : Text} (middle : IsMiddle text) {c : Octet}
    (kind : isParamStartChar c = true ∨ c = colon) :
    IsMiddle (text ++ [c]) := by
  cases text with
  | nil => exact middle.elim
  | cons first rest =>
      refine ⟨middle.1, ?_⟩
      intro d member
      rcases List.mem_append.mp member with old | new
      · exact middle.2 d old
      · rwa [List.mem_singleton.mp new]

theorem isParamStartChar_space : isParamStartChar space = false := by
  decide

theorem isParamStartChar_colon : isParamStartChar colon = false := by
  decide

theorem IsMiddle.no_space {text : Text} (middle : IsMiddle text) :
    space ∉ text := by
  cases text with
  | nil => exact middle.elim
  | cons first rest =>
      intro member
      rcases List.mem_cons.mp member with equal | later
      · have start := middle.1
        rw [← equal, isParamStartChar_space] at start
        exact Bool.false_ne_true start
      · rcases middle.2 space later with start | equal
        · rw [isParamStartChar_space] at start
          exact Bool.false_ne_true start
        · exact absurd equal (by decide)

theorem IsMiddle.ne_nil {text : Text} (middle : IsMiddle text) :
    text ≠ [] := by
  rintro rfl
  exact middle

theorem IsMiddle.head_ne_colon {text : Text} (middle : IsMiddle text) :
    text.head? ≠ some colon := by
  cases text with
  | nil => exact middle.elim
  | cons first rest =>
      intro equal
      have start := middle.1
      rw [List.head?_cons, Option.some.injEq] at equal
      rw [equal, isParamStartChar_colon] at start
      exact Bool.false_ne_true start

theorem forall_mem_concat {property : Octet → Prop} {text : Text}
    (old : ∀ c ∈ text, property c) {c : Octet} (new : property c) :
    ∀ d ∈ text ++ [c], property d := by
  intro d member
  rcases List.mem_append.mp member with inText | last
  · exact old d inText
  · rwa [List.mem_singleton.mp last]

/-! ## Splitting a buffered tag -/

theorem strSplit_of_mem {delimiter : Octet} {before : Text}
    (absent : delimiter ∉ before) (after : Text) (maxSplits : Nat) :
    strSplit delimiter (maxSplits + 1) (before ++ delimiter :: after) =
      before :: strSplit delimiter maxSplits after := by
  have stops : ∀ c ∈ before, (c != delimiter) = true := by
    intro c member
    simpa using fun equal : c = delimiter => absent (equal ▸ member)
  have dropped : (before ++ delimiter :: after).dropWhile (· != delimiter) =
      delimiter :: after := by
    rw [List.dropWhile_append_of_pos stops]
    simp
  have taken : (before ++ delimiter :: after).takeWhile (· != delimiter) =
      before := by
    rw [List.takeWhile_append_of_pos stops]
    simp
  simp only [strSplit, dropped, taken]

theorem head_strSplit (delimiter : Octet) (maxSplits : Nat) (text : Text) :
    (strSplit delimiter (maxSplits + 1) text).head? =
      some (text.takeWhile (· != delimiter)) := by
  simp only [strSplit]
  split
  · rename_i stopped
    have whole := List.takeWhile_append_dropWhile
      (p := fun c => c != delimiter) (l := text)
    rw [stopped, List.append_nil] at whole
    rw [List.head?_cons, whole]
  · rfl

/-- A buffered tag is split at its first `=`, and its value is cut off at the
next one. -/
theorem splitTag_eq {key : Text} (keyPlain : equals ∉ key) (value : Text) :
    splitTag (key ++ equals :: value) =
      (key, value.takeWhile (· != equals)) := by
  have split := strSplit_of_mem keyPlain value 1
  have headEq := head_strSplit equals 0 value
  rcases restEq : strSplit equals 1 value with _ | ⟨first, rest⟩
  · simp [restEq] at headEq
  · rw [restEq, List.head?_cons, Option.some.injEq] at headEq
    have enough : ¬ rest.length + 1 + 1 < 2 := by omega
    simp [splitTag, split, restEq, headEq, enough]

theorem IsTagKey.no_equals {key : Text} (isKey : IsTagKey key) :
    equals ∉ key := by
  intro member
  exact (isTagKeyChar_plain equals (isKey.2 equals member)).2.2.2.2.2 rfl

theorem IsTagValue.takeWhile {value : Text} (isValue : IsTagValue value)
    (keep : Octet → Bool) : IsTagValue (value.takeWhile keep) := by
  intro c member
  exact isValue c (List.takeWhile_subset _ member)

/-! ## The invariant -/

/-- The tags and the prefix of a message that is being read. -/
structure HeaderFine (platform : Platform) (message : Message) : Prop where
  tags : ∀ tag ∈ message.tags.entries, IsTagKey tag.1 ∧ IsTagValue tag.2
  prefixText : message.prefixText = [] ∨
    (isValidPrefix platform message.prefixText = true ∧
      ∀ c ∈ message.prefixText, isPrefixChar c = true)

/-- A message before its prefix is read. -/
structure Tagged (platform : Platform) (message : Message) : Prop extends
    HeaderFine platform message where
  noPrefix : message.prefixText = []
  noCommand : message.command = []
  noParams : message.params = []

/-- A message before its command is read. -/
structure Headed (platform : Platform) (message : Message) : Prop extends
    HeaderFine platform message where
  noCommand : message.command = []
  noParams : message.params = []

/-- A message whose parameters are being read. -/
structure Commanded (platform : Platform) (message : Message) : Prop extends
    HeaderFine platform message where
  command : IsCommand message.command
  params : ∀ param ∈ message.params, IsMiddle param

/-- A message that is read up to the end of its line. -/
structure Finished (platform : Platform) (message : Message) : Prop extends
    HeaderFine platform message where
  command : IsCommand message.command
  middles : ∀ param ∈ message.params.dropLast, IsMiddle param
  params : ∀ param ∈ message.params, IsTrailing param

theorem Tagged.headed {platform : Platform} {message : Message}
    (tagged : Tagged platform message) : Headed platform message :=
  ⟨tagged.toHeaderFine, tagged.noCommand, tagged.noParams⟩

theorem tagged_empty (platform : Platform) : Tagged platform {} :=
  ⟨⟨by simp, Or.inl rfl⟩, rfl, rfl, rfl⟩

/-- What the parser and the message hold in each state. -/
def ParserInvariant (platform : Platform) (parser : MessageParser)
    (message : Message) : Prop :=
  match parser.state with
  | .parseStateStart => parser.buffer = [] ∧ message = {}
  | .parseStateTagKey => Tagged platform message ∧
      ∀ c ∈ parser.buffer, isTagKeyChar c = true
  | .parseStateTagValue => Tagged platform message ∧
      ∃ key value, parser.buffer = key ++ equals :: value ∧
        IsTagKey key ∧ IsTagValue value
  | .parseStateAfterTags => Tagged platform message ∧ parser.buffer = []
  | .parseStatePrefix => Tagged platform message ∧
      ∀ c ∈ parser.buffer, isPrefixChar c = true
  | .parseStateCommandNameOrNumber =>
      Headed platform message ∧ parser.buffer = []
  | .parseStateCommandName => Headed platform message ∧
      parser.buffer ≠ [] ∧ ∀ c ∈ parser.buffer, isLetter c = true
  | .parseStateCommandNumber => Headed platform message ∧
      ∀ c ∈ parser.buffer, isDigit c = true
  | .parseStateParamStart => Commanded platform message ∧ parser.buffer = []
  | .parseStateParam => Commanded platform message ∧ IsMiddle parser.buffer
  | .parseStateTrailing =>
      Commanded platform message ∧ IsTrailing parser.buffer
  | .parseStateCr => Finished platform message
  | .parseStateComplete => Finished platform message

theorem parserInvariant_fresh (platform : Platform) :
    ParserInvariant platform {} {} :=
  ⟨rfl, rfl⟩

/-! ## The steps that fill the message -/

theorem Tagged.addTag {platform : Platform} {message : Message}
    (tagged : Tagged platform message) {key value : Text}
    (isKey : IsTagKey key) (isValue : IsTagValue value) :
    Tagged platform (message.addTag key value) := by
  refine ⟨⟨?_, tagged.toHeaderFine.prefixText⟩, tagged.noPrefix,
    tagged.noCommand, tagged.noParams⟩
  intro tag member
  rcases LinkedHashMap.mem_assign member with rfl | old
  · exact ⟨isKey, isValue⟩
  · exact tagged.tags tag old

theorem Tagged.addTagMoved {platform : Platform} {message : Message}
    (tagged : Tagged platform message) {key value : Text}
    (isKey : IsTagKey key) (isValue : IsTagValue value) :
    Tagged platform (message.addTagMoved key value) := by
  refine ⟨⟨?_, tagged.toHeaderFine.prefixText⟩, tagged.noPrefix,
    tagged.noCommand, tagged.noParams⟩
  intro tag member
  rcases LinkedHashMap.mem_emplace member with rfl | old
  · exact ⟨isKey, isValue⟩
  · exact tagged.tags tag old

theorem Tagged.setPrefix {platform : Platform} {message : Message}
    (tagged : Tagged platform message) {text : Text}
    (valid : isValidPrefix platform text = true)
    (plain : ∀ c ∈ text, isPrefixChar c = true) :
    Headed platform (message.setPrefix text) :=
  ⟨⟨tagged.tags, Or.inr ⟨valid, plain⟩⟩, tagged.noCommand, tagged.noParams⟩

theorem Headed.setCommand {platform : Platform} {message : Message}
    (headed : Headed platform message) {command : Text}
    (isCommand : IsCommand command) :
    Commanded platform (message.setCommand command) := by
  refine ⟨⟨headed.tags, headed.toHeaderFine.prefixText⟩, isCommand, ?_⟩
  intro param member
  have noParams := headed.noParams
  simp only [Message.setCommand] at member
  rw [noParams] at member
  cases member

theorem Commanded.addMiddle {platform : Platform} {message : Message}
    (commanded : Commanded platform message) {param : Text}
    (middle : IsMiddle param) :
    Commanded platform (message.addParam param) := by
  refine ⟨⟨commanded.tags, commanded.toHeaderFine.prefixText⟩,
    commanded.command, ?_⟩
  intro other member
  rcases List.mem_append.mp member with old | new
  · exact commanded.params other old
  · rwa [List.mem_singleton.mp new]

theorem Commanded.finished {platform : Platform} {message : Message}
    (commanded : Commanded platform message) : Finished platform message :=
  ⟨commanded.toHeaderFine, commanded.command,
    fun param member => commanded.params param (List.dropLast_subset _ member),
    fun param member => (commanded.params param member).isTrailing⟩

theorem Commanded.addTrailing {platform : Platform} {message : Message}
    (commanded : Commanded platform message) {param : Text}
    (trailing : IsTrailing param) :
    Finished platform (message.addParam param) := by
  refine ⟨⟨commanded.tags, commanded.toHeaderFine.prefixText⟩,
    commanded.command, ?_, ?_⟩
  · intro other member
    rw [Message.addParam, List.dropLast_concat] at member
    exact commanded.params other member
  · intro other member
    rcases List.mem_append.mp member with old | new
    · exact (commanded.params other old).isTrailing
    · rwa [List.mem_singleton.mp new]

/-! ## Preservation, state by state -/

namespace MessageParser

variable {platform : Platform} {parser : MessageParser} {message : Message}

/-- The invariant of the parser and the message that an octet leads to. -/
def Consumed.Fine (platform : Platform) (consumed : Consumed) : Prop :=
  ParserInvariant platform consumed.1 consumed.2.1

theorem consumeCommandStart_fine (headed : Headed platform message)
    (empty : parser.buffer = [])
    (same : ParserInvariant platform parser message) (input : Octet) :
    (consumeCommandStart parser message input).Fine platform := by
  unfold consumeCommandStart
  split
  · rename_i letter
    exact ⟨headed, by simp [push, empty, letter]⟩
  · split
    · rename_i digit
      exact ⟨headed, by simp [push, empty, digit]⟩
    · exact same

theorem consumeStart_fine (state : parser.state = .parseStateStart)
    (good : ParserInvariant platform parser message) (input : Octet) :
    (consumeStart parser message input).Fine platform := by
  have contents := good
  simp only [ParserInvariant, state] at contents
  obtain ⟨empty, rfl⟩ := contents
  have tagged := tagged_empty platform
  unfold consumeStart
  split
  · exact ⟨tagged, by simp [empty]⟩
  · split
    · exact ⟨tagged, by simp [empty]⟩
    · exact consumeCommandStart_fine tagged.headed empty good input

theorem consumeTagKey_fine (state : parser.state = .parseStateTagKey)
    (good : ParserInvariant platform parser message) (input : Octet) :
    (consumeTagKey parser message input).Fine platform := by
  have contents := good
  simp only [ParserInvariant, state] at contents
  obtain ⟨tagged, keyChars⟩ := contents
  unfold consumeTagKey
  split
  · rename_i keyChar
    simp only [Consumed.Fine, ParserInvariant, push, state]
    exact ⟨tagged, forall_mem_concat keyChars keyChar⟩
  · split
    · split
      · exact good
      · rename_i isEquals nonempty
        refine ⟨tagged, parser.buffer, [], ?_, ⟨?_, keyChars⟩, by simp [IsTagValue]⟩
        · simp [push, beq_iff_eq.mp isEquals]
        · simpa using nonempty
    · split
      · split
        · rename_i empty
          exact ⟨tagged, by simpa using empty⟩
        · rename_i nonempty
          exact ⟨tagged.addTagMoved ⟨by simpa using nonempty, keyChars⟩
            (by simp [IsTagValue]), rfl⟩
      · exact good

theorem consumeTagValue_fine (state : parser.state = .parseStateTagValue)
    (good : ParserInvariant platform parser message) {input : Octet}
    (notNul : input ≠ nul) :
    (consumeTagValue parser message input).Fine platform := by
  have contents := good
  simp only [ParserInvariant, state] at contents
  obtain ⟨tagged, key, value, bufferEq, isKey, isValue⟩ := contents
  have added := tagged.addTag isKey (isValue.takeWhile (· != equals))
  unfold consumeTagValue
  rw [bufferEq, splitTag_eq isKey.no_equals]
  simp only
  split
  · exact ⟨added, rfl⟩
  · split
    · exact ⟨added, by simp⟩
    · split
      · rename_i notSpace notSemicolon plain
        simp only [Consumed.Fine, ParserInvariant, push, state]
        refine ⟨tagged, key, value ++ [input], by simp [bufferEq], isKey, ?_⟩
        simp only [Bool.and_eq_true, bne_iff_ne] at plain
        exact forall_mem_concat isValue
          ⟨notNul, plain.2, plain.1.2, plain.1.1, by simpa using notSemicolon⟩
      · exact good

theorem consumeAfterTags_fine (state : parser.state = .parseStateAfterTags)
    (good : ParserInvariant platform parser message) (input : Octet) :
    (consumeAfterTags parser message input).Fine platform := by
  have contents := good
  simp only [ParserInvariant, state] at contents
  obtain ⟨tagged, empty⟩ := contents
  unfold consumeAfterTags
  split
  · exact good
  · split
    · exact ⟨tagged, by simp [empty]⟩
    · exact consumeCommandStart_fine tagged.headed empty good input

theorem consumePrefix_fine (state : parser.state = .parseStatePrefix)
    (good : ParserInvariant platform parser message) (input : Octet) :
    (consumePrefix platform parser message input).Fine platform := by
  have contents := good
  simp only [ParserInvariant, state] at contents
  obtain ⟨tagged, prefixChars⟩ := contents
  unfold consumePrefix
  split
  · rename_i prefixChar
    simp only [Consumed.Fine, ParserInvariant, push, state]
    exact ⟨tagged, forall_mem_concat prefixChars prefixChar⟩
  · split
    · split
      · exact good
      · rename_i valid
        exact ⟨tagged.setPrefix (by simpa using valid) prefixChars, rfl⟩
    · exact good

theorem consumeCommandName_fine (state : parser.state = .parseStateCommandName)
    (good : ParserInvariant platform parser message) (input : Octet) :
    (consumeCommandName parser message input).Fine platform := by
  have contents := good
  simp only [ParserInvariant, state] at contents
  obtain ⟨headed, nonempty, letters⟩ := contents
  have commanded := headed.setCommand (Or.inl ⟨nonempty, letters⟩)
  unfold consumeCommandName
  split
  · rename_i letter
    simp only [Consumed.Fine, ParserInvariant, push, state]
    exact ⟨headed, by simp, forall_mem_concat letters letter⟩
  · split
    · exact ⟨commanded, rfl⟩
    · split
      · exact commanded.finished
      · exact good

theorem consumeCommandNumber_fine
    (state : parser.state = .parseStateCommandNumber)
    (good : ParserInvariant platform parser message) (input : Octet) :
    (consumeCommandNumber parser message input).Fine platform := by
  have contents := good
  simp only [ParserInvariant, state] at contents
  obtain ⟨headed, digits⟩ := contents
  unfold consumeCommandNumber
  split
  · split
    · exact good
    · rename_i three
      have commanded := headed.setCommand
        (Or.inr ⟨by simpa using three, digits⟩)
      by_cases isSpace : (input == space) = true
      · simp only [Consumed.Fine, ParserInvariant, isSpace, if_true]
        exact ⟨commanded, trivial⟩
      · simp only [Consumed.Fine, ParserInvariant, isSpace]
        exact commanded.finished
  · split
    · rename_i digit
      simp only [Bool.and_eq_true] at digit
      simp only [Consumed.Fine, ParserInvariant, push, state]
      exact ⟨headed, forall_mem_concat digits digit.1⟩
    · exact good

theorem consumeParamStart_fine (state : parser.state = .parseStateParamStart)
    (good : ParserInvariant platform parser message) (input : Octet) :
    (consumeParamStart parser message input).Fine platform := by
  have contents := good
  simp only [ParserInvariant, state] at contents
  obtain ⟨commanded, empty⟩ := contents
  unfold consumeParamStart
  split
  · exact ⟨commanded, by simp [IsTrailing, empty]⟩
  · split
    · rename_i start
      exact ⟨commanded, by simp [push, empty, IsMiddle, start]⟩
    · split
      · exact commanded.finished
      · split
        · exact ⟨commanded, empty⟩
        · exact good

theorem consumeParam_fine (state : parser.state = .parseStateParam)
    (good : ParserInvariant platform parser message) (input : Octet) :
    (consumeParam parser message input).Fine platform := by
  have contents := good
  simp only [ParserInvariant, state] at contents
  obtain ⟨commanded, middle⟩ := contents
  have added := commanded.addMiddle middle
  unfold consumeParam
  split
  · by_cases isSpace : (input == space) = true
    · simp only [Consumed.Fine, ParserInvariant, isSpace, if_true]
      exact ⟨added, trivial⟩
    · simp only [Consumed.Fine, ParserInvariant, isSpace]
      exact added.finished
  · split
    · rename_i kind
      simp only [Bool.or_eq_true, beq_iff_eq] at kind
      simp only [Consumed.Fine, ParserInvariant, push, state]
      exact ⟨commanded, middle.concat kind⟩
    · exact good

theorem consumeTrailing_fine (state : parser.state = .parseStateTrailing)
    (good : ParserInvariant platform parser message) (input : Octet) :
    (consumeTrailing platform parser message input).Fine platform := by
  have contents := good
  simp only [ParserInvariant, state] at contents
  obtain ⟨commanded, trailing⟩ := contents
  unfold consumeTrailing
  split
  · exact commanded.addTrailing trailing
  · split
    · rename_i kind
      simp only [Bool.or_eq_true, beq_iff_eq, or_assoc] at kind
      simp only [Consumed.Fine, ParserInvariant, push, state]
      exact ⟨commanded, forall_mem_concat trailing kind⟩
    · exact good

theorem consumeCr_fine (state : parser.state = .parseStateCr)
    (good : ParserInvariant platform parser message) (input : Octet) :
    (consumeCr parser message input).Fine platform := by
  have contents := good
  simp only [ParserInvariant, state] at contents
  unfold consumeCr
  split
  · exact contents
  · exact good

/-- Every octet keeps the invariant, whatever the verdict on it. -/
theorem consume_fine (good : ParserInvariant platform parser message)
    (input : Octet) : (consume platform parser message input).Fine platform := by
  unfold consume
  split
  · exact good
  · rename_i notNul
    split <;> rename_i state
    · exact consumeStart_fine state good input
    · exact consumeTagKey_fine state good input
    · exact consumeTagValue_fine state good (by simpa using notNul)
    · exact consumeAfterTags_fine state good input
    · exact consumePrefix_fine state good input
    · have contents := good
      simp only [ParserInvariant, state] at contents
      exact consumeCommandStart_fine contents.1 contents.2 good input
    · exact consumeCommandName_fine state good input
    · exact consumeCommandNumber_fine state good input
    · exact consumeParamStart_fine state good input
    · exact consumeParam_fine state good input
    · exact consumeTrailing_fine state good input
    · exact consumeCr_fine state good input
    · exact good

/-! ## Verdicts -/

/-- A rejected octet leaves the parser and the message as they were. -/
theorem consume_invalid {next : MessageParser} {nextMessage : Message}
    {input : Octet}
    (rejected : consume platform parser message input =
      (next, nextMessage, .invalid)) :
    next = parser ∧ nextMessage = message := by
  revert rejected
  unfold consume consumeStart consumeTagKey consumeTagValue consumeAfterTags
    consumePrefix consumeCommandName consumeCommandNumber consumeParamStart
    consumeParam consumeTrailing consumeCr consumeCommandStart
  grind

/-- No octet leads back into the starting state. -/
theorem consume_incomplete_state {next : MessageParser}
    {nextMessage : Message} {input : Octet}
    (inside : consume platform parser message input =
      (next, nextMessage, .incomplete)) :
    next.state ≠ .parseStateStart ∧ next.state ≠ .parseStateComplete := by
  revert inside
  unfold consume consumeStart consumeTagKey consumeTagValue consumeAfterTags
    consumePrefix consumeCommandName consumeCommandNumber consumeParamStart
    consumeParam consumeTrailing consumeCr consumeCommandStart push
  grind

theorem consume_complete {next : MessageParser} {nextMessage : Message}
    {input : Octet}
    (completed : consume platform parser message input =
      (next, nextMessage, .complete)) :
    next.state = .parseStateComplete := by
  revert completed
  unfold consume consumeStart consumeTagKey consumeTagValue consumeAfterTags
    consumePrefix consumeCommandName consumeCommandNumber consumeParamStart
    consumeParam consumeTrailing consumeCr consumeCommandStart
  grind

end MessageParser

end Birch
