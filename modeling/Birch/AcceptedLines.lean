import Birch.DeliveredMessages
import Birch.MessageParserRuns

/-!
# What an accepted line consists of

An accepted line is a body and an end of line.  The octets of the body behind
the command are divided into the parameters, except for those that the parser
drops where it waits for a parameter to begin.
-/

namespace Birch

open Octet IncrementalScanner

/-! ## The part behind the command -/

def skipTags (text : Text) : Text :=
  if text.head? = some at_ then
    (text.dropWhile (· != space)).dropWhile (· == space)
  else
    text

def skipPrefix (text : Text) : Text :=
  if text.head? = some colon then
    (text.dropWhile (· != space)).drop 1
  else
    text

def skipName (text : Text) : Text :=
  text.dropWhile fun c => isLetter c || isDigit c

/-- The part of a line behind its tags, its prefix and its command. -/
def afterCommand (line : Text) : Text :=
  skipName (skipPrefix (skipTags line))

/-- The text consists of separating spaces and of the parameters, in order:
middle ones up to a space or the end, and one behind an introducing colon. -/
inductive DividesInto : Text → List Text → Prop
  | nil : DividesInto [] []
  | separator {text : Text} {params : List Text} :
      DividesInto text params → DividesInto (space :: text) params
  | middle {param rest : Text} {params : List Text} :
      param ≠ [] → space ∉ param → param.head? ≠ some colon →
        rest = [] ∨ rest.head? = some space → DividesInto rest params →
          DividesInto (param ++ rest) (param :: params)
  | trailing (text : Text) : DividesInto (colon :: text) [text]

/-- Nothing of the line is smuggled in or dropped. -/
def AccountsFor (line : Text) (message : Message) : Prop :=
  ∃ body, line = body ++ [cr, lf] ∧ IsPlain body ∧
    DividesInto (afterCommand body) message.params

/-- The octets that the parser drops where it waits for a parameter to begin,
besides the separating spaces. -/
def NoneDropped (text : Text) : Prop :=
  ∀ c ∈ text, c ≠ lf ∧ c.toNat < 128

theorem noneDropped_cons {c : Octet} {text : Text} :
    NoneDropped (c :: text) ↔ (c ≠ lf ∧ c.toNat < 128) ∧ NoneDropped text :=
  List.forall_mem_cons

/-- Every octet of a divided text is punctuation or in a parameter. -/
theorem DividesInto.octet {text : Text} {params : List Text}
    (divides : DividesInto text params) {c : Octet} (member : c ∈ text) :
    c = space ∨ c = colon ∨ ∃ param ∈ params, c ∈ param := by
  induction divides with
  | nil => cases member
  | separator _ ih =>
      rcases List.mem_cons.mp member with isSpace | later
      · exact Or.inl isSpace
      · exact ih later
  | @middle param rest params _ _ _ _ _ ih =>
      rcases List.mem_append.mp member with inParam | later
      · exact Or.inr (Or.inr ⟨param, List.mem_cons_self, inParam⟩)
      · rcases ih later with isSpace | isColon | ⟨other, otherMem, isIn⟩
        · exact Or.inl isSpace
        · exact Or.inr (Or.inl isColon)
        · exact Or.inr (Or.inr ⟨other, List.mem_cons_of_mem _ otherMem, isIn⟩)
  | trailing text =>
      rcases List.mem_cons.mp member with isColon | inText
      · exact Or.inr (Or.inl isColon)
      · exact Or.inr (Or.inr ⟨text, List.mem_singleton_self _, inText⟩)

/-! ## The part behind the command, from inside a line -/

/-- The part behind the command of a line whose rest, from this state on, is
the text. -/
def sectionFrom : ParserState → Text → Text
  | .parseStateStart, text => afterCommand text
  | .parseStateTagKey, text
  | .parseStateTagValue, text =>
      skipName (skipPrefix
        ((text.dropWhile (· != space)).dropWhile (· == space)))
  | .parseStateAfterTags, text =>
      skipName (skipPrefix (text.dropWhile (· == space)))
  | .parseStatePrefix, text => skipName ((text.dropWhile (· != space)).drop 1)
  | .parseStateCommandNameOrNumber, text
  | .parseStateCommandName, text
  | .parseStateCommandNumber, text => skipName text
  | _, text => text

/-- What the rest of a line is divided into, together with the buffer. -/
def PendingParams : ParserState → Text → Text → List Text → Prop
  | .parseStateParam, buffer, text, params => DividesInto (buffer ++ text) params
  | .parseStateTrailing, buffer, text, params => params = [buffer ++ text]
  | state, _, text, params => DividesInto (sectionFrom state text) params

/-- The states up to the command. -/
def ParserState.isHeader : ParserState → Bool
  | .parseStateParamStart => false
  | .parseStateParam => false
  | .parseStateTrailing => false
  | .parseStateCr => false
  | .parseStateComplete => false
  | _ => true

theorem skipName_cons {c : Octet} (text : Text)
    (kind : isLetter c = true ∨ isDigit c = true) :
    skipName (c :: text) = skipName text := by
  simp [skipName, kind]

theorem skipPrefix_cons {c : Octet} (text : Text) (other : c ≠ colon) :
    skipPrefix (c :: text) = c :: text := by
  simp [skipPrefix, other]

theorem skipTags_cons {c : Octet} (text : Text) (other : c ≠ at_) :
    skipTags (c :: text) = c :: text := by
  simp [skipTags, other]

/-! ## One octet of the part up to the command -/

/-- What an octet before the parameters does: it leaves the parameters alone,
and either ends the line or moves on in the part that is left. -/
structure HeaderStep (state next : ParserState) (message filled : Message)
    (c : Octet) : Prop where
  params : filled.params = message.params
  notNul : c ≠ nul
  notLf : c ≠ lf
  moves : (c = cr ∧ next = .parseStateCr ∧ sectionFrom state [] = []) ∨
    (c ≠ cr ∧ (next.isHeader = true ∨ next = .parseStateParamStart) ∧
      ∀ text, sectionFrom state (c :: text) = sectionFrom next text ∨
        sectionFrom state (c :: text) = space :: sectionFrom next text)

/-- The same, with the two ways in which it moves on told apart: inside of the
part up to the command, or over the space that ends the part. -/
structure HeaderMove (state next : ParserState) (message filled : Message)
    (c : Octet) : Prop where
  params : filled.params = message.params
  notNul : c ≠ nul
  notLf : c ≠ lf
  moves : (c = cr ∧ next = .parseStateCr ∧ sectionFrom state [] = []) ∨
    (c ≠ cr ∧ next.isHeader = true ∧
      ∀ text, sectionFrom state (c :: text) = sectionFrom next text) ∨
    (c = space ∧ next = .parseStateParamStart ∧
      ∀ text, sectionFrom state (c :: text) = space :: text)

variable {platform : Platform} {state next : ParserState} {buffer rest : Text}
  {message filled : Message} {c : Octet}

theorem incomplete_inj
    (step : ((⟨state, buffer⟩, message, .incomplete) : MessageParser.Consumed) =
      (⟨next, rest⟩, filled, .incomplete)) :
    state = next ∧ buffer = rest ∧ message = filled := by
  simpa [and_assoc] using step

/-- A step that stays before the parameters. -/
theorem HeaderMove.onward (params : filled.params = message.params)
    (plain : c ≠ nul ∧ c ≠ lf ∧ c ≠ cr) (header : next.isHeader = true)
    (sectionEq : ∀ text, sectionFrom state (c :: text) = sectionFrom next text) :
    HeaderMove state next message filled c :=
  ⟨params, plain.1, plain.2.1,
    Or.inr (Or.inl ⟨plain.2.2, header, sectionEq⟩)⟩

theorem HeaderMove.headerStep (move : HeaderMove state next message filled c) :
    HeaderStep state next message filled c := by
  refine ⟨move.params, move.notNul, move.notLf, ?_⟩
  rcases move.moves with ended | ⟨notCr, header, sectionEq⟩ |
    ⟨rfl, rfl, sectionEq⟩
  · exact Or.inl ended
  · exact Or.inr ⟨notCr, Or.inl header, fun text => Or.inl (sectionEq text)⟩
  · exact Or.inr ⟨by decide, Or.inr rfl, fun text => Or.inr (sectionEq text)⟩

theorem headerMove_of_begin
    (step : MessageParser.consumeCommandStart ⟨state, buffer⟩ message c =
      (⟨next, rest⟩, filled, .incomplete))
    (here : ∀ text, c ≠ space → c ≠ colon → c ≠ at_ →
      sectionFrom state (c :: text) = skipName (c :: text)) :
    HeaderMove state next message filled c := by
  have begins : (isLetter c = true ∨ isDigit c = true) ∧ filled = message ∧
      next.isHeader = true ∧ ∀ text, sectionFrom next text = skipName text := by
    simp only [MessageParser.consumeCommandStart, MessageParser.push] at step
    split at step
    · rename_i letter
      obtain ⟨rfl, _, rfl⟩ := incomplete_inj step
      exact ⟨Or.inl letter, rfl, rfl, fun _ => rfl⟩
    · split at step
      · rename_i digit
        obtain ⟨rfl, _, rfl⟩ := incomplete_inj step
        exact ⟨Or.inr digit, rfl, rfl, fun _ => rfl⟩
      · simp at step
  obtain ⟨kind, rfl, header, sectionEq⟩ := begins
  obtain ⟨notNul, notLf, notCr, notSpace, notColon, notAt⟩ :=
    alphanumeric_plain c kind
  refine .onward rfl ⟨notNul, notLf, notCr⟩ header fun text => ?_
  rw [here text notSpace notColon notAt, sectionEq, skipName_cons text kind]

theorem headerMove_start
    (step : MessageParser.consumeStart ⟨.parseStateStart, buffer⟩ message c =
      (⟨next, rest⟩, filled, .incomplete)) :
    HeaderMove .parseStateStart next message filled c := by
  simp only [MessageParser.consumeStart] at step
  split at step
  · rename_i isAt
    obtain rfl := beq_iff_eq.mp isAt
    obtain ⟨rfl, _, rfl⟩ := incomplete_inj step
    exact .onward rfl (by decide) rfl fun _ => rfl
  · split at step
    · rename_i isColon
      obtain rfl := beq_iff_eq.mp isColon
      obtain ⟨rfl, _, rfl⟩ := incomplete_inj step
      exact .onward rfl (by decide) rfl fun _ => rfl
    · apply headerMove_of_begin step
      intro text _ notColon notAt
      simp only [sectionFrom, afterCommand, skipTags_cons text notAt,
        skipPrefix_cons text notColon]

theorem headerMove_afterTags
    (step : MessageParser.consumeAfterTags ⟨.parseStateAfterTags, buffer⟩
      message c = (⟨next, rest⟩, filled, .incomplete)) :
    HeaderMove .parseStateAfterTags next message filled c := by
  simp only [MessageParser.consumeAfterTags] at step
  split at step
  · rename_i isSpace
    obtain rfl := beq_iff_eq.mp isSpace
    obtain ⟨rfl, _, rfl⟩ := incomplete_inj step
    exact .onward rfl (by decide) rfl fun _ => rfl
  · split at step
    · rename_i isColon
      obtain rfl := beq_iff_eq.mp isColon
      obtain ⟨rfl, _, rfl⟩ := incomplete_inj step
      exact .onward rfl (by decide) rfl fun _ => rfl
    · apply headerMove_of_begin step
      intro text notSpace notColon _
      simp [sectionFrom, notSpace, skipPrefix_cons text notColon]

theorem headerMove_tagKey
    (step : MessageParser.consumeTagKey ⟨.parseStateTagKey, buffer⟩ message c =
      (⟨next, rest⟩, filled, .incomplete)) :
    HeaderMove .parseStateTagKey next message filled c := by
  simp only [MessageParser.consumeTagKey, MessageParser.push] at step
  split at step
  · rename_i keyChar
    obtain ⟨notNul, notLf, notCr, notSpace, _, _⟩ := isTagKeyChar_plain c keyChar
    obtain ⟨rfl, _, rfl⟩ := incomplete_inj step
    refine .onward rfl ⟨notNul, notLf, notCr⟩ rfl fun text => ?_
    simp [sectionFrom, notSpace]
  · split at step
    · rename_i isEquals
      obtain rfl := beq_iff_eq.mp isEquals
      split at step
      · simp at step
      · obtain ⟨rfl, _, rfl⟩ := incomplete_inj step
        exact .onward rfl (by decide) rfl fun _ => rfl
    · split at step
      · rename_i isSpace
        obtain rfl := beq_iff_eq.mp isSpace
        split at step
        all_goals
          obtain ⟨rfl, _, rfl⟩ := incomplete_inj step
          exact .onward rfl (by decide) rfl fun _ => rfl
      · simp at step

theorem headerMove_tagValue (notNul : c ≠ nul)
    (step : MessageParser.consumeTagValue ⟨.parseStateTagValue, buffer⟩
      message c = (⟨next, rest⟩, filled, .incomplete)) :
    HeaderMove .parseStateTagValue next message filled c := by
  simp only [MessageParser.consumeTagValue, MessageParser.push] at step
  split at step
  · rename_i isSpace
    obtain rfl := beq_iff_eq.mp isSpace
    obtain ⟨rfl, _, rfl⟩ := incomplete_inj step
    exact .onward rfl (by decide) rfl fun _ => rfl
  · split at step
    · rename_i isSemicolon
      obtain rfl := beq_iff_eq.mp isSemicolon
      obtain ⟨rfl, _, rfl⟩ := incomplete_inj step
      exact .onward rfl (by decide) rfl fun _ => rfl
    · split at step
      · rename_i other
        simp only [Bool.and_eq_true, bne_iff_ne] at other
        obtain ⟨⟨notSpace, notCr⟩, notLf⟩ := other
        obtain ⟨rfl, _, rfl⟩ := incomplete_inj step
        refine .onward rfl ⟨notNul, notLf, notCr⟩ rfl fun text => ?_
        simp [sectionFrom, notSpace]
      · simp at step

theorem headerMove_prefixText
    (step : MessageParser.consumePrefix platform ⟨.parseStatePrefix, buffer⟩
      message c = (⟨next, rest⟩, filled, .incomplete)) :
    HeaderMove .parseStatePrefix next message filled c := by
  simp only [MessageParser.consumePrefix, MessageParser.push] at step
  split at step
  · rename_i prefixChar
    obtain ⟨notNul, notLf, notCr, notSpace⟩ := isPrefixChar_plain c prefixChar
    obtain ⟨rfl, _, rfl⟩ := incomplete_inj step
    refine .onward rfl ⟨notNul, notLf, notCr⟩ rfl fun text => ?_
    simp [sectionFrom, notSpace]
  · split at step
    · rename_i isSpace
      obtain rfl := beq_iff_eq.mp isSpace
      split at step
      · simp at step
      · obtain ⟨rfl, _, rfl⟩ := incomplete_inj step
        exact .onward rfl (by decide) rfl fun _ => rfl
    · simp at step

theorem headerMove_commandName
    (step : MessageParser.consumeCommandName ⟨.parseStateCommandName, buffer⟩
      message c = (⟨next, rest⟩, filled, .incomplete)) :
    HeaderMove .parseStateCommandName next message filled c := by
  simp only [MessageParser.consumeCommandName, MessageParser.push] at step
  split at step
  · rename_i letter
    obtain ⟨notNul, notLf, notCr, _⟩ := alphanumeric_plain c (Or.inl letter)
    obtain ⟨rfl, _, rfl⟩ := incomplete_inj step
    exact .onward rfl ⟨notNul, notLf, notCr⟩ rfl fun text =>
      skipName_cons text (Or.inl letter)
  · split at step
    · rename_i isSpace
      obtain rfl := beq_iff_eq.mp isSpace
      obtain ⟨rfl, _, rfl⟩ := incomplete_inj step
      exact ⟨rfl, by decide, by decide,
        Or.inr (Or.inr ⟨rfl, rfl, fun text => rfl⟩)⟩
    · split at step
      · rename_i isCr
        obtain rfl := beq_iff_eq.mp isCr
        obtain ⟨rfl, _, rfl⟩ := incomplete_inj step
        exact ⟨rfl, by decide, by decide, Or.inl ⟨rfl, rfl, rfl⟩⟩
      · simp at step

theorem headerMove_commandNumber
    (step : MessageParser.consumeCommandNumber
      ⟨.parseStateCommandNumber, buffer⟩ message c =
        (⟨next, rest⟩, filled, .incomplete)) :
    HeaderMove .parseStateCommandNumber next message filled c := by
  simp only [MessageParser.consumeCommandNumber, MessageParser.push] at step
  split at step
  · rename_i ends
    split at step
    · simp at step
    · obtain ⟨rfl, _, rfl⟩ := incomplete_inj step
      rw [Bool.or_eq_true, beq_iff_eq, beq_iff_eq] at ends
      rcases ends with rfl | rfl
      · exact ⟨rfl, by decide, by decide,
          Or.inr (Or.inr ⟨rfl, rfl, fun text => rfl⟩)⟩
      · exact ⟨rfl, by decide, by decide, Or.inl ⟨rfl, rfl, rfl⟩⟩
  · split at step
    · rename_i digit
      rw [Bool.and_eq_true] at digit
      obtain ⟨notNul, notLf, notCr, _⟩ :=
        alphanumeric_plain c (Or.inr digit.1)
      obtain ⟨rfl, _, rfl⟩ := incomplete_inj step
      exact .onward rfl ⟨notNul, notLf, notCr⟩ rfl fun text =>
        skipName_cons text (Or.inr digit.1)
    · simp at step

theorem consume_headerMove (header : state.isHeader = true)
    (step : MessageParser.consume platform ⟨state, buffer⟩ message c =
      (⟨next, rest⟩, filled, .incomplete)) :
    HeaderMove state next message filled c := by
  simp only [MessageParser.consume] at step
  split at step
  · simp at step
  · rename_i notNul
    cases state with
    | parseStateStart => exact headerMove_start step
    | parseStateTagKey => exact headerMove_tagKey step
    | parseStateTagValue => exact headerMove_tagValue (by simpa using notNul) step
    | parseStateAfterTags => exact headerMove_afterTags step
    | parseStatePrefix => exact headerMove_prefixText step
    | parseStateCommandNameOrNumber =>
        exact headerMove_of_begin step fun _ _ _ _ => rfl
    | parseStateCommandName => exact headerMove_commandName step
    | parseStateCommandNumber => exact headerMove_commandNumber step
    | parseStateParamStart => simp [ParserState.isHeader] at header
    | parseStateParam => simp [ParserState.isHeader] at header
    | parseStateTrailing => simp [ParserState.isHeader] at header
    | parseStateCr => simp [ParserState.isHeader] at header
    | parseStateComplete => simp [ParserState.isHeader] at header

theorem consume_header (header : state.isHeader = true)
    (step : MessageParser.consume platform ⟨state, buffer⟩ message c =
      (⟨next, rest⟩, filled, .incomplete)) :
    HeaderStep state next message filled c :=
  (consume_headerMove header step).headerStep

/-! ## One octet of a line -/

/-- What an octet does to the parameters: in any rest of a line of which nothing
is dropped, it is accounted for where the rest behind it is. -/
structure LineStep (state next : ParserState) (buffer rest : Text)
    (message filled : Message) (c : Octet) : Prop where
  notNul : c ≠ nul
  ends : c = cr → next = .parseStateCr ∧ NoneDropped (sectionFrom state []) ∧
    ∃ params, filled.params = message.params ++ params ∧
      PendingParams state buffer [] params
  continues : c ≠ cr → next ≠ .parseStateCr ∧ ∀ text,
    NoneDropped (sectionFrom state (c :: text)) →
      c ≠ lf ∧ NoneDropped (sectionFrom next text) ∧
        ∀ params, PendingParams next rest text params →
          ∃ all, filled.params ++ params = message.params ++ all ∧
            PendingParams state buffer (c :: text) all

theorem pendingParams_of_header (header : state.isHeader = true ∨
      state = .parseStateParamStart) (text : Text) (params : List Text) :
    PendingParams state buffer text params ↔
      DividesInto (sectionFrom state text) params := by
  cases state <;> simp_all [PendingParams, ParserState.isHeader]

theorem noneDropped_of_separator {text : Text}
    (none : NoneDropped (space :: text)) : NoneDropped text :=
  (noneDropped_cons.mp none).2

theorem HeaderStep.lineStep (header : state.isHeader = true)
    (step : HeaderStep state next message filled c) :
    LineStep state next buffer rest message filled c := by
  obtain ⟨paramsEq, notNul, notLf, moves⟩ := step
  refine ⟨notNul, ?_, ?_⟩
  · intro isCr
    rcases moves with ⟨_, atCr, emptySection⟩ | ⟨notCr, _⟩
    · refine ⟨atCr, ?_, [], by simp [paramsEq], ?_⟩
      · rw [emptySection]
        exact fun _ member => absurd member List.not_mem_nil
      · rw [pendingParams_of_header (Or.inl header), emptySection]
        exact .nil
    · exact absurd isCr notCr
  · intro notCr
    rcases moves with ⟨isCr, _⟩ | ⟨_, onward, sectionEq⟩
    · exact absurd isCr notCr
    · refine ⟨?_, fun text none => ⟨notLf, ?_, fun params pending => ?_⟩⟩
      · rcases onward with isHeader | rfl
        · rintro rfl
          exact absurd isHeader (by decide)
        · decide
      · rcases sectionEq text with same | separated
        · rwa [← same]
        · rw [separated] at none
          exact noneDropped_of_separator none
      · refine ⟨params, by rw [paramsEq], ?_⟩
        rw [pendingParams_of_header onward] at pending
        rw [pendingParams_of_header (Or.inl header)]
        rcases sectionEq text with same | separated
        · rwa [same]
        · rw [separated]
          exact .separator pending

theorem lineStep_paramStart (empty : buffer = []) (notNul : c ≠ nul)
    (step : MessageParser.consumeParamStart ⟨.parseStateParamStart, buffer⟩
      message c = (⟨next, rest⟩, filled, .incomplete)) :
    LineStep .parseStateParamStart next buffer rest message filled c := by
  subst empty
  simp only [MessageParser.consumeParamStart, MessageParser.push] at step
  split at step
  · rename_i isColon
    obtain rfl := beq_iff_eq.mp isColon
    obtain ⟨rfl, rfl, rfl⟩ := incomplete_inj step
    refine ⟨notNul, fun isCr => absurd isCr (by decide),
      fun _ => ⟨by decide, fun text none => ⟨by decide, ?_, ?_⟩⟩⟩
    · exact (noneDropped_cons.mp none).2
    · rintro params rfl
      exact ⟨[text], rfl, .trailing text⟩
  · split at step
    · rename_i start
      obtain ⟨_, _, notLf, notCr, _, _⟩ := (isParamStartChar_iff c).mp start
      obtain ⟨rfl, rfl, rfl⟩ := incomplete_inj step
      refine ⟨notNul, fun isCr => absurd isCr notCr,
        fun _ => ⟨by decide, fun text none => ⟨notLf, ?_, ?_⟩⟩⟩
      · exact (noneDropped_cons.mp none).2
      · exact fun params pending => ⟨params, rfl, pending⟩
    · split at step
      · rename_i isCr
        obtain rfl := beq_iff_eq.mp isCr
        obtain ⟨rfl, rfl, rfl⟩ := incomplete_inj step
        refine ⟨notNul, fun _ => ⟨rfl, ?_, [], by simp, .nil⟩,
          fun notCr => absurd rfl notCr⟩
        exact fun _ member => absurd member List.not_mem_nil
      · split at step
        · rename_i isSpace
          obtain rfl := beq_iff_eq.mp isSpace
          obtain ⟨rfl, rfl, rfl⟩ := incomplete_inj step
          refine ⟨notNul, fun isCr => absurd isCr (by decide),
            fun _ => ⟨by decide, fun text none => ⟨by decide, ?_, ?_⟩⟩⟩
          · exact noneDropped_of_separator none
          · exact fun params pending => ⟨params, rfl, .separator pending⟩
        · -- The octets that reach this branch are the ones that are dropped.
          rename_i notColon notStart notCr notSpace
          obtain ⟨rfl, rfl, rfl⟩ := incomplete_inj step
          simp only [beq_iff_eq] at notColon notCr notSpace
          refine ⟨notNul, fun isCr => absurd isCr notCr, fun _ =>
            ⟨by decide, fun text none => ?_⟩⟩
          obtain ⟨⟨notLf, low⟩, _⟩ := noneDropped_cons.mp none
          exact absurd ((isParamStartChar_iff c).mpr
            ⟨low, notNul, notLf, notCr, notSpace, notColon⟩) notStart

theorem lineStep_param (middle : IsMiddle buffer) (notNul : c ≠ nul)
    (step : MessageParser.consumeParam ⟨.parseStateParam, buffer⟩
      message c = (⟨next, rest⟩, filled, .incomplete)) :
    LineStep .parseStateParam next buffer rest message filled c := by
  have ended : ∀ {after : Text} {params : List Text},
      after = [] ∨ after.head? = some space → DividesInto after params →
        DividesInto (buffer ++ after) (buffer :: params) :=
    fun boundary divides => .middle middle.ne_nil middle.no_space
      middle.head_ne_colon boundary divides
  simp only [MessageParser.consumeParam, MessageParser.push] at step
  split at step
  · rename_i ends
    obtain ⟨rfl, rfl, rfl⟩ := incomplete_inj step
    rw [Bool.or_eq_true, beq_iff_eq, beq_iff_eq] at ends
    rcases ends with rfl | rfl
    · refine ⟨notNul, fun isCr => absurd isCr (by decide),
        fun _ => ⟨by decide, fun text none => ⟨by decide, ?_, ?_⟩⟩⟩
      · exact noneDropped_of_separator none
      · exact fun params pending => ⟨buffer :: params,
          by simp [Message.addParam], ended (Or.inr rfl) (.separator pending)⟩
    · refine ⟨notNul, fun _ => ⟨rfl, ?_, [buffer], rfl, ?_⟩,
        fun notCr => absurd rfl notCr⟩
      · exact fun _ member => absurd member List.not_mem_nil
      · exact ended (Or.inl rfl) .nil
  · split at step
    · rename_i kind
      obtain ⟨rfl, rfl, rfl⟩ := incomplete_inj step
      have plain : c ≠ lf ∧ c ≠ cr := by
        rw [Bool.or_eq_true, beq_iff_eq] at kind
        rcases kind with start | rfl
        · obtain ⟨_, _, notLf, notCr, _, _⟩ := (isParamStartChar_iff c).mp start
          exact ⟨notLf, notCr⟩
        · decide
      refine ⟨notNul, fun isCr => absurd isCr plain.2,
        fun _ => ⟨by decide, fun text none => ⟨plain.1, ?_, ?_⟩⟩⟩
      · exact (noneDropped_cons.mp none).2
      · intro params pending
        refine ⟨params, rfl, ?_⟩
        simpa [PendingParams] using pending
    · simp at step

theorem lineStep_trailing (notNul : c ≠ nul)
    (step : MessageParser.consumeTrailing platform
      ⟨.parseStateTrailing, buffer⟩ message c =
        (⟨next, rest⟩, filled, .incomplete)) :
    LineStep .parseStateTrailing next buffer rest message filled c := by
  simp only [MessageParser.consumeTrailing, MessageParser.push] at step
  split at step
  · rename_i isCr
    obtain rfl := beq_iff_eq.mp isCr
    obtain ⟨rfl, rfl, rfl⟩ := incomplete_inj step
    refine ⟨notNul, fun _ => ⟨rfl, ?_, [buffer], rfl, ?_⟩,
      fun notCr => absurd rfl notCr⟩
    · exact fun _ member => absurd member List.not_mem_nil
    · simp [PendingParams]
  · split at step
    · rename_i notCr kind
      obtain ⟨rfl, rfl, rfl⟩ := incomplete_inj step
      have notLf : c ≠ lf := by
        rintro rfl
        exact absurd kind (by decide)
      refine ⟨notNul, fun isCr => absurd isCr (by simpa using notCr),
        fun _ => ⟨by decide, fun text none => ⟨notLf, ?_, ?_⟩⟩⟩
      · exact (noneDropped_cons.mp none).2
      · rintro params rfl
        exact ⟨[buffer ++ c :: text], by simp, rfl⟩
    · simp at step

/-- Every octet but the last of a line is a step of it. -/
theorem consume_lineStep
    (good : ParserInvariant platform ⟨state, buffer⟩ message)
    (notAtCr : state ≠ .parseStateCr)
    (step : MessageParser.consume platform ⟨state, buffer⟩ message c =
      (⟨next, rest⟩, filled, .incomplete)) :
    LineStep state next buffer rest message filled c := by
  by_cases header : state.isHeader = true
  · exact (consume_header header step).lineStep header
  · simp only [MessageParser.consume] at step
    split at step
    · simp at step
    · rename_i isNul
      have notNul : c ≠ nul := by simpa using isNul
      cases state with
      | parseStateParamStart => exact lineStep_paramStart good.2 notNul step
      | parseStateParam => exact lineStep_param good.2 notNul step
      | parseStateTrailing => exact lineStep_trailing notNul step
      | parseStateCr => exact absurd rfl notAtCr
      | parseStateComplete => simp at step
      | _ => exact absurd rfl header

/-! ## Whole lines -/

/-- A line is completed by a line feed behind a carriage return. -/
theorem consume_completes (notComplete : state ≠ .parseStateComplete)
    (step : MessageParser.consume platform ⟨state, buffer⟩ message c =
      (⟨next, rest⟩, filled, .complete)) :
    state = .parseStateCr ∧ c = lf ∧ filled = message := by
  revert step
  unfold MessageParser.consume MessageParser.consumeStart
    MessageParser.consumeTagKey MessageParser.consumeTagValue
    MessageParser.consumeAfterTags MessageParser.consumePrefix
    MessageParser.consumeCommandName MessageParser.consumeCommandNumber
    MessageParser.consumeParamStart MessageParser.consumeParam
    MessageParser.consumeTrailing MessageParser.consumeCr
    MessageParser.consumeCommandStart
  grind

/-- What is left of a line behind its carriage return. -/
theorem accepts_behindCr {line : Text} {final : Reader}
    (accepted : (lineScanner platform).Accepts
      (reading .parseStateCr buffer message) line final) :
    line = [lf] ∧ final.message = message := by
  cases line with
  | nil => exact absurd accepted (Scanner.not_accepts_nil _ _)
  | cons c rest =>
      rcases Scanner.accepts_cons accepted with ⟨rfl, last⟩ | ⟨next, step, _⟩
      · have notComplete : ParserState.parseStateCr ≠ .parseStateComplete := by
          decide
        obtain ⟨_, rfl, filledEq⟩ :=
          consume_completes notComplete (consume_of_step last)
        exact ⟨rfl, filledEq⟩
      · have consumed := consume_of_step step
        simp only [MessageParser.consume, MessageParser.consumeCr] at consumed
        split at consumed
        · simp at consumed
        · split at consumed <;> simp at consumed

/-- What a line is, and what its parameters are if nothing of it is dropped. -/
structure LineFrom (state : ParserState) (buffer : Text) (message : Message)
    (line : Text) (body : Text) (final : Reader) : Prop where
  line : line = body ++ [cr, lf]
  noNul : nul ∉ body
  noCr : cr ∉ body
  accounted : NoneDropped (sectionFrom state body) → lf ∉ body ∧
    ∃ params, final.message.params = message.params ++ params ∧
      PendingParams state buffer body params

/-- By induction on the line: the invariant of the parser carries over to the
state that the first octet leads to. -/
theorem accepts_lineFrom {reader final : Reader} {line : Text}
    (between : BetweenReads platform reader)
    (notAtCr : reader.parser.state ≠ .parseStateCr)
    (accepted : (lineScanner platform).Accepts reader line final) :
    ∃ body, LineFrom reader.parser.state reader.parser.buffer reader.message
      line body final := by
  induction line generalizing reader with
  | nil => exact absurd accepted (Scanner.not_accepts_nil _ _)
  | cons c line ih =>
      rcases reader with ⟨⟨state, buffer⟩, message⟩
      rcases Scanner.accepts_cons accepted with ⟨rfl, last⟩ | ⟨next, head, tail⟩
      · have completes :=
          consume_completes between.notComplete (consume_of_step last)
        exact absurd completes.1 notAtCr
      · have onward := between.step c (by simp [head])
        rw [head] at onward
        have step :=
          consume_lineStep between.fine notAtCr (consume_of_step head)
        rcases next with ⟨⟨nextState, rest⟩, filled⟩
        by_cases isCr : c = cr
        · subst isCr
          obtain ⟨rfl, none, params, paramsEq, pending⟩ := step.ends rfl
          obtain ⟨rfl, filledEq⟩ := accepts_behindCr tail
          refine ⟨[], rfl, List.not_mem_nil, List.not_mem_nil, fun _ => ?_⟩
          exact ⟨List.not_mem_nil, params, by rw [filledEq, paramsEq], pending⟩
        · obtain ⟨notAtCr', continues⟩ := step.continues isCr
          obtain ⟨body, lineEq, noNul, noCr, accounted⟩ :=
            ih onward notAtCr' tail
          refine ⟨c :: body, by rw [lineEq]; rfl, ?_, ?_, fun none => ?_⟩
          · simpa [noNul] using Ne.symm step.notNul
          · simpa [noCr] using Ne.symm isCr
          · obtain ⟨notLf, noneLater, extended⟩ := continues body none
            obtain ⟨noLf, params, paramsEq, pending⟩ := accounted noneLater
            obtain ⟨all, allEq, pendingAll⟩ := extended params pending
            refine ⟨?_, all, by rw [paramsEq, allEq], pendingAll⟩
            simpa [noLf] using Ne.symm notLf

/-- The message of an accepted line is read up to its end. -/
theorem finished_of_parsesTo {line : Text} {message : Message}
    (parsed : ParsesTo platform line message) : Finished platform message := by
  obtain ⟨parser, accepted⟩ := (parsesTo_iff_accepts _ _ _).mp parsed
  apply finished_of_delivered platform [line]
  have delivered := Scanner.deliver_of_accepts accepted []
  rw [List.append_nil] at delivered
  simp [Scanner.deliverAll, delivered, Scanner.deliver]

/-- No octet of a parameter is one that the parser drops. -/
theorem Finished.noneDropped {message : Message}
    (finished : Finished platform message) {text : Text}
    (divides : DividesInto text message.params) : NoneDropped text := by
  intro c member
  rcases divides.octet member with rfl | rfl | ⟨param, isParam, isIn⟩
  · decide
  · decide
  · rcases finished.params param isParam c isIn with start | rfl | rfl
    · obtain ⟨low, _, notLf, _⟩ := (isParamStartChar_iff c).mp start
      exact ⟨notLf, low⟩
    · decide
    · decide

/-- An accepted line is accounted for, octet by octet, exactly when none of the
octets behind its command is one that the parser drops. -/
theorem accountsFor_iff_noneDropped (platform : Platform) (line : Text)
    (message : Message) (parsed : ParsesTo platform line message) :
    AccountsFor line message ↔
      ∃ body, line = body ++ [cr, lf] ∧ NoneDropped (afterCommand body) := by
  constructor
  · rintro ⟨body, lineEq, _, divides⟩
    exact ⟨body, lineEq, (finished_of_parsesTo parsed).noneDropped divides⟩
  · rintro ⟨body, lineEq, none⟩
    obtain ⟨parser, accepted⟩ := (parsesTo_iff_accepts _ _ _).mp parsed
    obtain ⟨body', lineEq', noNul, noCr, accounted⟩ :=
      accepts_lineFrom (betweenReads_start platform) (by decide) accepted
    have bodyEq : body' = body :=
      List.append_cancel_right (lineEq'.symm.trans lineEq)
    subst bodyEq
    obtain ⟨noLf, params, paramsEq, divides⟩ := accounted none
    refine ⟨body', lineEq, ⟨noNul, noCr, noLf⟩, ?_⟩
    rw [List.nil_append] at paramsEq
    rw [paramsEq]
    exact divides

theorem accountsFor_spacedLine :
    AccountsFor (ascii "MODE #c  +o :a b\r\n")
        { command := ascii "MODE",
          params := [ascii "#c", ascii "+o", ascii "a b"] } ↔
      ∃ body, ascii "MODE #c  +o :a b\r\n" = body ++ [cr, lf] ∧
        NoneDropped (afterCommand body) :=
  accountsFor_iff_noneDropped plainPlatform _ _ ⟨_, rfl⟩

/-- A line feed behind the command: the line is accepted as if it was not
there. -/
theorem not_accountsFor_droppedLf :
    ParsesTo plainPlatform (ascii "LIST \n\r\n") { command := ascii "LIST" } ∧
      ¬ AccountsFor (ascii "LIST \n\r\n") { command := ascii "LIST" } := by
  refine ⟨⟨_, rfl⟩, ?_⟩
  rintro ⟨body, lineEq, ⟨_, _, noLf⟩, _⟩
  have cut : ascii "LIST \n" ++ [cr, lf] = body ++ [cr, lf] := lineEq
  have bodyEq := List.append_cancel_right cut
  rw [← bodyEq] at noLf
  exact absurd noLf (by decide)

end Birch
