import Birch.AcceptedLines
import Birch.MessageRoundTrip

/-!
# The grammar of lines

A line is derived from a form: a value for each part of it, which carries the
conditions on the part.  The form says both how the line is spelt and which
message it stands for.  The parser accepts the lines that have a form, with the
message of the form, and no others: every state owes the part of a form that is
still to be read.
-/

namespace Birch

open Octet IncrementalScanner

/-! ## Forms -/

/-- A tag with a `=`. -/
structure ValuedTag where
  key : Text
  value : Text
  isKey : IsTagKey key
  isValue : IsTagValue value

/-- The last tag of a section, which may be missing or have a key only. -/
inductive LastTag
  | none
  | bare (key : Text) (isKey : IsTagKey key)
  | valued (tag : ValuedTag)

/-- The tags that a semicolon ends, and the one that a space ends. -/
structure TagForm where
  ended : List ValuedTag
  last : LastTag

/-- The octets besides the separating spaces that the parser drops where it
waits for a parameter to begin. -/
def isDropped (c : Octet) : Bool :=
  c == space || c == lf || decide (128 ≤ c.toNat)

/-- The part behind the space that ends a command. -/
inductive ParamForm
  | none
  | dropped (c : Octet) (isDropped : isDropped c = true) (rest : ParamForm)
  | middle (param : Text) (isMiddle : IsMiddle param) (rest : ParamForm)
  | last (param : Text) (isMiddle : IsMiddle param)
  | trailing (param : Text) (isTrailing : IsTrailing param)

structure CommandForm where
  command : Text
  isCommand : IsCommand command
  params : Option ParamForm

structure PrefixForm (platform : Platform) where
  source : Text
  chars : ∀ c ∈ source, isPrefixChar c = true
  valid : isValidPrefix platform source = true

/-- The part of a line behind its tags. -/
structure BodyForm (platform : Platform) where
  source : Option (PrefixForm platform)
  command : CommandForm

/-- A line: the tags with the number of superfluous spaces behind them, and the
body. -/
structure LineForm (platform : Platform) where
  tags : Option (TagForm × Nat)
  body : BodyForm platform

/-! ## How a form is spelt -/

def ValuedTag.text (tag : ValuedTag) : Text :=
  tag.key ++ equals :: tag.value

def LastTag.text : LastTag → Text
  | .none => []
  | .bare key _ => key
  | .valued tag => tag.text

def TagForm.text (tags : TagForm) : Text :=
  (tags.ended.flatMap fun tag => tag.text ++ [semicolon]) ++ tags.last.text

def ParamForm.text : ParamForm → Text
  | .none => []
  | .dropped c _ rest => c :: rest.text
  | .middle param _ rest => param ++ space :: rest.text
  | .last param _ => param
  | .trailing param _ => colon :: param

def CommandForm.text (form : CommandForm) : Text :=
  form.command ++ match form.params with
    | none => []
    | some params => space :: params.text

def PrefixForm.text {platform : Platform} (form : PrefixForm platform) : Text :=
  colon :: form.source ++ [space]

def BodyForm.text {platform : Platform} (body : BodyForm platform) : Text :=
  (match body.source with
    | none => []
    | some source => source.text) ++ body.command.text

/-- The tags and the spaces behind them, from behind the `@`. -/
def tagFormText (tags : TagForm) (count : Nat) : Text :=
  tags.text ++ space :: List.replicate count space

def LineForm.tagPart {platform : Platform} (line : LineForm platform) : Text :=
  match line.tags with
  | none => []
  | some (tags, count) => at_ :: tagFormText tags count

def LineForm.text {platform : Platform} (line : LineForm platform) : Text :=
  line.tagPart ++ line.body.text ++ [cr, lf]

/-! ## Which message a form stands for -/

def ValuedTag.fill (tag : ValuedTag) (message : Message) : Message :=
  message.addTag tag.key (keptValue tag.value)

def LastTag.fill (message : Message) : LastTag → Message
  | .none => message
  | .bare key _ => message.addTagMoved key []
  | .valued tag => tag.fill message

def TagForm.fill (tags : TagForm) (message : Message) : Message :=
  tags.last.fill
    (tags.ended.foldl (fun message tag => tag.fill message) message)

def ParamForm.params : ParamForm → List Text
  | .none => []
  | .dropped _ _ rest => rest.params
  | .middle param _ rest => param :: rest.params
  | .last param _ => [param]
  | .trailing param _ => [param]

def CommandForm.fill (form : CommandForm) (message : Message) : Message :=
  (message.setCommand form.command).addParams (match form.params with
    | none => []
    | some params => params.params)

def BodyForm.fill {platform : Platform} (body : BodyForm platform)
    (message : Message) : Message :=
  body.command.fill (match body.source with
    | none => message
    | some source => message.setPrefix source.source)

/-- The message before the prefix and the command are read. -/
def LineForm.tagged {platform : Platform} (line : LineForm platform) :
    Message :=
  match line.tags with
  | none => {}
  | some (tags, _) => tags.fill {}

def LineForm.message {platform : Platform} (line : LineForm platform) :
    Message :=
  line.body.fill line.tagged

theorem TagForm.fill_cons (tag : ValuedTag) (ended : List ValuedTag)
    (last : LastTag) (message : Message) :
    TagForm.fill ⟨tag :: ended, last⟩ message =
      TagForm.fill ⟨ended, last⟩ (tag.fill message) :=
  rfl

theorem TagForm.text_cons (tag : ValuedTag) (ended : List ValuedTag)
    (last : LastTag) :
    TagForm.text ⟨tag :: ended, last⟩ =
      tag.text ++ semicolon :: TagForm.text ⟨ended, last⟩ := by
  simp [TagForm.text]

theorem Message.addParams_addParam (message : Message) (param : Text)
    (params : List Text) :
    (message.addParam param).addParams params =
      message.addParams (param :: params) := by
  simp [Message.addParam, Message.addParams]

/-- The octets that `ParseStateParamStart` answers without a change of
state. -/
theorem isDropped_iff (c : Octet) :
    isDropped c = true ↔
      isParamStartChar c = false ∧ c ≠ nul ∧ c ≠ colon ∧ c ≠ cr := by
  revert c
  exact forall_octet (by decide +kernel)

/-! ## Lines that have a form are accepted -/

variable {platform : Platform}

theorem step_dropped (platform : Platform) (message : Message) {c : Octet}
    (dropped : isDropped c = true) :
    (lineScanner platform).step
        (reading .parseStateParamStart [] message) c =
      (reading .parseStateParamStart [] message, .incomplete) := by
  obtain ⟨notStart, notNul, notColon, notCr⟩ := (isDropped_iff c).mp dropped
  simp [lineScanner, MessageParser.consume, MessageParser.consumeParamStart,
    notStart, notNul, notColon, notCr]

theorem ValuedTag.advance (platform : Platform) (tag : ValuedTag)
    (message : Message) :
    (lineScanner platform).advance (reading .parseStateTagKey [] message)
        (tag.text ++ [semicolon]) =
      some (reading .parseStateTagKey [] (tag.fill message)) :=
  Scanner.advance_trans (advance_tag platform tag.isKey tag.isValue message)
    (advance_single platform
      (step_tagValue_semicolon platform tag.isKey message))

theorem LastTag.advance (platform : Platform) (last : LastTag)
    (message : Message) :
    (lineScanner platform).advance (reading .parseStateTagKey [] message)
        (last.text ++ [space]) =
      some (reading .parseStateAfterTags [] (last.fill message)) := by
  cases last with
  | none => rfl
  | bare key isKey => exact advance_bareTag_space platform isKey message
  | valued tag =>
      exact Scanner.advance_trans
        (advance_tag platform tag.isKey tag.isValue message)
        (advance_single platform
          (step_tagValue_space platform tag.isKey message))

/-- The run over the tags, by induction on those that a semicolon ends. -/
theorem TagForm.advance (platform : Platform) (tags : TagForm)
    (message : Message) :
    (lineScanner platform).advance (reading .parseStateTagKey [] message)
        (tags.text ++ [space]) =
      some (reading .parseStateAfterTags [] (tags.fill message)) := by
  rcases tags with ⟨ended, last⟩
  induction ended generalizing message with
  | nil => exact last.advance platform message
  | cons tag ended ih =>
      have run := Scanner.advance_trans (tag.advance platform message)
        (ih (tag.fill message))
      rw [TagForm.text_cons, TagForm.fill_cons]
      simpa using run

theorem advance_tagForm (platform : Platform) (tags : TagForm) (count : Nat) :
    (lineScanner platform).advance {} (at_ :: tagFormText tags count) =
      some (reading .parseStateAfterTags [] (tags.fill {})) := by
  have absorbs : (lineScanner platform).step
      (reading .parseStateAfterTags [] (tags.fill {})) space =
        (reading .parseStateAfterTags [] (tags.fill {}), .incomplete) := rfl
  have run := Scanner.advance_trans (tags.advance platform {})
    (Scanner.advance_replicate absorbs count)
  have whole := Scanner.advance_trans (advance_at platform) run
  rw [← whole, tagFormText]
  simp

/-- The run over the parameters, by induction on their form. -/
theorem ParamForm.advance (platform : Platform) (form : ParamForm)
    (message : Message) :
    ∃ buffer, (lineScanner platform).advance
        (reading .parseStateParamStart [] message) (form.text ++ [cr]) =
      some (reading .parseStateCr buffer (message.addParams form.params)) := by
  induction form generalizing message with
  | none =>
      refine ⟨[], ?_⟩
      rw [ParamForm.params, Message.addParams_nil]
      rfl
  | dropped c isDropped rest ih =>
      obtain ⟨buffer, run⟩ := ih message
      exact ⟨buffer,
        Scanner.advance_cons (step_dropped platform message isDropped) run⟩
  | middle param isMiddle rest ih =>
      obtain ⟨buffer, run⟩ := ih (message.addParam param)
      have head := advance_middle platform isMiddle message (Or.inl rfl)
      have whole := Scanner.advance_trans head run
      rw [Message.addParams_addParam] at whole
      exact ⟨buffer, by simpa [ParamForm.text, ParamForm.params] using whole⟩
  | last param isMiddle =>
      exact ⟨[], advance_middle platform isMiddle message (Or.inr rfl)⟩
  | trailing param isTrailing =>
      exact ⟨_, advance_trailing platform isTrailing message⟩

theorem CommandForm.advance (platform : Platform) {state : ParserState}
    (begins : BeginsCommand state) (form : CommandForm) (message : Message) :
    ∃ buffer, (lineScanner platform).advance (reading state [] message)
        (form.text ++ [cr]) =
      some (reading .parseStateCr buffer (form.fill message)) := by
  rcases form with ⟨command, isCommand, params⟩
  cases params with
  | none =>
      have run := advance_command platform begins isCommand message
        (Or.inr rfl)
      rw [show endState cr = .parseStateCr from rfl] at run
      refine ⟨[], ?_⟩
      simpa [CommandForm.text, CommandForm.fill, Message.addParams_nil]
        using run
  | some params =>
      have head := advance_command platform begins isCommand message
        (Or.inl rfl)
      obtain ⟨buffer, tail⟩ :=
        params.advance platform (message.setCommand command)
      have run := Scanner.advance_trans head tail
      exact ⟨buffer, by
        simpa [CommandForm.text, CommandForm.fill] using run⟩

/-- The states in which the prefix or the command may begin. -/
theorem BodyForm.advance {state : ParserState}
    (begins : state = .parseStateStart ∨ state = .parseStateAfterTags)
    (body : BodyForm platform) (message : Message) :
    ∃ buffer, (lineScanner platform).advance (reading state [] message)
        (body.text ++ [cr]) =
      some (reading .parseStateCr buffer (body.fill message)) := by
  rcases body with ⟨source, command⟩
  cases source with
  | none =>
      have beginsCommand : BeginsCommand state := by
        rcases begins with rfl | rfl
        · exact Or.inl rfl
        · exact Or.inr (Or.inl rfl)
      exact command.advance platform beginsCommand message
  | some source =>
      have colonStep : (lineScanner platform).step (reading state [] message)
          colon = (reading .parseStatePrefix [] message, .incomplete) := by
        rcases begins with rfl | rfl <;> rfl
      have head := Scanner.advance_cons colonStep
        (advance_prefixText platform source.chars source.valid message)
      obtain ⟨buffer, tail⟩ := command.advance platform
        (Or.inr (Or.inr rfl)) (message.setPrefix source.source)
      have run := Scanner.advance_trans head tail
      exact ⟨buffer, by
        simpa [BodyForm.text, BodyForm.fill, PrefixForm.text] using run⟩

theorem LineForm.parsesTo (line : LineForm platform) :
    ParsesTo platform line.text line.message := by
  rcases line with ⟨tags, body⟩
  cases tags with
  | none =>
      obtain ⟨buffer, run⟩ := body.advance (Or.inl rfl) {}
      simpa [LineForm.text, LineForm.tagPart, LineForm.message, LineForm.tagged] using
        parsesTo_of_advance platform run
  | some tags =>
      rcases tags with ⟨tags, count⟩
      obtain ⟨buffer, run⟩ := body.advance (Or.inr rfl) (tags.fill {})
      have whole := Scanner.advance_trans
        (advance_tagForm platform tags count) run
      simpa [LineForm.text, LineForm.tagPart, LineForm.message, LineForm.tagged] using
        parsesTo_of_advance platform whole

/-! ## Accepted lines have a form -/

/-- What a state owes: the rest of the line, read behind the buffer, is spelt
by the forms of the parts that are still open, and they make the final message
of the message so far. -/
def Owes (platform : Platform) (state : ParserState) (buffer : Text)
    (message : Message) (text : Text) (final : Message) : Prop :=
  match state with
  | .parseStateStart => ∃ line : LineForm platform,
      line.text = buffer ++ text ∧ line.message = final
  | .parseStateTagKey | .parseStateTagValue =>
      ∃ (tags : TagForm) (count : Nat) (body : BodyForm platform),
        tagFormText tags count ++ body.text ++ [cr, lf] = buffer ++ text ∧
          body.fill (tags.fill message) = final
  | .parseStateAfterTags => ∃ (count : Nat) (body : BodyForm platform),
      List.replicate count space ++ body.text ++ [cr, lf] = buffer ++ text ∧
        body.fill message = final
  | .parseStatePrefix =>
      ∃ (source : PrefixForm platform) (command : CommandForm),
        source.source ++ space :: command.text ++ [cr, lf] = buffer ++ text ∧
          command.fill (message.setPrefix source.source) = final
  | .parseStateCommandNameOrNumber | .parseStateCommandName
  | .parseStateCommandNumber => ∃ command : CommandForm,
      command.text ++ [cr, lf] = buffer ++ text ∧ command.fill message = final
  | .parseStateParamStart | .parseStateParam => ∃ params : ParamForm,
      params.text ++ [cr, lf] = buffer ++ text ∧
        message.addParams params.params = final
  | .parseStateTrailing => ∃ param : Text, IsTrailing param ∧
      param ++ [cr, lf] = buffer ++ text ∧ message.addParam param = final
  | .parseStateCr => text = [lf] ∧ final = message
  | .parseStateComplete => False

variable {state next : ParserState} {buffer rest text : Text}
  {message filled final : Message} {c : Octet}

/-- A command that begins here is owed by the state that buffers it. -/
theorem owes_commandStart
    (step : MessageParser.consumeCommandStart ⟨state, buffer⟩ message c =
      (⟨next, rest⟩, filled, .incomplete))
    (later : Owes platform next rest filled text final) :
    ∃ command : CommandForm,
      command.text ++ [cr, lf] = buffer ++ c :: text ∧
        command.fill message = final := by
  simp only [MessageParser.consumeCommandStart, MessageParser.push] at step
  split at step
  · obtain ⟨rfl, rfl, rfl⟩ := incomplete_inj step
    simpa [Owes] using later
  · split at step
    · obtain ⟨rfl, rfl, rfl⟩ := incomplete_inj step
      simpa [Owes] using later
    · simp at step

theorem owes_start (empty : buffer = []) (fresh : message = {})
    (step : MessageParser.consumeStart ⟨.parseStateStart, buffer⟩ message c =
      (⟨next, rest⟩, filled, .incomplete))
    (later : Owes platform next rest filled text final) :
    Owes platform .parseStateStart buffer message (c :: text) final := by
  subst empty fresh
  unfold MessageParser.consumeStart at step
  split at step
  · rename_i isAt
    obtain rfl := beq_iff_eq.mp isAt
    obtain ⟨rfl, rfl, rfl⟩ := incomplete_inj step
    obtain ⟨tags, count, body, spelt, fills⟩ := later
    exact ⟨⟨some (tags, count), body⟩, 
      by simpa [LineForm.text, LineForm.tagPart] using spelt, fills⟩
  · split at step
    · rename_i isColon
      obtain rfl := beq_iff_eq.mp isColon
      obtain ⟨rfl, rfl, rfl⟩ := incomplete_inj step
      obtain ⟨source, command, spelt, fills⟩ := later
      refine ⟨⟨none, some source, command⟩, ?_, fills⟩
      simpa [LineForm.text, LineForm.tagPart, BodyForm.text, PrefixForm.text]
        using spelt
    · obtain ⟨command, spelt, fills⟩ := owes_commandStart step later
      exact ⟨⟨none, none, command⟩,
        by simpa [LineForm.text, LineForm.tagPart, BodyForm.text] using spelt,
        fills⟩

theorem owes_tagKey (keyChars : ∀ d ∈ buffer, isTagKeyChar d = true)
    (step : MessageParser.consumeTagKey ⟨.parseStateTagKey, buffer⟩ message c =
      (⟨next, rest⟩, filled, .incomplete))
    (later : Owes platform next rest filled text final) :
    Owes platform .parseStateTagKey buffer message (c :: text) final := by
  simp only [MessageParser.consumeTagKey, MessageParser.push] at step
  split at step
  · obtain ⟨rfl, rfl, rfl⟩ := incomplete_inj step
    simpa [Owes] using later
  · split at step
    · split at step
      · simp at step
      · obtain ⟨rfl, rfl, rfl⟩ := incomplete_inj step
        simpa [Owes] using later
    · split at step
      · rename_i isSpace
        obtain rfl := beq_iff_eq.mp isSpace
        split at step
        · rename_i noKey
          obtain ⟨rfl, rfl, rfl⟩ := incomplete_inj step
          obtain ⟨count, body, spelt, fills⟩ := later
          have empty : buffer = [] := by simpa using noKey
          subst empty
          refine ⟨⟨[], .none⟩, count, body, ?_, fills⟩
          simpa [tagFormText, TagForm.text, LastTag.text] using spelt
        · rename_i nonempty
          obtain ⟨rfl, rfl, rfl⟩ := incomplete_inj step
          obtain ⟨count, body, spelt, fills⟩ := later
          have isKey : IsTagKey buffer := ⟨by simpa using nonempty, keyChars⟩
          refine ⟨⟨[], .bare buffer isKey⟩, count, body, ?_, fills⟩
          simpa [tagFormText, TagForm.text, LastTag.text] using spelt
      · simp at step

theorem owes_tagValue (tag : ValuedTag) (bufferEq : buffer = tag.text)
    (step : MessageParser.consumeTagValue ⟨.parseStateTagValue, buffer⟩
      message c = (⟨next, rest⟩, filled, .incomplete))
    (later : Owes platform next rest filled text final) :
    Owes platform .parseStateTagValue buffer message (c :: text) final := by
  have split := splitTag_eq tag.isKey.no_equals tag.value
  simp only [MessageParser.consumeTagValue, MessageParser.push, bufferEq,
    ValuedTag.text, split] at step
  split at step
  · rename_i isSpace
    obtain rfl := beq_iff_eq.mp isSpace
    obtain ⟨rfl, rfl, rfl⟩ := incomplete_inj step
    obtain ⟨count, body, spelt, fills⟩ := later
    refine ⟨⟨[], .valued tag⟩, count, body, ?_, fills⟩
    simpa [tagFormText, TagForm.text, LastTag.text, bufferEq] using spelt
  · split at step
    · rename_i isSemicolon
      obtain rfl := beq_iff_eq.mp isSemicolon
      obtain ⟨rfl, rfl, rfl⟩ := incomplete_inj step
      obtain ⟨⟨ended, last⟩, count, body, spelt, fills⟩ := later
      refine ⟨⟨tag :: ended, last⟩, count, body, ?_, fills⟩
      simpa [tagFormText, TagForm.text_cons, bufferEq] using spelt
    · split at step
      · obtain ⟨rfl, rfl, rfl⟩ := incomplete_inj step
        simpa [Owes, bufferEq, ValuedTag.text] using later
      · simp at step

theorem owes_afterTags (empty : buffer = [])
    (step : MessageParser.consumeAfterTags ⟨.parseStateAfterTags, buffer⟩
      message c = (⟨next, rest⟩, filled, .incomplete))
    (later : Owes platform next rest filled text final) :
    Owes platform .parseStateAfterTags buffer message (c :: text) final := by
  subst empty
  unfold MessageParser.consumeAfterTags at step
  split at step
  · rename_i isSpace
    obtain rfl := beq_iff_eq.mp isSpace
    obtain ⟨rfl, rfl, rfl⟩ := incomplete_inj step
    obtain ⟨count, body, spelt, fills⟩ := later
    exact ⟨count + 1, body, by simpa [List.replicate_succ] using spelt, fills⟩
  · split at step
    · rename_i isColon
      obtain rfl := beq_iff_eq.mp isColon
      obtain ⟨rfl, rfl, rfl⟩ := incomplete_inj step
      obtain ⟨source, command, spelt, fills⟩ := later
      refine ⟨0, ⟨some source, command⟩, ?_, fills⟩
      simpa [BodyForm.text, PrefixForm.text] using spelt
    · obtain ⟨command, spelt, fills⟩ := owes_commandStart step later
      exact ⟨0, ⟨none, command⟩, by simpa [BodyForm.text] using spelt, fills⟩

theorem owes_prefixText (chars : ∀ d ∈ buffer, isPrefixChar d = true)
    (step : MessageParser.consumePrefix platform ⟨.parseStatePrefix, buffer⟩
      message c = (⟨next, rest⟩, filled, .incomplete))
    (later : Owes platform next rest filled text final) :
    Owes platform .parseStatePrefix buffer message (c :: text) final := by
  simp only [MessageParser.consumePrefix, MessageParser.push] at step
  split at step
  · obtain ⟨rfl, rfl, rfl⟩ := incomplete_inj step
    simpa [Owes] using later
  · split at step
    · rename_i isSpace
      obtain rfl := beq_iff_eq.mp isSpace
      split at step
      · simp at step
      · rename_i valid
        obtain ⟨rfl, rfl, rfl⟩ := incomplete_inj step
        obtain ⟨command, spelt, fills⟩ := later
        refine ⟨⟨buffer, chars, by simpa using valid⟩, command, ?_, fills⟩
        simpa using spelt
    · simp at step

/-- What a command owes at the octet that ends it. -/
theorem owes_commandEnd (isCommand : IsCommand buffer)
    (ends : c = space ∨ c = cr)
    (later : Owes platform (endState c) [] (message.setCommand buffer) text
      final) :
    ∃ command : CommandForm, command.text ++ [cr, lf] = buffer ++ c :: text ∧
      command.fill message = final := by
  rcases ends with rfl | rfl
  · obtain ⟨params, spelt, fills⟩ := later
    refine ⟨⟨buffer, isCommand, some params⟩, ?_, fills⟩
    simpa [CommandForm.text] using spelt
  · obtain ⟨rfl, rfl⟩ := later
    exact ⟨⟨buffer, isCommand, none⟩, by simp [CommandForm.text],
      Message.addParams_nil _⟩

theorem owes_commandName (isCommand : IsCommand buffer)
    (step : MessageParser.consumeCommandName ⟨.parseStateCommandName, buffer⟩
      message c = (⟨next, rest⟩, filled, .incomplete))
    (later : Owes platform next rest filled text final) :
    Owes platform .parseStateCommandName buffer message (c :: text) final := by
  simp only [MessageParser.consumeCommandName, MessageParser.push] at step
  split at step
  · obtain ⟨rfl, rfl, rfl⟩ := incomplete_inj step
    simpa [Owes] using later
  · split at step
    · rename_i isSpace
      obtain rfl := beq_iff_eq.mp isSpace
      obtain ⟨rfl, rfl, rfl⟩ := incomplete_inj step
      exact owes_commandEnd isCommand (Or.inl rfl) later
    · split at step
      · rename_i isCr
        obtain rfl := beq_iff_eq.mp isCr
        obtain ⟨rfl, rfl, rfl⟩ := incomplete_inj step
        exact owes_commandEnd isCommand (Or.inr rfl) later
      · simp at step

theorem owes_commandNumber (digits : ∀ d ∈ buffer, isDigit d = true)
    (step : MessageParser.consumeCommandNumber
      ⟨.parseStateCommandNumber, buffer⟩ message c =
        (⟨next, rest⟩, filled, .incomplete))
    (later : Owes platform next rest filled text final) :
    Owes platform .parseStateCommandNumber buffer message (c :: text)
      final := by
  simp only [MessageParser.consumeCommandNumber, MessageParser.push] at step
  split at step
  · rename_i ends
    rw [Bool.or_eq_true, beq_iff_eq, beq_iff_eq] at ends
    split at step
    · simp at step
    · rename_i three
      obtain ⟨rfl, rfl, rfl⟩ := incomplete_inj step
      exact owes_commandEnd (Or.inr ⟨by simpa using three, digits⟩) ends later
  · split at step
    · obtain ⟨rfl, rfl, rfl⟩ := incomplete_inj step
      simpa [Owes] using later
    · simp at step

theorem owes_paramStart (empty : buffer = []) (notNul : c ≠ nul)
    (step : MessageParser.consumeParamStart ⟨.parseStateParamStart, buffer⟩
      message c = (⟨next, rest⟩, filled, .incomplete))
    (later : Owes platform next rest filled text final) :
    Owes platform .parseStateParamStart buffer message (c :: text) final := by
  subst empty
  by_cases dropped : isDropped c = true
  · obtain ⟨notStart, -, notColon, notCr⟩ := (isDropped_iff c).mp dropped
    simp only [MessageParser.consumeParamStart, notStart, beq_iff_eq, notColon,
      notCr, Bool.false_eq_true, if_false, ite_self] at step
    obtain ⟨rfl, rfl, rfl⟩ := incomplete_inj step
    obtain ⟨params, spelt, fills⟩ := later
    exact ⟨.dropped c dropped params, by simpa [ParamForm.text] using spelt,
      fills⟩
  · simp only [MessageParser.consumeParamStart, MessageParser.push] at step
    split at step
    · rename_i isColon
      obtain rfl := beq_iff_eq.mp isColon
      obtain ⟨rfl, rfl, rfl⟩ := incomplete_inj step
      obtain ⟨param, isTrailing, spelt, fills⟩ := later
      exact ⟨.trailing param isTrailing,
        by simpa [ParamForm.text] using spelt, fills⟩
    · split at step
      · obtain ⟨rfl, rfl, rfl⟩ := incomplete_inj step
        simpa [Owes] using later
      · split at step
        · rename_i isCr
          obtain rfl := beq_iff_eq.mp isCr
          obtain ⟨rfl, rfl, rfl⟩ := incomplete_inj step
          obtain ⟨rfl, rfl⟩ := later
          exact ⟨.none, rfl, Message.addParams_nil _⟩
        · -- What is none of these is dropped.
          rename_i notColon notStart notCr
          exact absurd ((isDropped_iff c).mpr ⟨by simpa using notStart, notNul,
            by simpa using notColon, by simpa using notCr⟩) dropped

theorem owes_param (middle : IsMiddle buffer)
    (step : MessageParser.consumeParam ⟨.parseStateParam, buffer⟩
      message c = (⟨next, rest⟩, filled, .incomplete))
    (later : Owes platform next rest filled text final) :
    Owes platform .parseStateParam buffer message (c :: text) final := by
  simp only [MessageParser.consumeParam, MessageParser.push] at step
  split at step
  · rename_i ends
    obtain ⟨rfl, rfl, rfl⟩ := incomplete_inj step
    rw [Bool.or_eq_true, beq_iff_eq, beq_iff_eq] at ends
    rcases ends with rfl | rfl
    · obtain ⟨params, spelt, fills⟩ := later
      rw [Message.addParams_addParam] at fills
      exact ⟨.middle buffer middle params,
        by simpa [ParamForm.text] using spelt, fills⟩
    · obtain ⟨rfl, rfl⟩ := later
      exact ⟨.last buffer middle, rfl, rfl⟩
  · split at step
    · obtain ⟨rfl, rfl, rfl⟩ := incomplete_inj step
      simpa [Owes] using later
    · simp at step

theorem owes_trailing (trailing : IsTrailing buffer)
    (step : MessageParser.consumeTrailing platform
      ⟨.parseStateTrailing, buffer⟩ message c =
        (⟨next, rest⟩, filled, .incomplete))
    (later : Owes platform next rest filled text final) :
    Owes platform .parseStateTrailing buffer message (c :: text) final := by
  simp only [MessageParser.consumeTrailing, MessageParser.push] at step
  split at step
  · rename_i isCr
    obtain rfl := beq_iff_eq.mp isCr
    obtain ⟨rfl, rfl, rfl⟩ := incomplete_inj step
    obtain ⟨rfl, rfl⟩ := later
    exact ⟨buffer, trailing, rfl, rfl⟩
  · split at step
    · obtain ⟨rfl, rfl, rfl⟩ := incomplete_inj step
      simpa [Owes] using later
    · simp at step

/-- One octet: what is owed behind it and the octet are owed before it. -/
theorem owes_of_consume
    (good : ParserInvariant platform ⟨state, buffer⟩ message)
    (step : MessageParser.consume platform ⟨state, buffer⟩ message c =
      (⟨next, rest⟩, filled, .incomplete))
    (later : Owes platform next rest filled text final) :
    Owes platform state buffer message (c :: text) final := by
  simp only [MessageParser.consume] at step
  split at step
  · simp at step
  · rename_i isNul
    have notNul : c ≠ nul := by simpa using isNul
    cases state with
    | parseStateStart => exact owes_start good.1 good.2 step later
    | parseStateTagKey => exact owes_tagKey good.2 step later
    | parseStateTagValue =>
        obtain ⟨_, key, value, bufferEq, isKey, isValue⟩ := good
        exact owes_tagValue ⟨key, value, isKey, isValue⟩ bufferEq step later
    | parseStateAfterTags => exact owes_afterTags good.2 step later
    | parseStatePrefix => exact owes_prefixText good.2 step later
    | parseStateCommandNameOrNumber => exact owes_commandStart step later
    | parseStateCommandName =>
        exact owes_commandName (Or.inl good.2) step later
    | parseStateCommandNumber => exact owes_commandNumber good.2 step later
    | parseStateParamStart => exact owes_paramStart good.2 notNul step later
    | parseStateParam => exact owes_param good.2 step later
    | parseStateTrailing => exact owes_trailing good.2 step later
    | parseStateCr =>
        simp only [MessageParser.consumeCr] at step
        split at step <;> simp at step
    | parseStateComplete => simp at step

/-- A run to the end of a line pays what its state owes. -/
theorem owes_of_accepts {reader ended : Reader}
    (good : ParserInvariant platform reader.parser reader.message)
    (notComplete : reader.parser.state ≠ .parseStateComplete)
    (accepted : (lineScanner platform).Accepts reader text ended) :
    Owes platform reader.parser.state reader.parser.buffer reader.message text
      ended.message := by
  induction text generalizing reader with
  | nil => exact absurd accepted (Scanner.not_accepts_nil _ _)
  | cons c text ih =>
      rcases reader with ⟨⟨state, buffer⟩, message⟩
      rcases Scanner.accepts_cons accepted with ⟨rfl, last⟩ | ⟨next, head, tail⟩
      · obtain ⟨rfl, rfl, filledEq⟩ :=
          consume_completes notComplete (consume_of_step last)
        exact ⟨rfl, filledEq⟩
      · rcases next with ⟨⟨nextState, rest⟩, filled⟩
        have nextGood := MessageParser.consume_fine good c
        rw [MessageParser.Consumed.Fine, consume_of_step head] at nextGood
        have inside :=
          MessageParser.consume_incomplete_state (consume_of_step head)
        exact owes_of_consume good (consume_of_step head)
          (ih nextGood inside.2 tail)

theorem exists_form_of_parsesTo {line : Text} {message : Message}
    (parsed : ParsesTo platform line message) :
    ∃ form : LineForm platform, form.text = line ∧ form.message = message := by
  obtain ⟨parser, accepted⟩ := (parsesTo_iff_accepts _ _ _).mp parsed
  exact owes_of_accepts (parserInvariant_fresh platform) (by decide) accepted

/-- The parser accepts exactly the lines of the grammar, each with the message
that its form stands for. -/
theorem parsesTo_iff_exists_form (platform : Platform) (line : Text)
    (message : Message) :
    ParsesTo platform line message ↔
      ∃ form : LineForm platform, form.text = line ∧
        form.message = message := by
  constructor
  · exact exists_form_of_parsesTo
  · rintro ⟨form, rfl, rfl⟩
    exact form.parsesTo

end Birch
