import Birch.ConnectionReadLoopRejection
import Birch.MessageSerializer

/-!
# The normal form of delivered messages

Every message that `RunReadLoop` notifies has been read under the invariant of
the parser, also behind octets that were rejected.  Its parts therefore fit the
grammar, and it is serialized as one line.
-/

namespace Birch

open Octet IncrementalScanner

/-- The texts that a message consists of. -/
def Message.parts (message : Message) : List Text :=
  message.prefixText :: message.command ::
    (message.params ++ message.tags.entries.flatMap fun tag => [tag.1, tag.2])

/-- No octet of the text ends a line or a C string. -/
def IsPlain (text : Text) : Prop :=
  nul ∉ text ∧ cr ∉ text ∧ lf ∉ text

structure NormalForm (platform : Platform) (message : Message) : Prop where
  command : IsCommand message.command
  middles : ∀ param ∈ message.params.dropLast,
    param ≠ [] ∧ space ∉ param ∧ param.head? ≠ some colon
  prefixText : message.prefixText = [] ∨
    isValidPrefix platform message.prefixText = true
  tagKeys : ∀ tag ∈ message.tags.entries, IsTagKey tag.1
  tagValues : ∀ tag ∈ message.tags.entries,
    semicolon ∉ tag.2 ∧ space ∉ tag.2
  plain : ∀ part ∈ message.parts, IsPlain part

/-- Written to any buffer that has room for it, the message is one line: its
only CR and its only LF are the last two octets. -/
def SerializesToOneLine (message : Message) : Prop :=
  ∀ buffer : Text, computeRequiredSpace message ≤ buffer.length →
    ∃ body rest, writeToBuffer buffer message =
        some (body ++ [cr, lf] ++ rest, body.length + 2) ∧
      cr ∉ body ∧ lf ∉ body

theorem isPlain_of_forall {text : Text}
    (each : ∀ c ∈ text, c ≠ nul ∧ c ≠ cr ∧ c ≠ lf) : IsPlain text :=
  ⟨fun member => (each nul member).1 rfl,
    fun member => (each cr member).2.1 rfl,
    fun member => (each lf member).2.2 rfl⟩

theorem IsCommand.isPlain {text : Text} (command : IsCommand text) :
    IsPlain text := by
  apply isPlain_of_forall
  intro c member
  have kind : isLetter c = true ∨ isDigit c = true := by
    rcases command with ⟨_, letters⟩ | ⟨_, digits⟩
    · exact Or.inl (letters c member)
    · exact Or.inr (digits c member)
  have plain := alphanumeric_plain c kind
  exact ⟨plain.1, plain.2.2.1, plain.2.1⟩

theorem IsTrailing.isPlain {text : Text} (trailing : IsTrailing text) :
    IsPlain text := by
  apply isPlain_of_forall
  intro c member
  rcases trailing c member with start | rfl | rfl
  · have plain := (isParamStartChar_iff c).mp start
    exact ⟨plain.2.1, plain.2.2.2.1, plain.2.2.1⟩
  · decide
  · decide

theorem IsTagKey.isPlain {text : Text} (key : IsTagKey text) :
    IsPlain text := by
  apply isPlain_of_forall
  intro c member
  have plain := isTagKeyChar_plain c (key.2 c member)
  exact ⟨plain.1, plain.2.2.1, plain.2.1⟩

theorem IsTagValue.isPlain {text : Text} (value : IsTagValue text) :
    IsPlain text := by
  apply isPlain_of_forall
  intro c member
  have plain := value c member
  exact ⟨plain.1, plain.2.2.1, plain.2.1⟩

theorem HeaderFine.prefix_isPlain {platform : Platform} {message : Message}
    (header : HeaderFine platform message) : IsPlain message.prefixText := by
  rcases header.prefixText with empty | ⟨_, chars⟩
  · rw [empty]
    simp [IsPlain]
  · apply isPlain_of_forall
    intro c member
    have plain := isPrefixChar_plain c (chars c member)
    exact ⟨plain.1, plain.2.2.1, plain.2.1⟩

theorem Finished.plain {platform : Platform} {message : Message}
    (finished : Finished platform message) :
    ∀ part ∈ message.parts, IsPlain part := by
  intro part member
  simp only [Message.parts, List.mem_cons, List.mem_append,
    List.mem_flatMap, List.not_mem_nil, or_false] at member
  rcases member with rfl | rfl | isParam | ⟨tag, tagMem, rfl | rfl⟩
  · exact finished.prefix_isPlain
  · exact finished.command.isPlain
  · exact (finished.params part isParam).isPlain
  · exact (finished.tags tag tagMem).1.isPlain
  · exact (finished.tags tag tagMem).2.isPlain

theorem Finished.normalForm {platform : Platform} {message : Message}
    (finished : Finished platform message) : NormalForm platform message where
  command := finished.command
  middles := fun param member =>
    have middle := finished.middles param member
    ⟨middle.ne_nil, middle.no_space, middle.head_ne_colon⟩
  prefixText := finished.toHeaderFine.prefixText.imp id And.left
  tagKeys := fun tag member => (finished.tags tag member).1
  tagValues := fun tag member =>
    have value := (finished.tags tag member).2
    ⟨fun isIn => (value semicolon isIn).2.2.2.2 rfl,
      fun isIn => (value space isIn).2.2.2.1 rfl⟩
  plain := finished.plain

/-! ## The octets of a serialized message -/

theorem mem_tagsText {tags : List (Text × Text)} {c : Octet}
    (member : c ∈ tagsText tags) :
    c = semicolon ∨ c = equals ∨
      ∃ tag ∈ tags, c ∈ tag.1 ∨ c ∈ tag.2 := by
  have inTag (tag : Text × Text) (isIn : c ∈ tagText tag) :
      c = equals ∨ c ∈ tag.1 ∨ c ∈ tag.2 := by
    unfold tagText at isIn
    split at isIn
    · exact Or.inr (Or.inl isIn)
    · simpa [or_left_comm] using isIn
  induction tags with
  | nil => simp [tagsText] at member
  | cons tag tags ih =>
      rw [tagsText_cons, List.mem_append, List.mem_flatMap] at member
      rcases member with here | ⟨other, otherMem, there⟩
      · rcases inTag tag here with isEquals | part
        · exact Or.inr (Or.inl isEquals)
        · exact Or.inr (Or.inr ⟨tag, List.mem_cons_self, part⟩)
      · rcases List.mem_cons.mp there with isSemicolon | inOther
        · exact Or.inl isSemicolon
        · rcases inTag other inOther with isEquals | part
          · exact Or.inr (Or.inl isEquals)
          · exact Or.inr (Or.inr ⟨other, List.mem_cons_of_mem _ otherMem, part⟩)

theorem mem_paramsText {params : List Text} {c : Octet}
    (member : c ∈ paramsText params) :
    c = space ∨ c = colon ∨ ∃ param ∈ params, c ∈ param := by
  induction params using paramsText.induct with
  | case1 => simp [paramsText] at member
  | case2 param =>
      rw [paramsText, List.mem_cons, lastParamText] at member
      rcases member with isSpace | inLast
      · exact Or.inl isSpace
      · split at inLast
        · rcases List.mem_cons.mp inLast with isColon | inParam
          · exact Or.inr (Or.inl isColon)
          · exact Or.inr (Or.inr ⟨param, List.mem_singleton_self _, inParam⟩)
        · exact Or.inr (Or.inr ⟨param, List.mem_singleton_self _, inLast⟩)
  | case3 param params nonempty ih =>
      rw [paramsText, List.mem_append, List.mem_cons] at member
      · rcases member with (isSpace | inParam) | later
        · exact Or.inl isSpace
        · exact Or.inr (Or.inr ⟨param, List.mem_cons_self, inParam⟩)
        · rcases ih later with isSpace | isColon | ⟨other, otherMem, inOther⟩
          · exact Or.inl isSpace
          · exact Or.inr (Or.inl isColon)
          · exact Or.inr (Or.inr
              ⟨other, List.mem_cons_of_mem _ otherMem, inOther⟩)
      · exact nonempty

/-- Besides its punctuation, the body of a line has the octets of the parts of
the message. -/
theorem mem_wireBody {message : Message} {c : Octet}
    (member : c ∈ wireBody message) :
    c ∈ [space, colon, semicolon, equals, at_] ∨
      ∃ part ∈ message.parts, c ∈ part := by
  simp only [wireBody, List.mem_append] at member
  rcases member with ((inTags | inPrefix) | inCommand) | inParams
  · unfold tagSection at inTags
    split at inTags
    · simp at inTags
    · simp only [List.mem_append, List.mem_cons, List.not_mem_nil,
        or_false] at inTags
      rcases inTags with (rfl | inText) | rfl
      · exact Or.inl (by simp)
      · rcases mem_tagsText inText with rfl | rfl | ⟨tag, tagMem, isIn⟩
        · exact Or.inl (by simp)
        · exact Or.inl (by simp)
        · right
          rcases isIn with inKey | inValue
          · exact ⟨tag.1, by
              simp only [Message.parts, List.mem_cons, List.mem_append,
                List.mem_flatMap]
              exact Or.inr (Or.inr (Or.inr ⟨tag, tagMem, Or.inl rfl⟩)), inKey⟩
          · exact ⟨tag.2, by
              simp only [Message.parts, List.mem_cons, List.mem_append,
                List.mem_flatMap]
              exact Or.inr (Or.inr (Or.inr
                ⟨tag, tagMem, Or.inr (Or.inl rfl)⟩)), inValue⟩
      · exact Or.inl (by simp)
  · unfold prefixSection at inPrefix
    split at inPrefix
    · simp at inPrefix
    · simp only [List.mem_append, List.mem_cons, List.not_mem_nil,
        or_false] at inPrefix
      rcases inPrefix with (rfl | inText) | rfl
      · exact Or.inl (by simp)
      · exact Or.inr ⟨_, List.mem_cons_self, inText⟩
      · exact Or.inl (by simp)
  · exact Or.inr ⟨_, List.mem_cons_of_mem _ List.mem_cons_self, inCommand⟩
  · rcases mem_paramsText inParams with rfl | rfl | ⟨param, paramMem, isIn⟩
    · exact Or.inl (by simp)
    · exact Or.inl (by simp)
    · exact Or.inr ⟨param, by simp [Message.parts, paramMem], isIn⟩

theorem serializesToOneLine_of_plain {message : Message}
    (plain : ∀ part ∈ message.parts, IsPlain part) :
    SerializesToOneLine message := by
  intro buffer room
  refine ⟨wireBody message, buffer.drop (computeRequiredSpace message),
    ?_, ?_, ?_⟩
  · rw [writeToBuffer_eq, if_pos room]
    simp [computeRequiredSpace_eq, wire]
  · intro member
    rcases mem_wireBody member with punctuation | ⟨part, isPart, isIn⟩
    · exact absurd punctuation (by decide)
    · exact (plain part isPart).2.1 isIn
  · intro member
    rcases mem_wireBody member with punctuation | ⟨part, isPart, isIn⟩
    · exact absurd punctuation (by decide)
    · exact (plain part isPart).2.2 isIn

/-! ## Delivered messages -/

/-- The message of a completed line has been read up to its end. -/
theorem BetweenReads.finished {platform : Platform} {reader : Reader}
    (between : BetweenReads platform reader) (input : Octet)
    (completed : ((lineScanner platform).step reader input).2 = .complete) :
    Finished platform ((lineScanner platform).step reader input).1.message := by
  rcases stepped : (lineScanner platform).step reader input
    with ⟨next, verdict⟩
  rw [stepped] at completed
  obtain rfl : verdict = .complete := completed
  have consumed := consume_of_step stepped
  have kept := MessageParser.consume_fine between.fine input
  have atEnd := MessageParser.consume_complete consumed
  rw [consumed] at kept
  simp only [MessageParser.Consumed.Fine, ParserInvariant, atEnd] at kept
  exact kept

/-- Every message that the driven scanner emits has been read up to its end. -/
theorem finished_of_delivered (platform : Platform) (buffers : List Text) :
    ∀ message ∈ ((lineScanner platform).deliverAll {} buffers).2,
      Finished platform message :=
  (Scanner.deliverAll_invariant (betweenReads_start platform)
    (fun _ input between notDone => between.step input notDone)
    (fun _ input between completed => between.finished input completed)
    (betweenReads_start platform) buffers).2

/-- Every message that is notified on a connection, whatever octets its reads
bring, is in normal form and is serialized as one line. -/
theorem notified_normalForm (platform : Platform) (reads : List Read)
    (message : Message)
    (delivered : message ∈ (runReadLoop platform {} reads).notified) :
    NormalForm platform message ∧ SerializesToOneLine message := by
  rw [runReadLoop_notified] at delivered
  have finished := finished_of_delivered platform _ message delivered
  exact ⟨finished.normalForm, serializesToOneLine_of_plain finished.plain⟩

theorem notified_normalForm_torn :
    NormalForm plainPlatform
        { command := ascii "LIST", params := [ascii "xPING"] } ∧
      SerializesToOneLine
        { command := ascii "LIST", params := [ascii "xPING"] } :=
  notified_normalForm plainPlatform [tornRead, pingRead] _ (by
    rw [runReadLoop_notified]
    decide)

end Birch
