import Birch.AcceptedLines
import Birch.MessageRoundTrip

/-!
# The tags of an accepted line

The tag section of a line is a list of tags, separated by semicolons.  The
parser keeps the key of every tag, and of its value what stands before a second
`=`.
-/

namespace Birch

open Octet IncrementalScanner

/-- What stands between the `@` of a line and its first space. -/
def tagOctets (line : Text) : Text :=
  (line.drop 1).takeWhile (· != space)

/-- The tags of a list that are not empty. -/
def tagList (text : Text) : List Text :=
  (text.splitOn semicolon).filter fun tag => !tag.isEmpty

def tagKey (tag : Text) : Text :=
  tag.takeWhile (· != equals)

/-- All of the text after the first `=`. -/
def tagValue (tag : Text) : Text :=
  (tag.dropWhile (· != equals)).drop 1

def verbatimTag (tag : Text) : Text × Text :=
  (tagKey tag, tagValue tag)

/-- The tags are the ones of the line, in order, with all of their values. -/
def KeepsTags (line : Text) (message : Message) : Prop :=
  message.tags.entries = (tagList (tagOctets line)).map verbatimTag

/-! ## Lists of tags -/

theorem tagList_single {tag : Text} (nonempty : tag ≠ [])
    (single : semicolon ∉ tag) : tagList tag = [tag] := by
  rw [tagList, List.splitOn_eq_singleton single]
  simp [nonempty]

theorem tagList_append {tag : Text} (nonempty : tag ≠ [])
    (single : semicolon ∉ tag) (rest : Text) :
    tagList (tag ++ semicolon :: rest) = tag :: tagList rest := by
  rw [tagList, List.splitOn_append_cons_self_of_not_mem single]
  simp [nonempty, tagList]

theorem verbatimTag_key {key : Text} (noEquals : equals ∉ key) :
    verbatimTag key = (key, []) := by
  have plain : ∀ c ∈ key, (c != equals) = true := by
    intro c member
    simpa using fun equal : c = equals => noEquals (equal ▸ member)
  rw [verbatimTag, tagKey, tagValue, List.takeWhile_eq_self_iff.mpr plain,
    List.dropWhile_eq_nil_iff.mpr plain, List.drop_nil]

theorem verbatimTag_keyValue {key : Text} (noEquals : equals ∉ key)
    (value : Text) :
    verbatimTag (key ++ equals :: value) = (key, value) := by
  have plain : ∀ c ∈ key, (c != equals) = true := by
    intro c member
    simpa using fun equal : c = equals => noEquals (equal ▸ member)
  rw [verbatimTag, tagKey, tagValue, List.takeWhile_append_of_pos plain,
    List.dropWhile_append_of_pos plain]
  simp

theorem IsTagKey.no_semicolon {key : Text} (isKey : IsTagKey key) :
    semicolon ∉ key := by
  intro member
  exact (isTagKeyChar_plain semicolon (isKey.2 semicolon member)).2.2.2.2.1 rfl

/-- A buffered tag with a `=` is one tag of a list. -/
theorem keyValue_single {key value : Text} (isKey : IsTagKey key)
    (isValue : IsTagValue value) : semicolon ∉ key ++ equals :: value := by
  intro member
  rcases List.mem_append.mp member with inKey | behind
  · exact isKey.no_semicolon inKey
  · rcases List.mem_cons.mp behind with isEquals | inValue
    · exact absurd isEquals (by decide)
    · exact (isValue semicolon inValue).2.2.2.2 rfl

/-! ## Behind the tags -/

/-- The states behind the tag section. -/
def ParserState.behindTags : ParserState → Bool
  | .parseStateStart => false
  | .parseStateTagKey => false
  | .parseStateTagValue => false
  | _ => true

variable {platform : Platform} {next : ParserState} {buffer rest : Text}
  {message filled : Message} {c : Octet}

theorem consume_behindTags {parser : MessageParser}
    (behind : parser.state.behindTags = true) (platform : Platform)
    (message : Message) (c : Octet) :
    (parser.consume platform message c).1.state.behindTags = true ∧
      (parser.consume platform message c).2.1.tags = message.tags := by
  rcases parser with ⟨state, buffer⟩
  unfold MessageParser.consume MessageParser.consumeStart
    MessageParser.consumeTagKey MessageParser.consumeTagValue
    MessageParser.consumeAfterTags MessageParser.consumePrefix
    MessageParser.consumeCommandName MessageParser.consumeCommandNumber
    MessageParser.consumeParamStart MessageParser.consumeParam
    MessageParser.consumeTrailing MessageParser.consumeCr
    MessageParser.consumeCommandStart MessageParser.push
    Message.setPrefix Message.setCommand Message.addParam
  grind [ParserState.behindTags]

theorem tags_of_accepts {reader final : Reader} {text : Text}
    (behind : reader.parser.state.behindTags = true)
    (accepted : (lineScanner platform).Accepts reader text final) :
    final.message.tags = reader.message.tags := by
  induction text generalizing reader with
  | nil => exact absurd accepted (Scanner.not_accepts_nil _ _)
  | cons c text ih =>
      have kept := consume_behindTags behind platform reader.message c
      rcases Scanner.accepts_cons accepted with ⟨_, last⟩ | ⟨next, head, tail⟩
      · rw [consume_of_step last] at kept
        exact kept.2
      · rw [consume_of_step head] at kept
        rw [ih kept.1 tail, kept.2]

/-! ## The octets of the tags -/

/-- What an octet of a key does: it is buffered, or it ends the tags. -/
theorem consume_tagKey
    (step : MessageParser.consume platform ⟨.parseStateTagKey, buffer⟩
      message c = (⟨next, rest⟩, filled, .incomplete)) :
    ((next = .parseStateTagKey ∨ next = .parseStateTagValue) ∧ c ≠ space ∧
        rest = buffer ++ [c] ∧ filled = message) ∨
      (c = space ∧ next = .parseStateAfterTags ∧
        filled = if buffer = [] then message
          else message.addTagMoved buffer []) := by
  simp only [MessageParser.consume, MessageParser.consumeTagKey,
    MessageParser.push] at step
  split at step
  · simp at step
  · split at step
    · rename_i keyChar
      obtain ⟨rfl, rfl, rfl⟩ := incomplete_inj step
      exact Or.inl ⟨Or.inl rfl, (isTagKeyChar_plain c keyChar).2.2.2.1, rfl, rfl⟩
    · split at step
      · rename_i isEquals
        obtain rfl := beq_iff_eq.mp isEquals
        split at step
        · simp at step
        · obtain ⟨rfl, rfl, rfl⟩ := incomplete_inj step
          exact Or.inl ⟨Or.inr rfl, by decide, rfl, rfl⟩
      · split at step
        · rename_i isSpace
          obtain rfl := beq_iff_eq.mp isSpace
          split at step
          · rename_i empty
            obtain ⟨rfl, _, rfl⟩ := incomplete_inj step
            exact Or.inr ⟨rfl, rfl, by simp [List.isEmpty_iff.mp empty]⟩
          · rename_i nonempty
            obtain ⟨rfl, _, rfl⟩ := incomplete_inj step
            exact Or.inr ⟨rfl, rfl, by simp [show buffer ≠ [] by simpa using nonempty]⟩
        · simp at step

/-- What an octet of a value does: it is buffered, it ends the tag, or it ends
the tags. -/
theorem consume_tagValue
    (step : MessageParser.consume platform ⟨.parseStateTagValue, buffer⟩
      message c = (⟨next, rest⟩, filled, .incomplete)) :
    (next = .parseStateTagValue ∧ c ≠ space ∧ rest = buffer ++ [c] ∧
        filled = message) ∨
      ((c = semicolon ∧ next = .parseStateTagKey ∧ rest = [] ∨
          c = space ∧ next = .parseStateAfterTags) ∧
        filled = message.addTag (splitTag buffer).1 (splitTag buffer).2) := by
  simp only [MessageParser.consume, MessageParser.consumeTagValue,
    MessageParser.push] at step
  split at step
  · simp at step
  · split at step
    · rename_i isSpace
      obtain rfl := beq_iff_eq.mp isSpace
      obtain ⟨rfl, _, rfl⟩ := incomplete_inj step
      exact Or.inr ⟨Or.inr ⟨rfl, rfl⟩, rfl⟩
    · rename_i notSpace
      split at step
      · rename_i isSemicolon
        obtain rfl := beq_iff_eq.mp isSemicolon
        obtain ⟨rfl, rfl, rfl⟩ := incomplete_inj step
        exact Or.inr ⟨Or.inl ⟨rfl, rfl, rfl⟩, rfl⟩
      · split at step
        · obtain ⟨rfl, rfl, rfl⟩ := incomplete_inj step
          exact Or.inl ⟨rfl, by simpa using notSpace, rfl, rfl⟩
        · simp at step

/-- What the parser keeps of a tag. -/
def readTag (tag : Text) : Text × Text :=
  keptTag (verbatimTag tag)

/-- The tags are added behind the ones of the message, if no key is there
twice. -/
def AddsTags (message : Message) (tags : List Text) (final : Message) : Prop :=
  (message.tags.keys ++ tags.map tagKey).Nodup →
    final.tags.entries = message.tags.entries ++ tags.map readTag

theorem addsTags_nil {final : Message} (same : final.tags = message.tags) :
    AddsTags message [] final := by
  intro _
  simp [same]

theorem AddsTags.cons {final : Message} {tag : Text} {tags : List Text}
    (added : tagKey tag ∉ message.tags.keys →
      filled.tags.entries = message.tags.entries ++ [readTag tag])
    (later : AddsTags filled tags final) :
    AddsTags message (tag :: tags) final := by
  intro distinct
  have absent : tagKey tag ∉ message.tags.keys := by
    intro present
    rw [List.map_cons, List.nodup_append] at distinct
    exact distinct.2.2 _ present _ List.mem_cons_self rfl
  have keysEq : filled.tags.keys = message.tags.keys ++ [tagKey tag] := by
    rw [LinkedHashMap.keys, added absent, List.map_append, ← LinkedHashMap.keys]
    rfl
  rw [later (by rw [keysEq]; simpa using distinct), added absent]
  simp

/-- A buffered key at the end of the tags. -/
theorem addsTags_key {final : Message}
    (keyChars : ∀ c ∈ buffer, isTagKeyChar c = true)
    (filledEq : filled = if buffer = [] then message
      else message.addTagMoved buffer [])
    (same : final.tags = filled.tags) :
    AddsTags message (tagList buffer) final := by
  by_cases empty : buffer = []
  · subst empty
    rw [if_pos rfl] at filledEq
    exact addsTags_nil (by rw [same, filledEq])
  · have isKey : IsTagKey buffer := ⟨empty, keyChars⟩
    have verbatim := verbatimTag_key isKey.no_equals
    have keyEq : tagKey buffer = buffer := congrArg Prod.fst verbatim
    have readEq : readTag buffer = (buffer, []) := by
      rw [readTag, verbatim]
      rfl
    rw [if_neg empty] at filledEq
    rw [tagList_single empty isKey.no_semicolon]
    refine .cons (fun absent => ?_) (addsTags_nil same)
    rw [keyEq] at absent
    rw [filledEq, readEq]
    exact LinkedHashMap.entries_emplace_of_absent absent []

/-- A buffered tag with a `=`, at its end. -/
theorem entries_addTag {key value : Text} (isKey : IsTagKey key)
    (bufferEq : buffer = key ++ equals :: value)
    (filledEq : filled = message.addTag (splitTag buffer).1 (splitTag buffer).2)
    (absent : tagKey buffer ∉ message.tags.keys) :
    filled.tags.entries = message.tags.entries ++ [readTag buffer] := by
  have verbatim := verbatimTag_keyValue isKey.no_equals value
  have keyEq : tagKey buffer = key := by
    rw [bufferEq]
    exact congrArg Prod.fst verbatim
  have readEq : readTag buffer = (key, keptValue value) := by
    rw [readTag, bufferEq, verbatim]
    rfl
  rw [bufferEq, splitTag_eq isKey.no_equals] at filledEq
  rw [keyEq] at absent
  rw [filledEq, readEq]
  exact LinkedHashMap.entries_assign_of_absent absent _

/-- The tag section, by induction on the line: the buffer is the part of a tag
that has been read. -/
theorem accepts_addsTags {reader final : Reader} {text : Text}
    (fine : ParserInvariant platform reader.parser reader.message)
    (inTags : reader.parser.state = .parseStateTagKey ∨
      reader.parser.state = .parseStateTagValue)
    (accepted : (lineScanner platform).Accepts reader text final) :
    AddsTags reader.message
      (tagList (reader.parser.buffer ++ text.takeWhile (· != space)))
      final.message := by
  induction text generalizing reader with
  | nil => exact absurd accepted (Scanner.not_accepts_nil _ _)
  | cons c text ih =>
      rcases reader with ⟨⟨state, buffer⟩, message⟩
      rcases Scanner.accepts_cons accepted with ⟨_, last⟩ | ⟨next, head, tail⟩
      · have notComplete : state ≠ .parseStateComplete := by
          rcases inTags with rfl | rfl <;> decide
        obtain ⟨rfl, _⟩ := consume_completes notComplete (consume_of_step last)
        rcases inTags with atCr | atCr <;> cases atCr
      · rcases next with ⟨⟨nextState, rest⟩, filled⟩
        have nextFine := MessageParser.consume_fine fine c
        rw [MessageParser.Consumed.Fine, consume_of_step head] at nextFine
        have buffered (notSpace : c ≠ space) : buffer ++ [c] ++
            text.takeWhile (· != space) =
              buffer ++ (c :: text).takeWhile (· != space) := by
          simp [notSpace]
        rcases inTags with rfl | rfl
        · rcases consume_tagKey (consume_of_step head) with
            ⟨nextInTags, notSpace, rfl, rfl⟩ | ⟨rfl, rfl, filledEq⟩
          · have later := ih nextFine nextInTags tail
            rwa [buffered notSpace] at later
          · have ended := addsTags_key fine.2 filledEq (tags_of_accepts rfl tail)
            simpa using ended
        · obtain ⟨_, key, value, bufferEq, isKey, isValue⟩ := fine
          replace bufferEq : buffer = key ++ equals :: value := bufferEq
          have nonempty : buffer ≠ [] := by
            simp [bufferEq]
          have single : semicolon ∉ buffer := by
            rw [bufferEq]
            exact keyValue_single isKey isValue
          rcases consume_tagValue (consume_of_step head) with
            ⟨rfl, notSpace, rfl, rfl⟩ | ⟨ends, filledEq⟩
          · have later := ih nextFine (Or.inr rfl) tail
            rwa [buffered notSpace] at later
          · have added := entries_addTag isKey bufferEq filledEq
            rcases ends with ⟨rfl, rfl, rfl⟩ | ⟨rfl, rfl⟩
            · have later := ih nextFine (Or.inl rfl) tail
              have listEq : tagList (buffer ++
                  (semicolon :: text).takeWhile (· != space)) =
                    buffer :: tagList (text.takeWhile (· != space)) :=
                tagList_append nonempty single _
              rw [listEq]
              exact .cons added later
            · have ended := addsTags_nil (tags_of_accepts rfl tail)
              have listEq : tagList (buffer ++
                  (space :: text).takeWhile (· != space)) = [buffer] := by
                simpa using tagList_single nonempty single
              rw [listEq]
              exact .cons added ended

/-- The tags of an accepted line, as the parser keeps them. -/
theorem entries_of_parsesTo {line : Text}
    (tagged : line.head? = some at_) (parsed : ParsesTo platform line message)
    (distinct : ((tagList (tagOctets line)).map tagKey).Nodup) :
    message.tags.entries = (tagList (tagOctets line)).map readTag := by
  obtain ⟨parser, accepted⟩ := (parsesTo_iff_accepts _ _ _).mp parsed
  cases line with
  | nil => cases tagged
  | cons first rest =>
      obtain rfl := Option.some.inj tagged
      rcases Scanner.accepts_cons accepted with ⟨_, last⟩ | ⟨next, head, tail⟩
      · cases last
      · obtain rfl := (Prod.mk.inj head).1
        have fine : ParserInvariant platform ⟨.parseStateTagKey, []⟩ {} :=
          ⟨tagged_empty platform, by simp⟩
        exact accepts_addsTags fine (Or.inl rfl) tail distinct

/-- The tags of an accepted line are kept exactly when no value has a `=` in
it. -/
theorem keepsTags_iff_no_equals (platform : Platform) (line : Text)
    (message : Message) (tagged : line.head? = some at_)
    (parsed : ParsesTo platform line message)
    (distinct : ((tagList (tagOctets line)).map tagKey).Nodup) :
    KeepsTags line message ↔
      ∀ tag ∈ tagList (tagOctets line), equals ∉ tagValue tag := by
  have entriesEq := entries_of_parsesTo tagged parsed distinct
  have each := map_keptTag_eq_iff ((tagList (tagOctets line)).map verbatimTag)
  rw [List.map_map] at each
  rw [KeepsTags, entriesEq]
  refine each.trans ?_
  simp [verbatimTag]

/-- A tag with a value, one with an empty value, and one with a key only. -/
def threeTagsLine : Text :=
  ascii "@time=noon;msgid=;+draft LIST\r\n"

def threeTags : Message where
  command := ascii "LIST"
  tags := ⟨[(ascii "time", ascii "noon"), (ascii "msgid", []),
    (ascii "+draft", [])], by decide⟩

theorem keepsTags_threeTags :
    KeepsTags threeTagsLine threeTags ↔
      ∀ tag ∈ tagList (tagOctets threeTagsLine), equals ∉ tagValue tag :=
  keepsTags_iff_no_equals plainPlatform _ _ rfl ⟨_, rfl⟩ (by decide)

/-- A value in base64, with padding. -/
def paddedLine : Text :=
  ascii "@sasl=dXNlcg== LIST\r\n"

def unpadded : Message where
  command := ascii "LIST"
  tags := ⟨[(ascii "sasl", ascii "dXNlcg")], by decide⟩

/-- The padding is lost. -/
theorem not_keepsTags_padded :
    ParsesTo plainPlatform paddedLine unpadded ∧
      tagList (tagOctets paddedLine) = [ascii "sasl=dXNlcg=="] ∧
      ¬ KeepsTags paddedLine unpadded := by
  refine ⟨⟨_, rfl⟩, by decide, ?_⟩
  unfold KeepsTags
  decide

end Birch
