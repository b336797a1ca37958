import Birch.MessageParserRuns
import Birch.MessageSerializer
import Mathlib.Data.List.TakeWhile

/-!
# Reading back serialized messages

What `WriteToBuffer` writes is read back by a fresh parser.  The prefix, the
command and the parameters are recovered whenever they can be sent at all; the
tags are recovered unless a value has a `=` in it or a tag without a value is
followed by another tag.
-/

namespace Birch

open Octet IncrementalScanner

/-- The octets that a call of `WriteToBuffer` has written. -/
theorem exists_written {buffer : Text} {message : Message}
    (room : computeRequiredSpace message ≤ buffer.length) :
    ∃ written size, writeToBuffer buffer message = some (written, size) ∧
      written.take size = wire message := by
  refine ⟨_, _, by rw [writeToBuffer_eq, if_pos room], ?_⟩
  rw [computeRequiredSpace_eq]
  exact List.take_left' rfl

/-! ## Prefix, command and parameters -/

/-- An untagged message whose parts can be sent in a line. -/
structure Sendable (platform : Platform) (message : Message) : Prop where
  noTags : message.tags.entries = []
  prefixText : message.prefixText = [] ∨
    ((∀ c ∈ message.prefixText, isPrefixChar c = true) ∧
      isValidPrefix platform message.prefixText = true)
  command : IsCommand message.command
  octets : ∀ param ∈ message.params, ∀ c ∈ param,
    0x01 ≤ c.toNat ∧ c.toNat ≤ 0x7F ∧ c ≠ cr ∧ c ≠ lf
  middles : ∀ param ∈ message.params.dropLast,
    param ≠ [] ∧ space ∉ param ∧ param.head? ≠ some colon

theorem paramsText_concat (params : List Text) (last : Text) :
    paramsText (params ++ [last]) =
      space :: (params.flatMap fun param => param ++ [space]) ++
        lastParamText last := by
  induction params with
  | nil => rfl
  | cons param params ih =>
      have nonempty : params ++ [last] ≠ [] := by simp
      rw [List.cons_append, paramsText, ih]
      · simp
      · exact nonempty

theorem isTrailing_of_octets {param : Text}
    (octets : ∀ c ∈ param,
      0x01 ≤ c.toNat ∧ c.toNat ≤ 0x7F ∧ c ≠ cr ∧ c ≠ lf) :
    IsTrailing param := by
  intro c member
  obtain ⟨low, high, notCr, notLf⟩ := octets c member
  by_cases isColon : c = colon
  · exact Or.inr (Or.inl isColon)
  by_cases isSpace : c = space
  · exact Or.inr (Or.inr isSpace)
  left
  refine (isParamStartChar_iff c).mpr
    ⟨by omega, ?_, notLf, notCr, isSpace, isColon⟩
  rintro rfl
  exact absurd low (by decide)

/-- A trailing text that needs no marker is a middle parameter. -/
theorem IsTrailing.isMiddle {param : Text} (trailing : IsTrailing param)
    (nonempty : param ≠ []) (noSpace : space ∉ param)
    (noColon : param.head? ≠ some colon) : IsMiddle param := by
  cases param with
  | nil => exact absurd rfl nonempty
  | cons first rest =>
      refine ⟨?_, ?_⟩
      · rcases trailing first List.mem_cons_self with start | rfl | rfl
        · exact start
        · exact absurd rfl noColon
        · exact absurd List.mem_cons_self noSpace
      · intro c member
        rcases trailing c (List.mem_cons_of_mem _ member) with start | colon | rfl
        · exact Or.inl start
        · exact Or.inr colon
        · exact absurd (List.mem_cons_of_mem _ member) noSpace

/-- The serializer marks a last parameter just when the parser needs it. -/
theorem isMiddle_of_unmarked {param : Text} (trailing : IsTrailing param)
    (unmarked : requiresTrailingMarker param = false) : IsMiddle param := by
  simp only [requiresTrailingMarker, Bool.or_eq_false_iff] at unmarked
  obtain ⟨⟨notEmpty, noColon⟩, noSpace⟩ := unmarked
  apply trailing.isMiddle
  · simpa using notEmpty
  · simpa using noSpace
  · simpa using noColon

variable {platform : Platform}

theorem advance_lastParam (platform : Platform) {param : Text} (trailing : IsTrailing param)
    (message : Message) :
    ∃ buffer, (lineScanner platform).advance
        (reading .parseStateParamStart [] message)
        (lastParamText param ++ [cr]) =
      some (reading .parseStateCr buffer (message.addParam param)) := by
  unfold lastParamText
  by_cases marked : requiresTrailingMarker param = true
  · rw [if_pos marked]
    exact ⟨_, advance_trailing platform trailing message⟩
  · rw [if_neg marked]
    have middle := isMiddle_of_unmarked trailing (by simpa using marked)
    exact ⟨_, advance_middle platform middle message (Or.inr rfl)⟩

/-- The run over a command and its parameters. -/
theorem advance_commandLine {state : ParserState} (begins : BeginsCommand state)
    {command : Text} (isCommand : IsCommand command) {params : List Text}
    (trailing : ∀ param ∈ params, IsTrailing param)
    (middles : ∀ param ∈ params.dropLast, IsMiddle param)
    (message : Message) :
    ∃ buffer, (lineScanner platform).advance (reading state [] message)
        (command ++ paramsText params ++ [cr]) =
      some (reading .parseStateCr buffer
        ((message.setCommand command).addParams params)) := by
  rcases List.eq_nil_or_concat' params with rfl | ⟨inits, last, rfl⟩
  · refine ⟨[], ?_⟩
    rw [Message.addParams_nil, paramsText, List.append_nil]
    exact advance_command platform begins isCommand message (Or.inr rfl)
  · rw [List.dropLast_concat] at middles
    have head := advance_command platform begins isCommand message (Or.inl rfl)
    have middle := advance_middles platform middles (message.setCommand command)
    obtain ⟨buffer, tail⟩ := advance_lastParam platform
      (trailing last (by simp)) ((message.setCommand command).addParams inits)
    refine ⟨buffer, ?_⟩
    have run := Scanner.advance_trans (Scanner.advance_trans head middle) tail
    simpa [paramsText_concat, Message.addParam, Message.addParams] using run

theorem Sendable.trailing {message : Message}
    (sendable : Sendable platform message) :
    ∀ param ∈ message.params, IsTrailing param :=
  fun param member => isTrailing_of_octets (sendable.octets param member)

theorem Sendable.isMiddle {message : Message}
    (sendable : Sendable platform message) :
    ∀ param ∈ message.params.dropLast, IsMiddle param := by
  intro param member
  obtain ⟨nonempty, noSpace, noColon⟩ := sendable.middles param member
  exact (sendable.trailing param (List.dropLast_subset _ member)).isMiddle
    nonempty noSpace noColon

/-- A sendable message is read back from its text. -/
theorem Sendable.parsesTo {message : Message}
    (sendable : Sendable platform message) :
    ParsesTo platform (wire message) message := by
  have trailing := sendable.trailing
  have middles := sendable.isMiddle
  rcases message with ⟨prefixText, command, params, tags⟩
  have noTags : tags = ∅ := LinkedHashMap.ext sendable.noTags
  subst noTags
  rcases sendable.prefixText with noPrefix | ⟨chars, valid⟩
  · simp only at noPrefix
    subst noPrefix
    obtain ⟨buffer, run⟩ := advance_commandLine (Or.inl rfl) sendable.command
      trailing middles {}
    have parsed := parsesTo_of_advance platform run
    simpa [wire, wireBody, tagSection, prefixSection, Message.setCommand,
      Message.addParams] using parsed
  · have nonempty : prefixText ≠ [] := by
      rintro rfl
      exact absurd valid (by simp [isValidPrefix, isValidHostname, prefixScanLoop])
    have head : (lineScanner platform).advance {} (colon :: prefixText ++ [space]) =
        some (reading .parseStateCommandNameOrNumber []
          (Message.setPrefix {} prefixText)) :=
      Scanner.advance_cons rfl (advance_prefixText platform chars valid {})
    obtain ⟨buffer, tail⟩ := advance_commandLine (Or.inr (Or.inr rfl))
      sendable.command trailing middles (Message.setPrefix {} prefixText)
    have parsed := parsesTo_of_advance platform (Scanner.advance_trans head tail)
    simpa [wire, wireBody, tagSection, prefixSection, nonempty,
      Message.setPrefix, Message.setCommand, Message.addParams] using parsed

/-- A fresh parser reads back, on the last octet that was written, the prefix,
the command and the parameters of every sendable message. -/
theorem parsesTo_written (platform : Platform) (message : Message)
    (sendable : Sendable platform message) (buffer : Text)
    (room : computeRequiredSpace message ≤ buffer.length) :
    ∃ written size, writeToBuffer buffer message = some (written, size) ∧
      ParsesTo platform (written.take size) message := by
  obtain ⟨written, size, wrote, taken⟩ := exists_written room
  refine ⟨written, size, wrote, ?_⟩
  rw [taken]
  exact sendable.parsesTo

/-- A message with all the parts that `Sendable` allows. -/
def greeting : Message where
  prefixText := ascii "ben!u@host"
  command := ascii "PRIVMSG"
  params := [ascii "#c", ascii "hi :there"]

theorem sendable_greeting : Sendable plainPlatform greeting where
  noTags := rfl
  prefixText := Or.inr (by decide)
  command := Or.inl (by decide)
  octets := by decide
  middles := by decide

theorem parsesTo_written_greeting :
    ∃ written size, writeToBuffer (List.replicate 64 nul) greeting =
        some (written, size) ∧
      ParsesTo plainPlatform (written.take size) greeting :=
  parsesTo_written plainPlatform greeting sendable_greeting
    (List.replicate 64 nul) (by decide)

/-! ## Tags -/

/-- A message that consists of tags and a command. -/
structure TagMessage (message : Message) : Prop where
  command : ∀ c ∈ message.command, isLetter c = true
  noPrefix : message.prefixText = []
  noParams : message.params = []
  tagged : message.tags.entries ≠ []
  keys : ∀ tag ∈ message.tags.entries, IsTagKey tag.1
  values : ∀ tag ∈ message.tags.entries, IsTagValue tag.2

/-- The octets that are written for a message are a line, and its tags have the
same keys and values in the same order. -/
def RoundTripsTags (platform : Platform) (message : Message) : Prop :=
  ∀ buffer : Text, computeRequiredSpace message ≤ buffer.length →
    ∃ written size result, writeToBuffer buffer message = some (written, size) ∧
      ParsesTo platform (written.take size) result ∧
      result.tags.entries = message.tags.entries

theorem roundTripsTags_iff (platform : Platform) (message : Message) :
    RoundTripsTags platform message ↔
      ∃ result, ParsesTo platform (wire message) result ∧
        result.tags.entries = message.tags.entries := by
  constructor
  · intro roundTrips
    have room : computeRequiredSpace message ≤
        (List.replicate (computeRequiredSpace message) nul).length := by simp
    obtain ⟨written, size, wrote, taken⟩ := exists_written room
    obtain ⟨written', size', result, wrote', parsed, tagsEq⟩ :=
      roundTrips _ room
    rw [wrote, Option.some.injEq, Prod.mk.injEq] at wrote'
    rw [← wrote'.1, ← wrote'.2, taken] at parsed
    exact ⟨result, parsed, tagsEq⟩
  · rintro ⟨result, parsed, tagsEq⟩ buffer room
    obtain ⟨written, size, wrote, taken⟩ := exists_written room
    exact ⟨written, size, result, wrote, by rwa [taken], tagsEq⟩

theorem ParsesTo.unique {line : Text} {first second : Message}
    (one : ParsesTo platform line first)
    (other : ParsesTo platform line second) : first = second := by
  obtain ⟨_, one⟩ := (parsesTo_iff_accepts _ _ _).mp one
  obtain ⟨_, other⟩ := (parsesTo_iff_accepts _ _ _).mp other
  exact congrArg Reader.message (one.unique other)

/-- The tag that the parser keeps of a serialized one. -/
def keptTag (tag : Text × Text) : Text × Text :=
  (tag.1, keptValue tag.2)

theorem keptValue_eq_iff (value : Text) :
    keptValue value = value ↔ equals ∉ value := by
  rw [keptValue, List.takeWhile_eq_self_iff]
  constructor
  · intro all member
    simpa using all equals member
  · intro absent c member
    simpa using fun equal : c = equals => absent (equal ▸ member)

theorem map_keptTag_eq_iff (tags : List (Text × Text)) :
    tags.map keptTag = tags ↔ ∀ tag ∈ tags, equals ∉ tag.2 := by
  have each : ∀ tag : Text × Text, keptTag tag = tag ↔ equals ∉ tag.2 := by
    intro tag
    rw [← keptValue_eq_iff, keptTag, Prod.ext_iff]
    simp
  rw [← List.map_id tags, List.map_map, List.map_inj_left]
  simp only [Function.comp_apply, id_eq, each, List.map_id]

theorem tagText_of_value {tag : Text × Text} (valued : tag.2 ≠ []) :
    tagText tag = tag.1 ++ equals :: tag.2 := by
  simp [tagText, valued]

theorem tagText_of_empty {tag : Text × Text} (bare : tag.2 = []) :
    tagText tag = tag.1 := by
  simp [tagText, bare]

/-- A tag with a value and the semicolon behind it. -/
theorem advance_tag_semicolon (platform : Platform) {tag : Text × Text} (isKey : IsTagKey tag.1)
    (isValue : IsTagValue tag.2) (valued : tag.2 ≠ []) (message : Message) :
    (lineScanner platform).advance (reading .parseStateTagKey [] message)
        (tagText tag ++ [semicolon]) =
      some (reading .parseStateTagKey []
        (message.addTag tag.1 (keptValue tag.2))) := by
  rw [tagText_of_value valued]
  exact Scanner.advance_trans (advance_tag platform isKey isValue message)
    (advance_single platform (step_tagValue_semicolon platform isKey message))

/-- The last tag and the space behind it. -/
theorem advance_tag_space {tag : Text × Text} (isKey : IsTagKey tag.1)
    (isValue : IsTagValue tag.2) (message : Message)
    (absent : tag.1 ∉ message.tags.keys) :
    ∃ filled, (lineScanner platform).advance
        (reading .parseStateTagKey [] message) (tagText tag ++ [space]) =
        some (reading .parseStateAfterTags [] filled) ∧
      filled.tags.entries = message.tags.entries ++ [keptTag tag] := by
  by_cases bare : tag.2 = []
  · refine ⟨message.addTagMoved tag.1 [], ?_, ?_⟩
    · rw [tagText_of_empty bare]
      exact advance_bareTag_space platform isKey message
    · have keptEq : keptTag tag = (tag.1, []) := by
        simp [keptTag, keptValue, bare]
      rw [keptEq]
      exact LinkedHashMap.entries_emplace_of_absent absent []
  · refine ⟨message.addTag tag.1 (keptValue tag.2), ?_, ?_⟩
    · rw [tagText_of_value bare]
      exact Scanner.advance_trans (advance_tag platform isKey isValue message)
        (advance_single platform (step_tagValue_space platform isKey message))
    · exact LinkedHashMap.entries_assign_of_absent absent _

/-- In a list of distinct keys, the next one is not among those read. -/
theorem next_absent {message : Message} {tag : Text × Text}
    {tags : List (Text × Text)}
    (distinct : ((message.tags.entries ++ tag :: tags).map Prod.fst).Nodup) :
    tag.1 ∉ message.tags.keys := by
  rw [List.map_append, List.nodup_append] at distinct
  intro present
  exact distinct.2.2 tag.1 present tag.1 (by simp) rfl

/-- The run over the tags, by induction on their list: each one that is not the
last has a value, and leads back to the state that begins a tag. -/
theorem advance_tagsText {tags : List (Text × Text)} (nonempty : tags ≠ [])
    (keys : ∀ tag ∈ tags, IsTagKey tag.1)
    (values : ∀ tag ∈ tags, IsTagValue tag.2)
    (valued : ∀ tag ∈ tags.dropLast, tag.2 ≠ []) (message : Message)
    (distinct : ((message.tags.entries ++ tags).map Prod.fst).Nodup) :
    ∃ filled, (lineScanner platform).advance
        (reading .parseStateTagKey [] message) (tagsText tags ++ [space]) =
        some (reading .parseStateAfterTags [] filled) ∧
      filled.tags.entries = message.tags.entries ++ tags.map keptTag := by
  induction tags using tagsText.induct generalizing message with
  | case1 => exact absurd rfl nonempty
  | case2 tag =>
      exact advance_tag_space (keys tag (by simp)) (values tag (by simp))
        message (next_absent distinct)
  | case3 tag tags notLast ih =>
      have tagsNonempty : tags ≠ [] := fun empty => notLast empty
      rw [List.dropLast_cons_of_ne_nil tagsNonempty] at valued
      obtain ⟨isKey, laterKeys⟩ := List.forall_mem_cons.mp keys
      obtain ⟨isValue, laterValues⟩ := List.forall_mem_cons.mp values
      obtain ⟨hasValue, laterValued⟩ := List.forall_mem_cons.mp valued
      have entriesEq : (message.addTag tag.1 (keptValue tag.2)).tags.entries =
          message.tags.entries ++ [keptTag tag] :=
        LinkedHashMap.entries_assign_of_absent (next_absent distinct) _
      have head :=
        advance_tag_semicolon platform isKey isValue hasValue message
      obtain ⟨filled, tail, filledEq⟩ := ih tagsNonempty laterKeys laterValues
        laterValued (message.addTag tag.1 (keptValue tag.2))
        (by simpa [entriesEq, keptTag] using distinct)
      refine ⟨filled, ?_, by simp [filledEq, entriesEq]⟩
      have run := Scanner.advance_trans head tail
      rw [tagsText]
      · simpa using run
      · exact notLast

/-- A tag without a value that is not the last one stops the run. -/
theorem advance_tagsText_stuck (platform : Platform) {tags : List (Text × Text)}
    (keys : ∀ tag ∈ tags, IsTagKey tag.1)
    (values : ∀ tag ∈ tags, IsTagValue tag.2)
    {bare : Text × Text} (isBare : bare.2 = []) (inner : bare ∈ tags.dropLast)
    (message : Message) (rest : Text) :
    (lineScanner platform).advance (reading .parseStateTagKey [] message)
      (tagsText tags ++ rest) = none := by
  induction tags using tagsText.induct generalizing message with
  | case1 => simp at inner
  | case2 tag => simp at inner
  | case3 tag tags notLast ih =>
      have tagsNonempty : tags ≠ [] := fun empty => notLast empty
      rw [List.dropLast_cons_of_ne_nil tagsNonempty, List.mem_cons] at inner
      obtain ⟨isKey, laterKeys⟩ := List.forall_mem_cons.mp keys
      obtain ⟨isValue, laterValues⟩ := List.forall_mem_cons.mp values
      rw [tagsText]
      · by_cases valued : tag.2 = []
        · rw [tagText_of_empty valued, List.append_assoc, List.cons_append]
          exact advance_bareTag_semicolon platform isKey message _
        · have head :=
            advance_tag_semicolon platform isKey isValue valued message
          have later : bare ∈ tags.dropLast := by
            rcases inner with rfl | later
            · exact absurd isBare valued
            · exact later
          have stuck := ih laterKeys laterValues later
            (message.addTag tag.1 (keptValue tag.2))
          rw [show tagText tag ++ semicolon :: tagsText tags ++ rest =
            (tagText tag ++ [semicolon]) ++ (tagsText tags ++ rest) by simp,
            Scanner.advance_append, head, Option.bind_some, stuck]
      · exact notLast

/-! ## Tags and a command -/

theorem TagMessage.wire_eq {message : Message} (tagMessage : TagMessage message) :
    wire message = [at_] ++ (tagsText message.tags.entries ++ [space]) ++
      (message.command ++ [cr]) ++ [lf] := by
  simp [wire, wireBody, tagSection, prefixSection, paramsText,
    tagMessage.noPrefix, tagMessage.noParams, tagMessage.tagged]

theorem advance_at (platform : Platform) :
    (lineScanner platform).advance {} [at_] =
      some (reading .parseStateTagKey [] {}) :=
  rfl

/-- The run over the tag section of a message. -/
theorem TagMessage.advance_tagSection (platform : Platform) {message : Message}
    (tagMessage : TagMessage message)
    (valued : ∀ tag ∈ message.tags.entries.dropLast, tag.2 ≠ []) :
    ∃ filled, (lineScanner platform).advance {}
        ([at_] ++ (tagsText message.tags.entries ++ [space])) =
        some (reading .parseStateAfterTags [] filled) ∧
      filled.tags.entries = message.tags.entries.map keptTag := by
  obtain ⟨filled, run, filledEq⟩ := advance_tagsText tagMessage.tagged
    tagMessage.keys tagMessage.values valued {} message.tags.nodupKeys
  refine ⟨filled, Scanner.advance_trans (advance_at platform) run, ?_⟩
  rw [filledEq]
  rfl

/-- With a value for every tag but the last, the line is read, and each value
is cut off at its first `=`. -/
theorem TagMessage.parsesTo_kept (platform : Platform) {message : Message}
    (tagMessage : TagMessage message) (named : message.command ≠ [])
    (valued : ∀ tag ∈ message.tags.entries.dropLast, tag.2 ≠ []) :
    ∃ result, ParsesTo platform (wire message) result ∧
      result.tags.entries = message.tags.entries.map keptTag := by
  obtain ⟨filled, tagRun, filledEq⟩ :=
    tagMessage.advance_tagSection platform valued
  have commandRun := advance_command platform (Or.inr (Or.inl rfl))
    (Or.inl ⟨named, tagMessage.command⟩) filled (Or.inr rfl)
  refine ⟨filled.setCommand message.command, ?_, filledEq⟩
  rw [tagMessage.wire_eq]
  exact parsesTo_of_advance platform (Scanner.advance_trans tagRun commandRun)

/-- A line that stops before its line feed is not read. -/
theorem not_parsesTo_of_stuck {text : Text}
    (stuck : (lineScanner platform).advance {} text = none) (message : Message) :
    ¬ ParsesTo platform (text ++ [lf]) message := by
  rw [parsesTo_iff_accepts]
  rintro ⟨parser, accepted⟩
  exact Scanner.not_accepts_of_advance_none stuck (List.cons_ne_nil _ _) accepted

/-- The line is read only if every tag but the last has a value. -/
theorem TagMessage.valued_of_parsesTo {message result : Message}
    (tagMessage : TagMessage message)
    (parsed : ParsesTo platform (wire message) result) :
    ∀ tag ∈ message.tags.entries.dropLast, tag.2 ≠ [] := by
  intro tag inner isBare
  have stuck := advance_tagsText_stuck platform tagMessage.keys
    tagMessage.values isBare inner {} ([space] ++ (message.command ++ [cr]))
  rw [tagMessage.wire_eq] at parsed
  refine not_parsesTo_of_stuck ?_ result parsed
  rw [List.append_assoc, List.append_assoc, Scanner.advance_append,
    advance_at, Option.bind_some]
  simpa using stuck

/-- The line is read only if it has a command. -/
theorem TagMessage.named_of_parsesTo {message result : Message}
    (tagMessage : TagMessage message)
    (parsed : ParsesTo platform (wire message) result) :
    message.command ≠ [] := by
  intro unnamed
  have valued := tagMessage.valued_of_parsesTo parsed
  obtain ⟨filled, tagRun, _⟩ := tagMessage.advance_tagSection platform valued
  rw [tagMessage.wire_eq, unnamed] at parsed
  refine not_parsesTo_of_stuck ?_ result parsed
  rw [Scanner.advance_append, tagRun]
  rfl

/-- The tags of a message are read back exactly when no value has a `=` in it
and every tag but the last one has a value. -/
theorem roundTripsTags_iff_valued (platform : Platform) (message : Message)
    (tagMessage : TagMessage message) :
    RoundTripsTags platform message ↔
      message.command ≠ [] ∧
        (∀ tag ∈ message.tags.entries, equals ∉ tag.2) ∧
        ∀ tag ∈ message.tags.entries.dropLast, tag.2 ≠ [] := by
  rw [roundTripsTags_iff]
  constructor
  · rintro ⟨result, parsed, tagsEq⟩
    have named := tagMessage.named_of_parsesTo parsed
    have valued := tagMessage.valued_of_parsesTo parsed
    refine ⟨named, ?_, valued⟩
    obtain ⟨kept, keptParsed, keptEq⟩ :=
      tagMessage.parsesTo_kept platform named valued
    rw [ParsesTo.unique keptParsed parsed, tagsEq] at keptEq
    exact (map_keptTag_eq_iff _).mp keptEq.symm
  · rintro ⟨named, noEquals, valued⟩
    obtain ⟨kept, parsed, keptEq⟩ :=
      tagMessage.parsesTo_kept platform named valued
    refine ⟨kept, parsed, ?_⟩
    rw [keptEq, (map_keptTag_eq_iff _).mpr noEquals]

/-- A value for the first tag and none for the last one. -/
def taggedList : Message where
  command := ascii "LIST"
  tags := ⟨[(ascii "a", ascii "b"), (ascii "k", [])], by decide⟩

theorem tagMessage_taggedList : TagMessage taggedList where
  command := by decide
  noPrefix := rfl
  noParams := rfl
  tagged := by decide
  keys := by simp only [IsTagKey]; decide
  values := by simp only [IsTagValue]; decide

theorem roundTripsTags_taggedList :
    RoundTripsTags plainPlatform taggedList ↔
      taggedList.command ≠ [] ∧
        (∀ tag ∈ taggedList.tags.entries, equals ∉ tag.2) ∧
        ∀ tag ∈ taggedList.tags.entries.dropLast, tag.2 ≠ [] :=
  roundTripsTags_iff_valued plainPlatform taggedList tagMessage_taggedList

/-- No value for the first tag. -/
def bareTagList : Message where
  command := ascii "LIST"
  tags := ⟨[(ascii "a", []), (ascii "b", ascii "c")], by decide⟩

theorem tagMessage_bareTagList : TagMessage bareTagList where
  command := by decide
  noPrefix := rfl
  noParams := rfl
  tagged := by decide
  keys := by simp only [IsTagKey]; decide
  values := by simp only [IsTagValue]; decide

/-- `@a;b=c LIST` is what is written, and it is rejected. -/
theorem not_roundTripsTags_bareTagList :
    TagMessage bareTagList ∧ wire bareTagList = ascii "@a;b=c LIST\r\n" ∧
      (MessageParser.parse plainPlatform {} {} (wire bareTagList)).1.2.2 =
        .invalid ∧
      ¬ RoundTripsTags plainPlatform bareTagList := by
  refine ⟨tagMessage_bareTagList, by decide, by decide, ?_⟩
  rw [roundTripsTags_iff]
  rintro ⟨result, parsed, _⟩
  have valued := tagMessage_bareTagList.valued_of_parsesTo parsed
  exact valued (ascii "a", []) (by decide) rfl

end Birch
