import Birch.MessageGrammar

/-!
# Relaying messages

Whatever octets the reads of a connection bring, the messages that are notified
are those of whole lines of the grammar: the lines of the octets that are left
when every read is cut off at its first rejected octet.  A notified message can
therefore be sent on.  Its text is no longer than the line that it was read
from, and is read back as the message itself or, where a tag without a value is
not the last one, not at all.
-/

namespace Birch

open Octet IncrementalScanner

variable {platform : Platform}

/-! ## The lines behind the notified messages -/

/-- The octets of the reads before the first one of each that is rejected. -/
def keptOctets (platform : Platform) (reads : List Read) : Text :=
  (lineScanner platform).keptAll {} (reads.map Read.octets)

theorem lineScanner_undisturbed (platform : Platform) :
    (lineScanner platform).Undisturbed :=
  fun _ _ _ rejected => lineScanner_step_invalid rejected

/-- Accepted lines are spelt by forms. -/
theorem exists_forms {lines : List Text} {finals : List Reader}
    (accepted : List.Forall₂ ((lineScanner platform).Accepts {}) lines finals) :
    ∃ forms : List (LineForm platform), forms.map LineForm.text = lines ∧
      forms.map LineForm.message = finals.map Reader.message := by
  induction accepted with
  | nil => exact ⟨[], rfl, rfl⟩
  | @cons line final _ _ head _ ih =>
      obtain ⟨forms, spelt, messages⟩ := ih
      have parsed : ParsesTo platform line final.message :=
        (parsesTo_iff_accepts _ _ _).mpr ⟨final.parser, head⟩
      obtain ⟨form, rfl, messageEq⟩ := exists_form_of_parsesTo parsed
      exact ⟨form :: forms, by rw [List.map_cons, spelt],
        by rw [List.map_cons, List.map_cons, messageEq, messages]⟩

/-- The kept octets split into lines and a rest in which the parser is inside of
a line. -/
theorem exists_forms_of_reads (platform : Platform) (reads : List Read) :
    ∃ (forms : List (LineForm platform)) (unfinished : Text) (next : Reader),
      keptOctets platform reads =
          (forms.map LineForm.text).flatten ++ unfinished ∧
        (runReadLoop platform {} reads).notified =
          forms.map LineForm.message ∧
        (lineScanner platform).advance {} unfinished = some next := by
  obtain ⟨clean, delivered⟩ :=
    Scanner.keptAll_spec (lineScanner_undisturbed platform) {}
      (reads.map Read.octets)
  obtain ⟨lines, finals, unfinished, next, keptEq, accepted, inside⟩ :=
    Scanner.exists_words_of_clean clean
  obtain ⟨forms, spelt, messages⟩ := exists_forms accepted
  refine ⟨forms, unfinished, next, by rw [keptOctets, keptEq, spelt], ?_, inside⟩
  rw [runReadLoop_notified, ← delivered, keptEq, messages]
  exact congrArg Prod.snd (Scanner.deliver_words accepted inside)

/-- The notified messages of any run are those of the lines that the kept
octets begin with, and the octets behind these begin no line that is
completed. -/
theorem notified_eq_forms (platform : Platform) (reads : List Read) :
    ∃ (forms : List (LineForm platform)) (unfinished : Text),
      keptOctets platform reads =
          (forms.map LineForm.text).flatten ++ unfinished ∧
        (runReadLoop platform {} reads).notified =
          forms.map LineForm.message ∧
        ∀ form : LineForm platform, ¬ form.text <+: unfinished := by
  obtain ⟨forms, unfinished, next, kept, notified, inside⟩ :=
    exists_forms_of_reads platform reads
  refine ⟨forms, unfinished, kept, notified, ?_⟩
  rintro form ⟨rest, rfl⟩
  obtain ⟨parser, ended⟩ := (parsesTo_iff_accepts _ _ _).mp form.parsesTo
  have finished := Scanner.deliver_of_accepts ended rest
  rw [Scanner.deliver_of_advance inside] at finished
  exact absurd (congrArg Prod.snd finished) (by simp)

/-- A notified message is the message of a line. -/
theorem exists_form_of_notified {reads : List Read} {message : Message}
    (notified : message ∈ (runReadLoop platform {} reads).notified) :
    ∃ form : LineForm platform, form.message = message := by
  obtain ⟨forms, _, _, _, notifiedEq, _⟩ := exists_forms_of_reads platform reads
  rw [notifiedEq, List.mem_map] at notified
  obtain ⟨form, _, messageEq⟩ := notified
  exact ⟨form, messageEq⟩

/-! ## What a form fills in -/

theorem ValuedTag.tagged_fill {message : Message}
    (tagged : Tagged platform message) (tag : ValuedTag) :
    Tagged platform (tag.fill message) :=
  tagged.addTag tag.isKey (tag.isValue.takeWhile _)

theorem TagForm.tagged_fill {message : Message}
    (tagged : Tagged platform message) (tags : TagForm) :
    Tagged platform (tags.fill message) := by
  rcases tags with ⟨ended, last⟩
  induction ended generalizing message with
  | nil =>
      cases last with
      | none => exact tagged
      | bare key isKey => exact tagged.addTagMoved isKey (by simp [IsTagValue])
      | valued tag => exact tag.tagged_fill tagged
  | cons tag ended ih => exact ih (tag.tagged_fill tagged)

theorem ParamForm.finished_addParams {message : Message}
    (commanded : Commanded platform message) (form : ParamForm) :
    Finished platform (message.addParams form.params) := by
  induction form generalizing message with
  | none =>
      rw [ParamForm.params, Message.addParams_nil]
      exact commanded.finished
  | dropped c isDropped rest ih => exact ih commanded
  | middle param isMiddle rest ih =>
      rw [ParamForm.params, ← Message.addParams_addParam]
      exact ih (commanded.addMiddle isMiddle)
  | last param isMiddle => exact commanded.addTrailing isMiddle.isTrailing
  | trailing param isTrailing => exact commanded.addTrailing isTrailing

theorem CommandForm.finished_fill {message : Message}
    (headed : Headed platform message) (form : CommandForm) :
    Finished platform (form.fill message) := by
  have commanded := headed.setCommand form.isCommand
  rcases form with ⟨command, isCommand, _ | params⟩
  · simpa only [CommandForm.fill, Message.addParams_nil] using
      commanded.finished
  · exact params.finished_addParams commanded

theorem LineForm.tagged_tagged (line : LineForm platform) :
    Tagged platform line.tagged := by
  rcases line with ⟨_ | ⟨tags, count⟩, body⟩
  · exact tagged_empty platform
  · exact tags.tagged_fill (tagged_empty platform)

theorem LineForm.finished (line : LineForm platform) :
    Finished platform line.message := by
  have tagged := line.tagged_tagged
  rcases line with ⟨tags, _ | source, command⟩
  · exact command.finished_fill tagged.headed
  · exact command.finished_fill (tagged.setPrefix source.valid source.chars)

/-- No value of the message has a `=` in it. -/
def NoEquals (message : Message) : Prop :=
  ∀ tag ∈ message.tags.entries, equals ∉ tag.2

theorem equals_not_mem_keptValue (value : Text) : equals ∉ keptValue value := by
  intro member
  simpa using List.mem_takeWhile_imp member

theorem ValuedTag.noEquals_fill {message : Message}
    (noEquals : NoEquals message) (tag : ValuedTag) :
    NoEquals (tag.fill message) := by
  intro entry member
  rcases LinkedHashMap.mem_assign member with rfl | old
  · exact equals_not_mem_keptValue tag.value
  · exact noEquals entry old

theorem TagForm.noEquals_fill {message : Message}
    (noEquals : NoEquals message) (tags : TagForm) :
    NoEquals (tags.fill message) := by
  rcases tags with ⟨ended, last⟩
  induction ended generalizing message with
  | nil =>
      cases last with
      | none => exact noEquals
      | bare key isKey =>
          intro entry member
          rcases LinkedHashMap.mem_emplace member with rfl | old
          · exact List.not_mem_nil
          · exact noEquals entry old
      | valued tag => exact tag.noEquals_fill noEquals
  | cons tag ended ih => exact ih (tag.noEquals_fill noEquals)

theorem LineForm.tags_message (line : LineForm platform) :
    line.message.tags = line.tagged.tags := by
  rcases line with ⟨tags, _ | source, command⟩ <;> rfl

theorem LineForm.noEquals (line : LineForm platform) :
    NoEquals line.message := by
  have empty : NoEquals {} := by simp [NoEquals]
  rw [NoEquals, line.tags_message]
  rcases line with ⟨_ | ⟨tags, count⟩, body⟩
  · exact empty
  · exact tags.noEquals_fill empty

/-! ## Reading a relayed message -/

/-- What is written for the first message, to any buffer that has room for it,
is read as the second one. -/
def IsReadBackAs (platform : Platform) (message read : Message) : Prop :=
  ∀ buffer : Text, computeRequiredSpace message ≤ buffer.length →
    ∃ written size, writeToBuffer buffer message = some (written, size) ∧
      ParsesTo platform (written.take size) read

theorem isReadBackAs_iff (platform : Platform) (message read : Message) :
    IsReadBackAs platform message read ↔
      ParsesTo platform (wire message) read := by
  constructor
  · intro readBack
    have room : computeRequiredSpace message ≤
        (List.replicate (computeRequiredSpace message) nul).length := by simp
    obtain ⟨written, size, wrote, taken⟩ := exists_written room
    obtain ⟨written', size', wrote', parsed⟩ := readBack _ room
    rw [wrote, Option.some.injEq, Prod.mk.injEq] at wrote'
    rwa [← wrote'.1, ← wrote'.2, taken] at parsed
  · intro parsed buffer room
    obtain ⟨written, size, wrote, taken⟩ := exists_written room
    exact ⟨written, size, wrote, by rwa [taken]⟩

theorem advance_fine {reader next : Reader} {text : Text}
    (good : ParserInvariant platform reader.parser reader.message)
    (inside : (lineScanner platform).advance reader text = some next) :
    ParserInvariant platform next.parser next.message := by
  induction text generalizing reader with
  | nil =>
      obtain rfl := Option.some.inj inside
      exact good
  | cons c text ih =>
      simp only [Scanner.advance] at inside
      split at inside
      · rename_i middle head
        have kept := MessageParser.consume_fine good c
        rw [MessageParser.Consumed.Fine, consume_of_step head] at kept
        exact ih kept inside
      · simp at inside

/-- The run over the tag section restores the tags of the message. -/
theorem advance_tagSection {message : Message}
    (finished : Finished platform message) (noEquals : NoEquals message)
    (valued : ∀ tag ∈ message.tags.entries.dropLast, tag.2 ≠ []) :
    ∃ state, (state = .parseStateStart ∨ state = .parseStateAfterTags) ∧
      (lineScanner platform).advance {} (tagSection message.tags.entries) =
        some (reading state [] { tags := message.tags }) := by
  by_cases tagged : message.tags.entries = []
  · have noTags : message.tags = ∅ := LinkedHashMap.ext tagged
    exact ⟨.parseStateStart, Or.inl rfl, by rw [noTags]; rfl⟩
  · have keys := fun tag member => (finished.tags tag member).1
    have values := fun tag member => (finished.tags tag member).2
    obtain ⟨filled, run, filledEq⟩ := advance_tagsText tagged keys values
      valued {} message.tags.nodupKeys
    have whole := Scanner.advance_trans (advance_at platform) run
    obtain ⟨headed, -⟩ := advance_fine (parserInvariant_fresh platform) whole
    have same : filled = { tags := message.tags } := by
      have tagsEq : filled.tags = message.tags := by
        apply LinkedHashMap.ext
        rw [filledEq, (map_keptTag_eq_iff _).mpr noEquals]
        rfl
      rcases filled with ⟨prefixText, command, params, tags⟩
      obtain ⟨_, rfl, rfl, rfl⟩ := headed
      rw [← tagsEq]
    refine ⟨.parseStateAfterTags, Or.inr rfl, ?_⟩
    rw [← same]
    simpa [tagSection, tagged] using whole

/-- The run over the prefix, if there is one. -/
theorem advance_prefixSection {state : ParserState}
    (begins : state = .parseStateStart ∨ state = .parseStateAfterTags)
    {message : Message} (finished : Finished platform message) :
    ∃ next, BeginsCommand next ∧
      (lineScanner platform).advance (reading state [] { tags := message.tags })
          (prefixSection message.prefixText) =
        some (reading next []
          { prefixText := message.prefixText, tags := message.tags }) := by
  rcases finished.toHeaderFine.prefixText with noPrefix | ⟨valid, chars⟩
  · rw [noPrefix]
    refine ⟨state, ?_, rfl⟩
    rcases begins with rfl | rfl
    · exact Or.inl rfl
    · exact Or.inr (Or.inl rfl)
  · have nonempty : message.prefixText ≠ [] := by
      intro empty
      rw [empty] at valid
      exact absurd valid (by simp [isValidPrefix, isValidHostname, prefixScanLoop])
    have colonStep : (lineScanner platform).step
        (reading state [] { tags := message.tags }) colon =
          (reading .parseStatePrefix [] { tags := message.tags },
            .incomplete) := by
      rcases begins with rfl | rfl <;> rfl
    have run := Scanner.advance_cons colonStep
      (advance_prefixText platform chars valid { tags := message.tags })
    refine ⟨.parseStateCommandNameOrNumber, Or.inr (Or.inr rfl), ?_⟩
    simpa [prefixSection, nonempty, Message.setPrefix] using run

/-- A message that has been read is read back if every tag but the last has a
value. -/
theorem Finished.parsesTo_wire {message : Message}
    (finished : Finished platform message) (noEquals : NoEquals message)
    (valued : ∀ tag ∈ message.tags.entries.dropLast, tag.2 ≠ []) :
    ParsesTo platform (wire message) message := by
  obtain ⟨state, begins, tagRun⟩ :=
    advance_tagSection finished noEquals valued
  obtain ⟨next, beginsCommand, prefixRun⟩ :=
    advance_prefixSection begins finished
  obtain ⟨buffer, commandRun⟩ := advance_commandLine beginsCommand
    finished.command finished.params finished.middles
    { prefixText := message.prefixText, tags := message.tags }
  have run := Scanner.advance_trans (Scanner.advance_trans tagRun prefixRun)
    commandRun
  have parsed := parsesTo_of_advance platform run
  simpa [wire, wireBody, Message.setCommand, Message.addParams] using parsed

/-- The text of a message with a bare tag before the last one is no line. -/
theorem Finished.valued_of_parsesTo {message read : Message}
    (finished : Finished platform message)
    (parsed : ParsesTo platform (wire message) read) :
    ∀ tag ∈ message.tags.entries.dropLast, tag.2 ≠ [] := by
  intro tag inner isBare
  have tagged : message.tags.entries ≠ [] := by
    intro empty
    simp [empty] at inner
  have stuck := advance_tagsText_stuck platform
    (fun tag member => (finished.tags tag member).1)
    (fun tag member => (finished.tags tag member).2) isBare inner {}
    ([space] ++ (prefixSection message.prefixText ++ message.command ++
      paramsText message.params ++ [cr]))
  have wireEq : wire message = [at_] ++ (tagsText message.tags.entries ++
      ([space] ++ (prefixSection message.prefixText ++ message.command ++
        paramsText message.params ++ [cr]))) ++ [lf] := by
    simp [wire, wireBody, tagSection, tagged]
  rw [wireEq] at parsed
  refine not_parsesTo_of_stuck ?_ read parsed
  rw [Scanner.advance_append, advance_at, Option.bind_some]
  exact stuck

/-- What a message must be like to be read back: its parts fit the grammar, no
value has a `=` in it, and every tag but the last has a value. -/
structure Readable (platform : Platform) (message : Message) : Prop extends
    Finished platform message where
  noEquals : NoEquals message
  valued : ∀ tag ∈ message.tags.entries.dropLast, tag.2 ≠ []

theorem Readable.parsesTo {message : Message}
    (readable : Readable platform message) :
    ParsesTo platform (wire message) message :=
  readable.toFinished.parsesTo_wire readable.noEquals readable.valued

/-- The messages that are read back as themselves are exactly these. -/
theorem isReadBackAs_self_iff (platform : Platform) (message : Message) :
    IsReadBackAs platform message message ↔ Readable platform message := by
  rw [isReadBackAs_iff]
  constructor
  · intro parsed
    obtain ⟨form, _, rfl⟩ := exists_form_of_parsesTo parsed
    exact ⟨form.finished, form.noEquals, form.finished.valued_of_parsesTo parsed⟩
  · exact Readable.parsesTo

/-- A notified message that is sent on is read as itself exactly when every tag
but the last has a value, and is never read as another message. -/
theorem isReadBackAs_of_notified (platform : Platform) (reads : List Read)
    (message : Message)
    (notified : message ∈ (runReadLoop platform {} reads).notified) :
    (IsReadBackAs platform message message ↔
        ∀ tag ∈ message.tags.entries.dropLast, tag.2 ≠ []) ∧
      ∀ read, IsReadBackAs platform message read → read = message := by
  obtain ⟨form, rfl⟩ := exists_form_of_notified notified
  simp only [isReadBackAs_iff]
  refine ⟨⟨form.finished.valued_of_parsesTo,
    form.finished.parsesTo_wire form.noEquals⟩, fun read parsed => ?_⟩
  have valued := form.finished.valued_of_parsesTo parsed
  exact ParsesTo.unique parsed (form.finished.parsesTo_wire form.noEquals valued)

theorem isReadBackAs_torn :
    (IsReadBackAs plainPlatform
        { command := ascii "LIST", params := [ascii "xPING"] }
        { command := ascii "LIST", params := [ascii "xPING"] } ↔
      ∀ tag ∈ ([] : List (Text × Text)), tag.2 ≠ []) ∧
      ∀ read, IsReadBackAs plainPlatform
        { command := ascii "LIST", params := [ascii "xPING"] } read →
          read = { command := ascii "LIST", params := [ascii "xPING"] } :=
  isReadBackAs_of_notified plainPlatform [tornRead, pingRead] _ (by
    rw [runReadLoop_notified]
    decide)

/-! ## The length of a relayed message -/

/-- The octets of a list of tags, with one octet of punctuation for each. -/
def tagsWeight : List (Text × Text) → Nat
  | [] => 0
  | tag :: tags => (tagText tag).length + 1 + tagsWeight tags

theorem tagsWeight_append (first second : List (Text × Text)) :
    tagsWeight (first ++ second) = tagsWeight first + tagsWeight second := by
  induction first with
  | nil => simp [tagsWeight]
  | cons tag first ih =>
      simp only [List.cons_append, tagsWeight, ih]
      omega

theorem length_tagSection (tags : List (Text × Text)) :
    (tagSection tags).length ≤ tagsWeight tags + 1 := by
  have later : ∀ tags : List (Text × Text),
      (tags.flatMap fun tag => semicolon :: tagText tag).length =
        tagsWeight tags := by
    intro tags
    induction tags with
    | nil => rfl
    | cons tag tags ih =>
        rw [List.flatMap_cons, List.length_append, ih, List.length_cons,
          tagsWeight]
  cases tags with
  | nil => simp [tagSection]
  | cons tag tags =>
      simp only [tagSection, List.isEmpty_cons, Bool.false_eq_true, if_false,
        tagsText_cons, List.length_append, List.length_cons, later, tagsWeight,
        List.length_nil]
      omega

theorem tagsWeight_overwrite (key value : Text) {tags : List (Text × Text)}
    (nodup : (tags.map Prod.fst).Nodup) :
    tagsWeight (tags.map (LinkedHashMap.overwrite key value)) ≤
      tagsWeight tags + (tagText (key, value)).length + 1 := by
  induction tags with
  | nil => simp [tagsWeight]
  | cons tag tags ih =>
      rw [List.map_cons, List.nodup_cons] at nodup
      by_cases here : tag.1 = key
      · have elsewhere : ∀ other ∈ tags,
            LinkedHashMap.overwrite key value other = id other := by
          intro other member
          have different : other.1 ≠ key := by
            rintro rfl
            exact nodup.1 (here ▸ List.mem_map_of_mem member)
          simp [LinkedHashMap.overwrite, different]
        have replaced : LinkedHashMap.overwrite key value tag = (key, value) := by
          simp [LinkedHashMap.overwrite, here]
        rw [List.map_cons, List.map_congr_left elsewhere, List.map_id, replaced,
          tagsWeight, tagsWeight]
        omega
      · have same : LinkedHashMap.overwrite key value tag = tag := by
          simp [LinkedHashMap.overwrite, here]
        have later := ih nodup.2
        rw [List.map_cons, same, tagsWeight, tagsWeight]
        omega

theorem tagsWeight_concat (key value : Text) (tags : List (Text × Text)) :
    tagsWeight (tags ++ [(key, value)]) =
      tagsWeight tags + (tagText (key, value)).length + 1 := by
  rw [tagsWeight_append, tagsWeight, tagsWeight]
  omega

theorem tagsWeight_addTag (message : Message) (key value : Text) :
    tagsWeight (message.addTag key value).tags.entries ≤
      tagsWeight message.tags.entries + (tagText (key, value)).length + 1 := by
  simp only [Message.addTag, LinkedHashMap.assign]
  split
  · exact tagsWeight_overwrite key value message.tags.nodupKeys
  · exact (tagsWeight_concat key value _).le

theorem tagsWeight_addTagMoved (message : Message) (key value : Text) :
    tagsWeight (message.addTagMoved key value).tags.entries ≤
      tagsWeight message.tags.entries + (tagText (key, value)).length + 1 := by
  simp only [Message.addTagMoved, LinkedHashMap.emplace]
  split
  · omega
  · exact (tagsWeight_concat key value _).le

/-- A tag is written no longer than it was read. -/
theorem ValuedTag.tagsWeight_fill (tag : ValuedTag) (message : Message) :
    tagsWeight (tag.fill message).tags.entries ≤
      tagsWeight message.tags.entries + tag.text.length + 1 := by
  have added := tagsWeight_addTag message tag.key (keptValue tag.value)
  have shorter : (keptValue tag.value).length ≤ tag.value.length :=
    (List.takeWhile_prefix _).length_le
  have written : (tagText (tag.key, keptValue tag.value)).length ≤
      tag.text.length := by
    simp only [tagText, ValuedTag.text]
    split
    · simp
    · simp only [List.length_append, List.length_cons]
      omega
  exact added.trans (by omega)

theorem TagForm.tagsWeight_fill (tags : TagForm) (message : Message) :
    tagsWeight (tags.fill message).tags.entries ≤
      tagsWeight message.tags.entries + tags.text.length + 1 := by
  rcases tags with ⟨ended, last⟩
  induction ended generalizing message with
  | nil =>
      cases last with
      | none => exact (Nat.le_add_right _ _).trans (Nat.le_succ _)
      | bare key isKey =>
          have added := tagsWeight_addTagMoved message key []
          rw [tagText_of_empty rfl] at added
          exact added
      | valued tag => exact tag.tagsWeight_fill message
  | cons tag ended ih =>
      have first := tag.tagsWeight_fill message
      have later := ih (tag.fill message)
      rw [TagForm.fill_cons, TagForm.text_cons, List.length_append,
        List.length_cons]
      omega

/-- A last parameter that was not marked when it was read is not marked when it
is written. -/
theorem IsMiddle.lastParamText {param : Text} (isMiddle : IsMiddle param) :
    lastParamText param = param := by
  have unmarked : requiresTrailingMarker param = false := by
    have nonempty := isMiddle.ne_nil
    have noColon := isMiddle.head_ne_colon
    have noSpace := isMiddle.no_space
    simp [requiresTrailingMarker, nonempty, noColon, noSpace]
  simp [Birch.lastParamText, unmarked]

theorem length_lastParamText (param : Text) :
    (lastParamText param).length ≤ param.length + 1 := by
  unfold lastParamText
  split <;> simp

theorem ParamForm.length_paramsText (form : ParamForm) :
    (paramsText form.params).length ≤ form.text.length + 1 := by
  induction form with
  | none => simp [ParamForm.params, ParamForm.text, paramsText]
  | dropped c isDropped rest ih =>
      simp only [ParamForm.params, ParamForm.text, List.length_cons]
      omega
  | middle param isMiddle rest ih =>
      simp only [ParamForm.params, ParamForm.text, List.length_append,
        List.length_cons]
      rcases restEq : rest.params with _ | ⟨next, later⟩
      · simp only [paramsText, List.length_cons, isMiddle.lastParamText]
        omega
      · rw [restEq] at ih
        simp only [paramsText, List.length_append, List.length_cons] at ih ⊢
        omega
  | last param isMiddle =>
      simp [ParamForm.params, ParamForm.text, paramsText,
        isMiddle.lastParamText]
  | trailing param isTrailing =>
      have marked := length_lastParamText param
      simp only [ParamForm.params, ParamForm.text, paramsText,
        List.length_cons]
      omega

theorem CommandForm.length_fill {message : Message}
    (noParams : message.params = []) (form : CommandForm) :
    ((form.fill message).command ++
        paramsText (form.fill message).params).length ≤ form.text.length := by
  rcases form with ⟨command, isCommand, _ | params⟩
  · simp [CommandForm.fill, CommandForm.text, Message.addParams,
      Message.setCommand, noParams, paramsText]
  · have shorter := params.length_paramsText
    simp only [CommandForm.fill, CommandForm.text, Message.addParams,
      Message.setCommand, noParams, List.nil_append, List.length_append,
      List.length_cons]
    omega

theorem BodyForm.length_fill {message : Message}
    (tagged : Tagged platform message) (body : BodyForm platform) :
    (prefixSection (body.fill message).prefixText ++
        (body.fill message).command ++
          paramsText (body.fill message).params).length ≤
      body.text.length := by
  rcases body with ⟨_ | source, command⟩
  · have shorter := command.length_fill tagged.noParams
    have noPrefix : (command.fill message).prefixText = [] := tagged.noPrefix
    simpa [BodyForm.fill, BodyForm.text, prefixSection, noPrefix] using shorter
  · have noParams : (message.setPrefix source.source).params = [] :=
      tagged.noParams
    have shorter := command.length_fill noParams
    have same : (command.fill (message.setPrefix source.source)).prefixText =
      source.source := rfl
    have spelt : (prefixSection source.source).length ≤ source.text.length := by
      unfold prefixSection PrefixForm.text
      split <;> simp
    simp only [BodyForm.fill, BodyForm.text, same, List.append_assoc,
      List.length_append] at shorter ⊢
    omega

theorem LineForm.length_tagPart (line : LineForm platform) :
    (tagSection line.message.tags.entries).length ≤ line.tagPart.length := by
  rw [line.tags_message]
  rcases line with ⟨_ | ⟨tags, count⟩, body⟩
  · simp [LineForm.tagged, tagSection]
  · have filled := tags.tagsWeight_fill {}
    have weighed := length_tagSection (tags.fill {}).tags.entries
    have empty : tagsWeight ({} : Message).tags.entries = 0 := rfl
    simp only [LineForm.tagged, LineForm.tagPart, tagFormText,
      List.length_cons, List.length_append, List.length_replicate]
    omega

theorem LineForm.length_wire (line : LineForm platform) :
    (wire line.message).length ≤ line.text.length := by
  have tagged := line.tagged_tagged
  have body := line.body.length_fill tagged
  have tags := line.length_tagPart
  simp only [wire, wireBody, LineForm.text, LineForm.message,
    List.append_assoc, List.length_append] at body tags ⊢
  omega

/-- The messages that are notified in a run take up, written one behind the
other, no more octets than its reads have brought. -/
theorem length_notified_le (platform : Platform) (reads : List Read) :
    ((runReadLoop platform {} reads).notified.flatMap wire).length ≤
      (reads.map Read.octets).flatten.length := by
  obtain ⟨forms, unfinished, _, keptEq, notifiedEq, _⟩ :=
    exists_forms_of_reads platform reads
  have kept : ((lineScanner platform).keptAll {}
      (reads.map Read.octets)).length ≤
        (reads.map Read.octets).flatten.length :=
    Scanner.length_keptAll_le _ _
  have written : ((forms.map LineForm.message).flatMap wire).length ≤
      (forms.map LineForm.text).flatten.length := by
    clear keptEq notifiedEq
    induction forms with
    | nil => exact Nat.le_refl _
    | cons form forms ih =>
        have shorter := form.length_wire
        simp only [List.map_cons, List.flatMap_cons, List.flatten_cons,
          List.length_append]
        omega
  rw [keptOctets] at keptEq
  rw [keptEq, List.length_append] at kept
  rw [notifiedEq]
  omega

end Birch
