import Birch.TagSections
import Mathlib.Logic.Relation

/-!
# Redundant spaces in a line

Where the parser has read a space behind the tags, the command or a middle
parameter, and before the end of a line, further spaces leave the message as it
is.  The places are described by the text of the line.
-/

namespace Birch

open Octet IncrementalScanner

/-- A trailing parameter is begun in a text behind the command: there is a
colon where a parameter may begin, that is, behind a space and the octets that
the parser drops. -/
def opensTrailing : Bool → Text → Bool
  | _, [] => false
  | true, c :: text => c == colon || opensTrailing (!isParamStartChar c) text
  | false, c :: text => opensTrailing (c == space) text

def trailingOpened (line : Text) : Bool :=
  opensTrailing false (afterCommand line)

/-- Further spaces: behind the space that ends the tags, behind a space that
follows the command or a middle parameter, or in front of the end of a line
without a trailing parameter. -/
inductive SpacesInserted : Text → Text → Prop
  | afterTags (tags rest : Text) (count : Nat) : space ∉ tags →
      SpacesInserted (at_ :: tags ++ [space] ++ rest)
        (at_ :: tags ++ [space] ++ List.replicate count space ++ rest)
  | afterToken (before rest : Text) (count : Nat) :
      afterCommand (before ++ [space]) ≠ [] →
        trailingOpened (before ++ [space]) = false →
          SpacesInserted (before ++ [space] ++ rest)
            (before ++ [space] ++ List.replicate count space ++ rest)
  | beforeCr (before : Text) (count : Nat) : trailingOpened before = false →
      SpacesInserted (before ++ [cr, lf])
        (before ++ List.replicate count space ++ [cr, lf])

variable {platform : Platform}

/-! ## Where the parser is -/

/-- `opensTrailing` of a text that is read from a state behind the command. -/
def opensFrom : ParserState → Text → Bool
  | .parseStateParamStart, text => opensTrailing true text
  | .parseStateParam, text => opensTrailing false text
  | .parseStateTrailing, _ => true
  | _, _ => false

/-- One octet behind the command. -/
theorem consume_opensFrom {state next : ParserState} {buffer rest : Text}
    {message filled : Message} {c : Octet} (behind : state.isHeader = false)
    (step : MessageParser.consume platform ⟨state, buffer⟩ message c =
      (⟨next, rest⟩, filled, .incomplete)) :
    next.isHeader = false ∧ ∀ text,
      opensFrom next text = true → opensFrom state (c :: text) = true := by
  simp only [MessageParser.consume] at step
  split at step
  · simp at step
  · cases state with
    | parseStateParamStart =>
        simp only [MessageParser.consumeParamStart, MessageParser.push] at step
        grind [opensFrom, opensTrailing, ParserState.isHeader]
    | parseStateParam =>
        simp only [MessageParser.consumeParam, MessageParser.push] at step
        grind [opensFrom, opensTrailing, ParserState.isHeader]
    | parseStateTrailing =>
        simp only [MessageParser.consumeTrailing, MessageParser.push] at step
        grind [opensFrom, ParserState.isHeader]
    | parseStateCr =>
        simp only [MessageParser.consumeCr] at step
        split at step <;> simp at step
    | parseStateComplete => simp at step
    | _ => cases behind

theorem advance_opensFrom {reader final : Reader} {text : Text}
    (behind : reader.parser.state.isHeader = false)
    (run : (lineScanner platform).advance reader text = some final) :
    final.parser.state.isHeader = false ∧
      (final.parser.state = .parseStateTrailing →
        opensFrom reader.parser.state text = true) := by
  induction text generalizing reader with
  | nil =>
      obtain rfl := Option.some.inj run
      exact ⟨behind, fun trailing => by rw [trailing]; rfl⟩
  | cons c text ih =>
      simp only [Scanner.advance] at run
      split at run
      · rename_i next head
        obtain ⟨nextBehind, opens⟩ :=
          consume_opensFrom behind (consume_of_step head)
        obtain ⟨finalBehind, opened⟩ := ih nextBehind run
        exact ⟨finalBehind, fun trailing => opens text (opened trailing)⟩
      · cases run

/-- A beginning of a line, from inside of the part up to the command: what is
behind the command tells whether the parser is there, and in a trailing
parameter. -/
theorem advance_section {reader final : Reader} {text : Text}
    (header : reader.parser.state.isHeader = true)
    (run : (lineScanner platform).advance reader text = some final) :
    (final.parser.state.isHeader = true →
        sectionFrom reader.parser.state text = []) ∧
      (final.parser.state = .parseStateTrailing →
        opensTrailing false (sectionFrom reader.parser.state text) = true) := by
  induction text generalizing reader with
  | nil =>
      obtain rfl := Option.some.inj run
      rcases reader with ⟨⟨state, buffer⟩, message⟩
      refine ⟨fun _ => ?_, fun trailing => ?_⟩
      · cases state <;> rfl
      · rw [trailing] at header
        cases header
  | cons c text ih =>
      simp only [Scanner.advance] at run
      split at run
      · rename_i next head
        have move := consume_headerMove header (consume_of_step head)
        rcases move.moves with ⟨_, atCr, _⟩ | ⟨_, nextHeader, sectionEq⟩ |
          ⟨_, atParams, sectionEq⟩
        · have nextBehind : next.parser.state.isHeader = false := by
            rw [atCr]
            rfl
          obtain ⟨finalBehind, opened⟩ := advance_opensFrom nextBehind run
          refine ⟨fun header => ?_, fun trailing => ?_⟩
          · rw [finalBehind] at header
            cases header
          · have opens := opened trailing
            rw [atCr] at opens
            cases opens
        · rw [sectionEq text]
          exact ih nextHeader run
        · have nextBehind : next.parser.state.isHeader = false := by
            rw [atParams]
            rfl
          obtain ⟨finalBehind, opened⟩ := advance_opensFrom nextBehind run
          refine ⟨fun header => ?_, fun trailing => ?_⟩
          · rw [finalBehind] at header
            cases header
          · have opens := opened trailing
            rw [atParams] at opens
            rw [sectionEq text]
            exact opens
      · cases run

/-! ## Spaces that are absorbed -/

theorem step_space_absorbed (platform : Platform) {reader : Reader}
    (waits : reader.parser.state = .parseStateAfterTags ∨
      reader.parser.state = .parseStateParamStart) :
    (lineScanner platform).step reader space = (reader, .incomplete) := by
  rcases reader with ⟨⟨state, buffer⟩, message⟩
  rcases waits with rfl | rfl <;> rfl

/-- A space leads to the command, to a parameter, or stays in a trailing one. -/
theorem consume_space {state next : ParserState} {buffer rest : Text}
    {message filled : Message}
    (step : MessageParser.consume platform ⟨state, buffer⟩ message space =
      (⟨next, rest⟩, filled, .incomplete)) :
    next.isHeader = true ∨ next = .parseStateParamStart ∨
      next = .parseStateTrailing := by
  revert step
  unfold MessageParser.consume MessageParser.consumeStart
    MessageParser.consumeTagKey MessageParser.consumeTagValue
    MessageParser.consumeAfterTags MessageParser.consumePrefix
    MessageParser.consumeCommandName MessageParser.consumeCommandNumber
    MessageParser.consumeParamStart MessageParser.consumeParam
    MessageParser.consumeTrailing MessageParser.consumeCr
    MessageParser.consumeCommandStart MessageParser.push
  grind [ParserState.isHeader, isParamStartChar_space]

/-- The states in which a line may end without a trailing parameter. -/
theorem endable_of_step {reader next : Reader}
    (step : (lineScanner platform).step reader cr = (next, .incomplete)) :
    reader.parser.state = .parseStateCommandName ∨
      reader.parser.state = .parseStateCommandNumber ∨
      reader.parser.state = .parseStateParamStart ∨
      reader.parser.state = .parseStateParam ∨
      reader.parser.state = .parseStateTrailing := by
  rcases reader with ⟨⟨state, buffer⟩, message⟩
  cases state with
  | parseStateCommandName => exact Or.inl rfl
  | parseStateCommandNumber => exact Or.inr (Or.inl rfl)
  | parseStateParamStart => exact Or.inr (Or.inr (Or.inl rfl))
  | parseStateParam => exact Or.inr (Or.inr (Or.inr (Or.inl rfl)))
  | parseStateTrailing => exact Or.inr (Or.inr (Or.inr (Or.inr rfl)))
  | _ => exact absurd (congrArg Prod.snd step) Verdict.noConfusion

/-- In front of the end of a line, a space makes no difference. -/
theorem step_space_cr {reader next : Reader}
    (notTrailing : reader.parser.state ≠ .parseStateTrailing)
    (step : (lineScanner platform).step reader cr = (next, .incomplete)) :
    ∃ waiting, (lineScanner platform).step reader space =
        (waiting, .incomplete) ∧
      waiting.parser.state = .parseStateParamStart ∧
      (lineScanner platform).step waiting cr = (next, .incomplete) := by
  have endable := endable_of_step step
  rcases reader with ⟨⟨state, buffer⟩, message⟩
  rcases endable with rfl | rfl | rfl | rfl | rfl
  · exact ⟨_, rfl, rfl, step⟩
  · by_cases three : buffer.length = 3
    · rw [step_commandNumber_end platform three message (Or.inr rfl)] at step
      refine ⟨_, step_commandNumber_end platform three message (Or.inl rfl),
        rfl, ?_⟩
      exact step
    · simp [lineScanner, MessageParser.consume,
        MessageParser.consumeCommandNumber, three] at step
  · exact ⟨_, rfl, rfl, step⟩
  · exact ⟨_, rfl, rfl, step⟩
  · exact absurd rfl notTrailing

/-! ## Lines with redundant spaces -/

theorem advance_inTags {reader final : Reader} {text : Text}
    (inTags : reader.parser.state = .parseStateTagKey ∨
      reader.parser.state = .parseStateTagValue)
    (noSpace : space ∉ text)
    (run : (lineScanner platform).advance reader (text ++ [space]) =
      some final) : final.parser.state = .parseStateAfterTags := by
  induction text generalizing reader with
  | nil =>
      rcases reader with ⟨⟨state, buffer⟩, message⟩
      simp only [List.nil_append, Scanner.advance] at run
      split at run
      · rename_i next head
        obtain rfl := Option.some.inj run
        rcases inTags with rfl | rfl
        · rcases consume_tagKey (consume_of_step head) with
            ⟨_, notSpace, _⟩ | ⟨_, nextEq, _⟩
          · exact absurd rfl notSpace
          · exact nextEq
        · rcases consume_tagValue (consume_of_step head) with
            ⟨_, notSpace, _⟩ | ⟨⟨isSemicolon, _⟩ | ⟨_, nextEq⟩, _⟩
          · exact absurd rfl notSpace
          · exact absurd isSemicolon (by decide)
          · exact nextEq
      · cases run
  | cons c text ih =>
      rcases reader with ⟨⟨state, buffer⟩, message⟩
      obtain ⟨notHere, notLater⟩ := not_or.mp (mt List.mem_cons.mpr noSpace)
      simp only [List.cons_append, Scanner.advance] at run
      split at run
      · rename_i next head
        refine ih ?_ notLater run
        rcases inTags with rfl | rfl
        · rcases consume_tagKey (consume_of_step head) with
            ⟨nextInTags, _⟩ | ⟨isSpace, _⟩
          · exact nextInTags
          · exact absurd isSpace (Ne.symm notHere)
        · rcases consume_tagValue (consume_of_step head) with
            ⟨nextEq, _⟩ | ⟨⟨_, nextEq, _⟩ | ⟨isSpace, _⟩, _⟩
          · exact Or.inr nextEq
          · exact Or.inl nextEq
          · exact absurd isSpace (Ne.symm notHere)
      · cases run

theorem parsesTo_append {before after : Text} {message : Message}
    (parsed : ParsesTo platform (before ++ after) message)
    (nonempty : after ≠ []) :
    ∃ middle parser, (lineScanner platform).advance {} before = some middle ∧
      (lineScanner platform).Accepts middle after ⟨parser, message⟩ := by
  obtain ⟨parser, accepted⟩ := (parsesTo_iff_accepts _ _ _).mp parsed
  obtain ⟨middle, run, ended⟩ :=
    Scanner.exists_advance_of_accepts accepted nonempty
  exact ⟨middle, parser, run, ended⟩

/-- Spaces at a place where they are absorbed. -/
theorem parsesTo_of_absorbed {before after : Text} {message : Message}
    {middle : Reader} {parser : MessageParser}
    (run : (lineScanner platform).advance {} before = some middle)
    (waits : middle.parser.state = .parseStateAfterTags ∨
      middle.parser.state = .parseStateParamStart)
    (ended : (lineScanner platform).Accepts middle after ⟨parser, message⟩)
    (count : Nat) :
    ParsesTo platform (before ++ List.replicate count space ++ after)
      message := by
  have absorbed := Scanner.advance_replicate
    (step_space_absorbed platform waits) count
  exact (parsesTo_iff_accepts _ _ _).mpr
    ⟨parser, Scanner.accepts_of_advance (Scanner.advance_trans run absorbed)
      ended⟩

/-- A beginning of a line that ends with a space behind the command, outside of
a trailing parameter. -/
theorem paramStart_of_space {before : Text} {middle : Reader}
    (run : (lineScanner platform).advance {} (before ++ [space]) = some middle)
    (behind : afterCommand (before ++ [space]) ≠ [])
    (notOpened : trailingOpened (before ++ [space]) = false) :
    middle.parser.state = .parseStateParamStart := by
  obtain ⟨notHeader, notTrailing⟩ := advance_section rfl run
  rw [Scanner.advance_append] at run
  obtain ⟨last, _, lastStep⟩ := Option.bind_eq_some_iff.mp run
  simp only [Scanner.advance] at lastStep
  split at lastStep
  · rename_i next head
    obtain rfl := Option.some.inj lastStep
    rcases consume_space (consume_of_step head) with header | atParams | trailing
    · exact absurd (notHeader header) behind
    · exact atParams
    · have opened : trailingOpened (before ++ [space]) = true :=
        notTrailing trailing
      rw [notOpened] at opened
      cases opened
  · cases lastStep

/-- A line does not end with a space. -/
theorem rest_ne_nil {before rest : Text} {message : Message}
    (parsed : ParsesTo platform (before ++ [space] ++ rest) message) :
    rest ≠ [] := by
  rintro rfl
  obtain ⟨parser, accepted⟩ := (parsesTo_iff_accepts _ _ _).mp parsed
  obtain ⟨body, lineEq, _⟩ :=
    accepts_lineFrom (betweenReads_start platform) (by decide) accepted
  have lastEq := congrArg List.getLast? lineEq
  simp only [List.append_nil, List.getLast?_concat] at lastEq
  rw [show body ++ [cr, lf] = body ++ [cr] ++ [lf] by simp,
    List.getLast?_concat] at lastEq
  exact absurd (Option.some.inj lastEq) (by decide)

/-- Spaces in front of the end of a line. -/
theorem parsesTo_beforeCr {before : Text} {message : Message} (count : Nat)
    (notOpened : trailingOpened before = false)
    (parsed : ParsesTo platform (before ++ [cr, lf]) message) :
    ParsesTo platform (before ++ List.replicate count space ++ [cr, lf])
      message := by
  cases count with
  | zero => simpa using parsed
  | succ count =>
      obtain ⟨middle, parser, run, ended⟩ :=
        parsesTo_append parsed (List.cons_ne_nil _ _)
      have notTrailing : middle.parser.state ≠ .parseStateTrailing := by
        intro trailing
        have opened : trailingOpened before = true :=
          (advance_section rfl run).2 trailing
        rw [notOpened] at opened
        cases opened
      rcases Scanner.accepts_cons ended with ⟨noLf, _⟩ | ⟨next, crStep, atLf⟩
      · cases noLf
      · obtain ⟨waiting, spaceStep, waits, again⟩ :=
          step_space_cr notTrailing crStep
        have absorbed := Scanner.advance_replicate
          (step_space_absorbed platform (Or.inr waits)) count
        have spaces := Scanner.advance_cons spaceStep absorbed
        have toCr := Scanner.advance_trans (Scanner.advance_trans run spaces)
          (advance_single platform again)
        have accepted := Scanner.accepts_of_advance toCr atLf
        refine (parsesTo_iff_accepts _ _ _).mpr ⟨parser, ?_⟩
        simpa [List.replicate_succ] using accepted

/-- One insertion of spaces. -/
theorem SpacesInserted.parsesTo {line respaced : Text} {message : Message}
    (inserted : SpacesInserted line respaced)
    (parsed : ParsesTo platform line message) :
    ParsesTo platform respaced message := by
  cases inserted with
  | afterTags tags rest count noSpace =>
      obtain ⟨middle, parser, run, ended⟩ :=
        parsesTo_append parsed (rest_ne_nil parsed)
      have inTags : (lineScanner platform).advance
          (reading .parseStateTagKey [] {}) (tags ++ [space]) = some middle :=
        run
      have waits := advance_inTags (Or.inl rfl) noSpace inTags
      exact parsesTo_of_absorbed run (Or.inl waits) ended count
  | afterToken before rest count behind notOpened =>
      obtain ⟨middle, parser, run, ended⟩ :=
        parsesTo_append parsed (rest_ne_nil parsed)
      have waits := paramStart_of_space run behind notOpened
      exact parsesTo_of_absorbed run (Or.inr waits) ended count
  | beforeCr before count notOpened =>
      exact parsesTo_beforeCr count notOpened parsed

/-- Any number of insertions, one after the other, leaves a line accepted and
its message as it was. -/
theorem parsesTo_of_spacesInserted (platform : Platform) (line respaced : Text)
    (message : Message) (parsed : ParsesTo platform line message)
    (inserted : Relation.ReflTransGen SpacesInserted line respaced) :
    ParsesTo platform respaced message := by
  induction inserted with
  | refl => exact parsed
  | tail _ last ih => exact last.parsesTo ih

/-- A line with a tag, a prefix and parameters, and one with spaces inserted at
three places of it. -/
theorem spacesInserted_modeLine :
    Relation.ReflTransGen SpacesInserted
      (ascii "@a=b :n MODE #c +o\r\n")
      (ascii "@a=b  :n MODE   #c +o \r\n") := by
  have atEnd : SpacesInserted (ascii "@a=b :n MODE #c +o\r\n")
      (ascii "@a=b :n MODE #c +o \r\n") :=
    .beforeCr (ascii "@a=b :n MODE #c +o") 1 (by decide)
  have inside : SpacesInserted (ascii "@a=b :n MODE #c +o \r\n")
      (ascii "@a=b :n MODE   #c +o \r\n") :=
    .afterToken (ascii "@a=b :n MODE") (ascii "#c +o \r\n") 2 (by decide)
      (by decide)
  have behindTags : SpacesInserted (ascii "@a=b :n MODE   #c +o \r\n")
      (ascii "@a=b  :n MODE   #c +o \r\n") :=
    .afterTags (ascii "a=b") (ascii ":n MODE   #c +o \r\n") 1 (by decide)
  exact .tail (.tail (.single atEnd) inside) behindTags

def modeMessage : Message where
  prefixText := ascii "n"
  command := ascii "MODE"
  params := [ascii "#c", ascii "+o"]
  tags := ⟨[(ascii "a", ascii "b")], by decide⟩

theorem parsesTo_spacedModeLine :
    ParsesTo plainPlatform (ascii "@a=b  :n MODE   #c +o \r\n") modeMessage :=
  parsesTo_of_spacesInserted plainPlatform _ _ _ ⟨_, rfl⟩
    spacesInserted_modeLine

end Birch
