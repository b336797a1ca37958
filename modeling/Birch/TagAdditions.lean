import Birch.LinkedHashMapWrites
import Birch.MessageParser

/-!
# Adding tags to a message

The overload of `AddTag` for strings that may be moved from does not replace
the value of a key that is there, the other one does.  Every call that adds a
tag reaches one of the two.
-/

namespace Birch

open Octet LinkedHashMap

/-- The calls that add a tag: to the message, to its builder, or by the parser
at the end of a tag. -/
inductive TagCall
  | addTag (key value : Text)
  | addTagMoved (key value : Text)
  | withTag (key value : Text)
  | withTagMoved (key value : Text)
  | parsedKey (buffer : Text) (nonempty : buffer ≠ [])
  | parsedKeyValue (buffer : Text) (last : Bool)

namespace TagCall

/-- The octet behind a tag with a `=`. -/
def terminator (last : Bool) : Octet :=
  if last then space else semicolon

def run (message : Message) : TagCall → Message
  | addTag key value => message.addTag key value
  | addTagMoved key value => message.addTagMoved key value
  | withTag key value =>
      (MessageBuilder.withTag ⟨message⟩ key value).build
  | withTagMoved key value =>
      (MessageBuilder.withTagMoved ⟨message⟩ key value).build
  | parsedKey buffer _ =>
      (MessageParser.consumeTagKey ⟨.parseStateTagKey, buffer⟩ message space).2.1
  | parsedKeyValue buffer last =>
      (MessageParser.consumeTagValue ⟨.parseStateTagValue, buffer⟩ message
        (terminator last)).2.1

/-- The key and the value that are passed, and whether by the overload that
copies them. -/
def passed : TagCall → Write Text Text
  | addTag key value => ⟨key, value, true⟩
  | addTagMoved key value => ⟨key, value, false⟩
  | withTag key value => ⟨key, value, true⟩
  | withTagMoved key value => ⟨key, value, false⟩
  | parsedKey buffer _ => ⟨buffer, [], false⟩
  | parsedKeyValue buffer _ =>
      ⟨(splitTag buffer).1, (splitTag buffer).2, true⟩

def key (call : TagCall) : Text :=
  call.passed.key

def value (call : TagCall) : Text :=
  call.passed.value

def copies (call : TagCall) : Bool :=
  call.passed.assigns

/-- A call of the other overload, with equal arguments. -/
def otherOverload : TagCall → TagCall
  | addTag key value => addTagMoved key value
  | addTagMoved key value => addTag key value
  | withTag key value => withTagMoved key value
  | withTagMoved key value => withTag key value
  | parsedKey buffer _ => addTag buffer []
  | parsedKeyValue buffer _ =>
      addTagMoved (splitTag buffer).1 (splitTag buffer).2

theorem passed_otherOverload (call : TagCall) :
    call.otherOverload.passed = call.passed.swap := by
  cases call <;> rfl

theorem run_eq (message : Message) (call : TagCall) :
    call.run message =
      { message with tags := message.tags.write call.passed } := by
  cases call with
  | addTag key value => rfl
  | addTagMoved key value => rfl
  | withTag key value => rfl
  | withTagMoved key value => rfl
  | parsedKey buffer nonempty =>
      have notKey : isTagKeyChar space = false := by decide
      have notEquals : (space == equals) = false := by decide
      simp [run, MessageParser.consumeTagKey, notKey, notEquals, nonempty,
        Message.addTagMoved, passed, write]
  | parsedKeyValue buffer last => cases last <;> rfl

end TagCall

/-- A new message, after the calls. -/
def runCalls (calls : List TagCall) : Message :=
  calls.foldl TagCall.run {}

theorem runCalls_eq (calls : List TagCall) :
    runCalls calls = { tags := writeAll ∅ (calls.map TagCall.passed) } := by
  induction calls using List.reverseRecOn with
  | nil => rfl
  | append_singleton calls last ih =>
      rw [runCalls, List.foldl_append, ← runCalls, ih, List.map_append,
        List.map_singleton, writeAll_concat]
      exact last.run_eq _

/-- The keys are in the order of their first additions, and each of them has
the value of its last addition. -/
def LastWriteWins (calls : List TagCall) : Prop :=
  (runCalls calls).tags.keys = writtenKeys (calls.map TagCall.passed) ∧
    ∀ key, (runCalls calls).tags.lookup key =
      lastWritten (calls.map TagCall.passed) key

/-- The value of the last call for a key that is the first one for it or copies
its arguments. -/
def standingValue (calls : List TagCall) (key : Text) : Option Text :=
  lastStanding (calls.map TagCall.passed) key

theorem map_key_passed (calls : List TagCall) :
    (calls.map TagCall.passed).map Write.key = calls.map TagCall.key := by
  simp [TagCall.key]

/-- The last write wins exactly if every call of the moving overload that is
the last for its key, and not the first, repeats the value that stands. -/
theorem lastWriteWins_iff (calls : List TagCall) :
    LastWriteWins calls ↔
      ∀ before call after, calls = before ++ call :: after →
        call.copies = false → call.key ∈ before.map TagCall.key →
          call.key ∉ after.map TagCall.key →
            standingValue before call.key = some call.value := by
  have keysEq := keys_writeAll (calls.map TagCall.passed)
  have valuesEq := lastStanding_eq_lastWritten_iff (calls.map TagCall.passed)
  simp only [LastWriteWins, runCalls_eq, keysEq, lookup_writeAll, true_and,
    valuesEq]
  constructor
  · rintro each before call after rfl
    have atCall := each (before.map TagCall.passed) call.passed
      (after.map TagCall.passed) (by simp)
    rw [map_key_passed, map_key_passed] at atCall
    exact atCall
  · intro each before entry after callsEq
    obtain ⟨first, others, rfl, rfl, othersEq⟩ :=
      List.map_eq_append_iff.mp callsEq
    obtain ⟨call, later, rfl, rfl, rfl⟩ := List.map_eq_cons_iff.mp othersEq
    rw [map_key_passed, map_key_passed]
    exact each first call later rfl

/-- One call may be replaced by the other overload exactly if it is the first
for its key, a later one copies a value for the key, or it repeats the value
that stands. -/
theorem runCalls_otherOverload_iff (before after : List TagCall)
    (call : TagCall) :
    runCalls (before ++ call.otherOverload :: after) =
        runCalls (before ++ call :: after) ↔
      call.key ∉ before.map TagCall.key ∨
        (∃ later ∈ after, later.key = call.key ∧ later.copies = true) ∨
        standingValue before call.key = some call.value := by
  have swapped := writeAll_swap_iff (before.map TagCall.passed)
    (after.map TagCall.passed) call.passed
  rw [map_key_passed] at swapped
  simp only [runCalls_eq, List.map_append, List.map_cons,
    TagCall.passed_otherOverload, Message.mk.injEq, true_and]
  rw [swapped]
  simp [standingValue, TagCall.key, TagCall.value, TagCall.copies]

/-- A sequence of additions, and each call of it. -/
theorem lastWriteWins_and_otherOverload_iff (calls : List TagCall) :
    (LastWriteWins calls ↔
      ∀ before call after, calls = before ++ call :: after →
        call.copies = false → call.key ∈ before.map TagCall.key →
          call.key ∉ after.map TagCall.key →
            standingValue before call.key = some call.value) ∧
    ∀ before call after, calls = before ++ call :: after →
      (runCalls (before ++ call.otherOverload :: after) = runCalls calls ↔
        call.key ∉ before.map TagCall.key ∨
          (∃ later ∈ after, later.key = call.key ∧ later.copies = true) ∨
          standingValue before call.key = some call.value) := by
  refine ⟨lastWriteWins_iff calls, ?_⟩
  rintro before call after rfl
  exact runCalls_otherOverload_iff before after call

/-- The calls for the line `@a=1;a QUIT`. -/
def repeatedKey : List TagCall :=
  [.parsedKeyValue (ascii "a=1") false, .parsedKey (ascii "a") (by decide)]

def firstValueKept : Message where
  tags := ⟨[(ascii "a", ascii "1")], by decide⟩

/-- The line ends with an empty value for its key, which is lost. -/
theorem not_lastWriteWins_repeatedKey :
    ParsesTo plainPlatform (ascii "@a=1;a QUIT\r\n")
        { firstValueKept with command := ascii "QUIT" } ∧
      runCalls repeatedKey = firstValueKept ∧ ¬ LastWriteWins repeatedKey := by
  refine ⟨⟨_, rfl⟩, by decide, fun wins => ?_⟩
  have value := wins.2 (ascii "a")
  revert value
  decide

end Birch
