import Birch.AcceptedLines
import Birch.MessageRoundTrip

/-!
# Channel names in messages

`IsValidChannelName` rejects a few octets, and the parser accepts a class of
them.  A valid name comes back from a message exactly when its octets are of
that class.
-/

namespace Birch

open Octet

/-- The characters that are looked for in a name. -/
def invalidChars : Text :=
  [0x2C, colon, space, 0x07]

def isValidChannelName (name : Text) : Bool :=
  if name.length ≤ 1 then
    false
  else if name.head? != some 0x26 && name.head? != some 0x23 &&
      name.head? != some plus && name.head? != some bang then
    false
  else if name.length > 50 then
    false
  else if name.any fun c => invalidChars.contains c then
    false
  else
    true

/-- A parameter of printable ASCII that need not be marked. -/
structure PlainParam (param : Text) : Prop where
  nonempty : param ≠ []
  printable : ∀ c ∈ param, 0x21 ≤ c.toNat ∧ c.toNat ≤ 0x7E
  noColon : param.head? ≠ some colon

/-- A message with the name among its parameters. -/
def channelMessage (command : Text) (before : List Text) (name : Text)
    (after : List Text) : Message where
  command := command
  params := before ++ name :: after

/-- What is written for the message is one line, and it is read with the same
parameters. -/
def SurvivesTransport (platform : Platform) (message : Message) : Prop :=
  ∀ buffer : Text, computeRequiredSpace message ≤ buffer.length →
    ∃ written size result, writeToBuffer buffer message = some (written, size) ∧
      ParsesTo platform (written.take size) result ∧
      result.params = message.params

/-- What is valid of the octets of a name. -/
theorem octets_of_validName {name : Text}
    (valid : isValidChannelName name = true) :
    name ≠ [] ∧ space ∉ name ∧ name.head? ≠ some colon := by
  unfold isValidChannelName at valid
  split at valid
  · cases valid
  · rename_i long
    split at valid
    · cases valid
    · split at valid
      · cases valid
      · split at valid
        · cases valid
        · rename_i clean
          have absent : ∀ c ∈ name, c ∉ invalidChars := by
            simpa using clean
          refine ⟨?_, ?_, ?_⟩
          · rintro rfl
            exact long (by simp)
          · intro member
            exact absent space member (by decide)
          · intro head
            exact absent colon (List.mem_of_head? head) (by decide)

/-- What may be sent in a parameter without a marker. -/
structure Unmarked (param : Text) : Prop where
  octets : ∀ c ∈ param, 0x01 ≤ c.toNat ∧ c.toNat ≤ 0x7F ∧ c ≠ cr ∧ c ≠ lf
  middle : param ≠ [] ∧ space ∉ param ∧ param.head? ≠ some colon

theorem PlainParam.unmarked {param : Text} (plain : PlainParam param) :
    Unmarked param := by
  have outside (c : Octet) (low : c.toNat < 0x21) : c ∉ param := by
    intro member
    have printable := plain.printable c member
    omega
  refine ⟨?_, plain.nonempty, outside space (by decide), plain.noColon⟩
  intro c member
  have printable := plain.printable c member
  refine ⟨by omega, by omega, ?_, ?_⟩
  · rintro rfl
    exact outside cr (by decide) member
  · rintro rfl
    exact outside lf (by decide) member

/-- The octets that a parameter is read with. -/
def ReadableName (name : Text) : Prop :=
  ∀ c ∈ name, c ≠ nul ∧ c ≠ lf ∧ c ≠ cr ∧ c.toNat < 128

theorem unmarked_of_readable {name : Text}
    (valid : isValidChannelName name = true) (readable : ReadableName name) :
    Unmarked name := by
  refine ⟨?_, octets_of_validName valid⟩
  intro c member
  obtain ⟨notNul, notLf, notCr, low⟩ := readable c member
  have positive : 0 < c.toNat := by
    by_contra none
    exact notNul (UInt8.toNat_inj.mp (Nat.eq_zero_of_not_pos none))
  exact ⟨positive, by omega, notCr, notLf⟩

variable {platform : Platform} {command name : Text} {before after : List Text}

theorem sendable_channelMessage
    (letters : command ≠ [] ∧ ∀ c ∈ command, isLetter c = true)
    (plain : ∀ param ∈ before ++ after, PlainParam param)
    (unmarked : Unmarked name) :
    Sendable platform (channelMessage command before name after) := by
  have each (param : Text) (member : param ∈ before ++ name :: after) :
      Unmarked param := by
    rcases List.mem_append.mp member with inBefore | behind
    · exact (plain param (List.mem_append_left _ inBefore)).unmarked
    · rcases List.mem_cons.mp behind with rfl | inAfter
      · exact unmarked
      · exact (plain param (List.mem_append_right _ inAfter)).unmarked
  exact
    { noTags := rfl
      prefixText := Or.inl rfl
      command := Or.inl letters
      octets := fun param member => (each param member).octets
      middles := fun param member =>
        (each param (List.dropLast_subset _ member)).middle }

/-- The octets of a parameter that is read. -/
theorem readable_of_trailing (trailing : IsTrailing name) :
    ReadableName name := by
  intro c member
  rcases trailing c member with start | rfl | rfl
  · obtain ⟨low, notNul, notLf, notCr, _, _⟩ := (isParamStartChar_iff c).mp start
    exact ⟨notNul, notLf, notCr, low⟩
  · decide
  · decide

/-- A valid channel name survives among plain parameters exactly if it has no
NUL and no line break, and none of the upper half of the octets. -/
theorem survivesTransport_iff_readable (platform : Platform)
    (command name : Text) (before after : List Text)
    (letters : command ≠ [] ∧ ∀ c ∈ command, isLetter c = true)
    (plain : ∀ param ∈ before ++ after, PlainParam param)
    (valid : isValidChannelName name = true) :
    SurvivesTransport platform (channelMessage command before name after) ↔
      ReadableName name := by
  constructor
  · intro survives
    have room : computeRequiredSpace (channelMessage command before name after) ≤
        (List.replicate (computeRequiredSpace
          (channelMessage command before name after)) nul).length := by simp
    obtain ⟨written, size, result, _, parsed, paramsEq⟩ := survives _ room
    have member : name ∈ result.params := by
      rw [paramsEq]
      exact List.mem_append_right _ List.mem_cons_self
    exact readable_of_trailing ((finished_of_parsesTo parsed).params name member)
  · intro readable buffer room
    obtain ⟨written, size, wrote, taken⟩ := exists_written room
    refine ⟨written, size, _, wrote, ?_, rfl⟩
    rw [taken]
    exact (sendable_channelMessage letters plain
      (unmarked_of_readable valid readable)).parsesTo

theorem survivesTransport_join :
    SurvivesTransport plainPlatform
        (channelMessage (ascii "JOIN") [] (ascii "#birch") [ascii "key"]) ↔
      ReadableName (ascii "#birch") :=
  survivesTransport_iff_readable plainPlatform _ _ [] [ascii "key"] (by decide)
    (by
      intro param member
      rw [List.mem_singleton.mp member]
      exact ⟨by decide, by decide, by decide⟩)
    (by decide)

/-- A valid name with a line break in it: a second command is read from the
line. -/
def injectingName : Text :=
  ascii "#a\r\nQUIT"

theorem not_survivesTransport_injectingName :
    isValidChannelName injectingName = true ∧
      wire (channelMessage (ascii "JOIN") [] injectingName []) =
        ascii "JOIN #a\r\nQUIT\r\n" ∧
      ParsesTo plainPlatform (ascii "JOIN #a\r\n")
        { command := ascii "JOIN", params := [ascii "#a"] } ∧
      ¬ SurvivesTransport plainPlatform
        (channelMessage (ascii "JOIN") [] injectingName []) := by
  refine ⟨by decide, by decide, ⟨_, rfl⟩, fun survives => ?_⟩
  obtain ⟨written, size, result, _, parsed, paramsEq⟩ :=
    survives (List.replicate 64 nul) (by decide)
  have member : injectingName ∈ result.params := by
    rw [paramsEq]
    exact List.mem_append_right _ List.mem_cons_self
  have readable :=
    readable_of_trailing ((finished_of_parsesTo parsed).params _ member)
  exact (readable cr (by decide)).2.2.1 rfl

end Birch
