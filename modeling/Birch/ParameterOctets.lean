import Birch.AcceptedLines

/-!
# The octets that parameters may consist of

`IsParamStartChar` names the octets of the upper half, but compares them as
signed characters.  A line whose parameters consist of the named octets is
therefore read exactly when none of them is in the upper half.
-/

namespace Birch

open Octet IncrementalScanner

/-- The ranges of `IsParamStartChar`, of the octets themselves. -/
def namedByParamStart (c : Octet) : Bool :=
  (decide (0x3B ≤ c.toNat) && decide (c.toNat ≤ 0xFF)) ||
    (decide (0x21 ≤ c.toNat) && decide (c.toNat ≤ 0x39)) ||
    (decide (0x0E ≤ c.toNat) && decide (c.toNat ≤ 0x1F)) ||
    (decide (0x0B ≤ c.toNat) && decide (c.toNat ≤ 0x0C)) ||
    (decide (0x01 ≤ c.toNat) && decide (c.toNat ≤ 0x09))

/-- A command, middle parameters and a trailing text of the named octets. -/
structure NamedParts (command : Text) (middles : List Text)
    (text : Text) : Prop where
  command : ∀ c ∈ command, isLetter c = true
  firsts : ∀ param ∈ middles, param.head?.all namedByParamStart = true
  middles : ∀ param ∈ middles, ∀ c ∈ param,
    namedByParamStart c = true ∨ c = colon
  text : ∀ c ∈ text, namedByParamStart c = true ∨ c = colon ∨ c = space

/-- `CMD m1 ... mk :text CRLF`. -/
def commandLine (command : Text) (middles : List Text) (text : Text) : Text :=
  command ++ (middles.flatMap fun param => space :: param) ++
    space :: colon :: text ++ [cr, lf]

/-- The line is read, and its parameters are the given ones, octet for octet. -/
def ReadsParams (platform : Platform) (command : Text) (middles : List Text)
    (text : Text) : Prop :=
  ∃ message, ParsesTo platform (commandLine command middles text) message ∧
    message.params = middles ++ [text]

/-- Seen as a signed character, a named octet is recognized in the lower half
only. -/
theorem isParamStartChar_of_named (c : Octet) :
    namedByParamStart c = true → c.toNat < 128 →
      isParamStartChar c = true := by
  revert c
  exact forall_octet (by decide +kernel)

variable {platform : Platform} {command text : Text} {middles : List Text}

theorem commandLine_eq (command : Text) (middles : List Text) (text : Text) :
    commandLine command middles text =
      (command ++ [space]) ++ (middles.flatMap fun param => param ++ [space]) ++
        (colon :: text ++ [cr]) ++ [lf] := by
  have shifted : ∀ rest : Text,
      (middles.flatMap fun param => space :: param) ++ space :: rest =
        space :: (middles.flatMap fun param => param ++ [space]) ++ rest := by
    intro rest
    induction middles with
    | nil => rfl
    | cons param middles ih =>
        simp only [List.flatMap_cons, List.cons_append, List.append_assoc]
        rw [ih]
        simp
  have line := shifted (colon :: text ++ [cr, lf])
  simp only [commandLine, List.append_assoc, List.cons_append] at line ⊢
  rw [line]
  simp

theorem NamedParts.isMiddle (named : NamedParts command middles text)
    {param : Text} (member : param ∈ middles) (nonempty : param ≠ [])
    (low : ∀ c ∈ param, c.toNat < 128) : IsMiddle param := by
  cases param with
  | nil => exact absurd rfl nonempty
  | cons first rest =>
      refine ⟨?_, ?_⟩
      · have firstNamed : namedByParamStart first = true :=
          named.firsts _ member
        exact isParamStartChar_of_named first firstNamed
          (low first List.mem_cons_self)
      · intro c inRest
        have inParam := List.mem_cons_of_mem first inRest
        rcases named.middles _ member c inParam with isNamed | isColon
        · exact Or.inl (isParamStartChar_of_named c isNamed (low c inParam))
        · exact Or.inr isColon

theorem NamedParts.isTrailing (named : NamedParts command middles text)
    (low : ∀ c ∈ text, c.toNat < 128) : IsTrailing text := by
  intro c member
  rcases named.text c member with isNamed | other
  · exact Or.inl (isParamStartChar_of_named c isNamed (low c member))
  · exact Or.inr other

/-- A line of the lower half is read. -/
theorem NamedParts.readsParams (named : NamedParts command middles text)
    (nonempty : command ≠ []) (each : ∀ param ∈ middles, param ≠ [])
    (low : ∀ param ∈ middles ++ [text], ∀ c ∈ param, c.toNat < 128) :
    ReadsParams platform command middles text := by
  have isMiddle : ∀ param ∈ middles, IsMiddle param := by
    intro param member
    apply named.isMiddle member (each param member)
    exact low param (List.mem_append_left _ member)
  have isTrailing : IsTrailing text := by
    apply named.isTrailing
    exact low text (by simp)
  have head := advance_command platform (Or.inl rfl)
    (Or.inl ⟨nonempty, named.command⟩) {} (Or.inl rfl)
  have middle := advance_middles platform isMiddle
    (Message.setCommand {} command)
  have tail := advance_trailing platform isTrailing
    ((Message.setCommand {} command).addParams middles)
  have parsed := parsesTo_of_advance platform
    (Scanner.advance_trans (Scanner.advance_trans head middle) tail)
  refine ⟨((Message.setCommand {} command).addParams middles).addParam text,
    ?_, ?_⟩
  · rw [commandLine_eq]
    exact parsed
  · simp [Message.addParam, Message.addParams, Message.setCommand]

/-- No line begins with a space. -/
theorem not_parsesTo_space (rest : Text) (message : Message) :
    ¬ ParsesTo platform (space :: rest) message := by
  rw [parsesTo_iff_accepts]
  rintro ⟨parser, accepted⟩
  have rejected : (lineScanner platform).step {} space = ({}, .invalid) := rfl
  rcases Scanner.accepts_cons accepted with ⟨_, last⟩ | ⟨next, head, _⟩
  · rw [rejected] at last
    simp at last
  · rw [rejected] at head
    simp at head

/-- The octets of a parameter that is read are in the lower half. -/
theorem IsTrailing.low {param : Text} (trailing : IsTrailing param) :
    ∀ c ∈ param, c.toNat < 128 := by
  intro c member
  rcases trailing c member with start | rfl | rfl
  · exact ((isParamStartChar_iff c).mp start).1
  · decide
  · decide

/-- Parameters of the named octets are read octet for octet exactly when there
is a command, no middle parameter is empty, and no octet is in the upper half. -/
theorem readsParams_iff_lowerHalf (platform : Platform) (command : Text)
    (middles : List Text) (text : Text)
    (named : NamedParts command middles text) :
    ReadsParams platform command middles text ↔
      command ≠ [] ∧ (∀ param ∈ middles, param ≠ []) ∧
        ∀ param ∈ middles ++ [text], ∀ c ∈ param, c.toNat < 128 := by
  constructor
  · rintro ⟨message, parsed, paramsEq⟩
    have finished := finished_of_parsesTo parsed
    refine ⟨?_, ?_, ?_⟩
    · rintro rfl
      rw [commandLine_eq] at parsed
      exact not_parsesTo_space _ message parsed
    · intro param member
      have middle := finished.middles param (by
        rwa [paramsEq, List.dropLast_concat])
      exact middle.ne_nil
    · intro param member
      rw [← paramsEq] at member
      exact (finished.params param member).low
  · rintro ⟨nonempty, each, low⟩
    exact named.readsParams nonempty each low

theorem namedParts_privmsg :
    NamedParts (ascii "PRIVMSG") [ascii "#c", ascii "a:b"] (ascii "hi :x") where
  command := by decide
  firsts := by decide
  middles := by decide
  text := by decide

theorem readsParams_privmsg :
    ReadsParams plainPlatform (ascii "PRIVMSG") [ascii "#c", ascii "a:b"]
        (ascii "hi :x") ↔
      ascii "PRIVMSG" ≠ [] ∧
        (∀ param ∈ [ascii "#c", ascii "a:b"], param ≠ []) ∧
        ∀ param ∈ [ascii "#c", ascii "a:b"] ++ [ascii "hi :x"],
          ∀ c ∈ param, c.toNat < 128 :=
  readsParams_iff_lowerHalf plainPlatform _ _ _ namedParts_privmsg

/-- A letter with an accent, as two octets of the upper half. -/
def accented : Text := [0xC3, 0xA9]

theorem namedParts_accented :
    NamedParts (ascii "PRIVMSG") [ascii "#c"] accented where
  command := by decide
  firsts := by decide
  middles := by decide
  text := by decide

theorem not_readsParams_accented :
    NamedParts (ascii "PRIVMSG") [ascii "#c"] accented ∧
      (MessageParser.parse plainPlatform {} {}
        (commandLine (ascii "PRIVMSG") [ascii "#c"] accented)).1.2.2 =
          .invalid ∧
      ¬ ReadsParams plainPlatform (ascii "PRIVMSG") [ascii "#c"] accented := by
  refine ⟨namedParts_accented, by decide, ?_⟩
  rintro ⟨message, parsed, paramsEq⟩
  have finished := finished_of_parsesTo parsed
  have isTrailing := finished.params accented (by simp [paramsEq])
  exact absurd (isTrailing.low 0xC3 List.mem_cons_self) (by decide)

end Birch
