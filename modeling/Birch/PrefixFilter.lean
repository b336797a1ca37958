import Birch.MessageParserRuns
import Birch.PrefixGrammar

/-!
# The octets of a prefix, while it is scanned and when it is validated

`parseStatePrefix` takes the octets of `IsPrefixChar` only, before the prefix
is validated.  Nicknames and hosts consist of such octets.  The users that
`IsUserChar` admits do not.
-/

namespace Birch

open Octet IncrementalScanner

/-- What stands between the first `!` and the `@` behind it. -/
def userSection (text : Text) : Text :=
  ((text.dropWhile (· != bang)).drop 1).takeWhile (· != at_)

/-- A parser that has just seen the colon is led over the text and a space to
the command, and keeps the text as the prefix. -/
def ScansPrefix (platform : Platform) (text : Text) : Prop :=
  ∀ message, ∃ parser filled,
    (lineScanner platform).advance (reading .parseStatePrefix [] message)
        (text ++ [space]) = some ⟨parser, filled⟩ ∧
      parser.state = .parseStateCommandNameOrNumber ∧ filled.prefixText = text

/-! ## The sections -/

theorem IsNick.no_bang {nick : Text} (isNick : IsNick nick) :
    ∀ c ∈ nick, (c != bang) = true := by
  intro c member
  simpa using (isNickChar_plain c (isNick.nickChars c member)).1

theorem IsNick.prefixChars {nick : Text} (isNick : IsNick nick) :
    ∀ c ∈ nick, isPrefixChar c = true := fun c member =>
  (isNickChar_plain c (isNick.nickChars c member)).2.2.2

theorem prefixChars_of_hostChars {host : Text}
    (chars : ∀ c ∈ host, isHostChar c = true) :
    ∀ c ∈ host, isPrefixChar c = true := fun c member =>
  (isHostChar_plain c (chars c member)).2.2.2.2

theorem userSection_userHost {nick user : Text} (isNick : IsNick nick)
    (isUser : IsUser user) (host : Text) :
    userSection (nick ++ bang :: (user ++ at_ :: host)) = user := by
  have noAt : ∀ c ∈ user, (c != at_) = true := by
    intro c member
    simpa using (isUserChar_plain c (isUser.2 c member)).1
  rw [userSection, List.dropWhile_append_of_pos isNick.no_bang]
  simp [List.takeWhile_append_of_pos noAt]

theorem isPrefixChar_bang : isPrefixChar bang = true := by
  decide

theorem isPrefixChar_at : isPrefixChar at_ = true := by
  decide

/-- Outside of the user, a valid prefix consists of scanned octets. -/
theorem octets_of_valid {platform : Platform} {text : Text}
    (valid : isValidPrefix platform text = true) :
    ∀ c ∈ text, isPrefixChar c = true ∨
      c ∈ userSection text ∧ isUserChar c = true := by
  intro c member
  rcases (isValidPrefix_grammar platform text).mp valid with
    isPrefix | ⟨nick, isNick, rfl | rfl⟩
  · cases isPrefix with
    | hostname hostname =>
        exact Or.inl (prefixChars_of_hostChars hostname.hostChars c member)
    | nick isNick => exact Or.inl (isNick.prefixChars c member)
    | nickHost isNick isHost =>
        rcases List.mem_append.mp member with inNick | behind
        · exact Or.inl (isNick.prefixChars c inNick)
        · rcases List.mem_cons.mp behind with rfl | inHost
          · exact Or.inl isPrefixChar_at
          · exact Or.inl (prefixChars_of_hostChars isHost.hostChars c inHost)
    | @nickUserHost nick user host isNick isUser isHost =>
        rw [userSection_userHost isNick isUser]
        simp only [List.mem_append, List.mem_cons] at member
        rcases member with inNick | rfl | inUser | rfl | inHost
        · exact Or.inl (isNick.prefixChars c inNick)
        · exact Or.inl isPrefixChar_bang
        · exact Or.inr ⟨inUser, isUser.2 c inUser⟩
        · exact Or.inl isPrefixChar_at
        · exact Or.inl (prefixChars_of_hostChars isHost.hostChars c inHost)
  · rcases List.mem_append.mp member with inNick | isBang
    · exact Or.inl (isNick.prefixChars c inNick)
    · rw [List.mem_singleton.mp isBang]
      exact Or.inl isPrefixChar_bang
  · rcases List.mem_append.mp member with inNick | isAt
    · exact Or.inl (isNick.prefixChars c inNick)
    · rw [List.mem_singleton.mp isAt]
      exact Or.inl isPrefixChar_at

theorem userSection_subset (text : Text) : userSection text ⊆ text := by
  intro c member
  have inRest := List.takeWhile_subset _ member
  exact List.dropWhile_subset _ (List.drop_subset _ _ inRest)

theorem space_not_mem_of_valid {platform : Platform} {text : Text}
    (valid : isValidPrefix platform text = true) : space ∉ text := by
  intro member
  rcases octets_of_valid valid space member with prefixChar | ⟨_, userChar⟩
  · exact (isPrefixChar_plain space prefixChar).2.2.2 rfl
  · exact (isUserChar_plain space userChar).2 rfl

/-! ## The scan -/

theorem step_prefix_reject {c : Octet} (notChar : isPrefixChar c = false)
    (notSpace : c ≠ space) (platform : Platform) (buffer : Text)
    (message : Message) :
    (lineScanner platform).step (reading .parseStatePrefix buffer message) c =
      (reading .parseStatePrefix buffer message, .invalid) := by
  by_cases isNul : c = nul
  · subst isNul
    rfl
  · simp [lineScanner, MessageParser.consume, MessageParser.consumePrefix,
      notChar, notSpace, isNul]

/-- A text that leads through the prefix without a space is scanned in full. -/
theorem prefixChars_of_advance {platform : Platform} {text rest buffer : Text}
    {message : Message} {final : Reader} (noSpace : space ∉ text)
    (run : (lineScanner platform).advance
      (reading .parseStatePrefix buffer message) (text ++ rest) = some final) :
    ∀ c ∈ text, isPrefixChar c = true := by
  induction text generalizing buffer with
  | nil => simp
  | cons c text ih =>
      obtain ⟨notSpace, laterNoSpace⟩ := not_or.mp (mt List.mem_cons.mpr noSpace)
      rw [List.cons_append, Scanner.advance] at run
      by_cases prefixChar : isPrefixChar c = true
      · rw [step_prefix_push platform buffer message c prefixChar] at run
        exact List.forall_mem_cons.mpr ⟨prefixChar, ih laterNoSpace run⟩
      · rw [step_prefix_reject (by simpa using prefixChar) (Ne.symm notSpace)]
          at run
        cases run

/-- A valid prefix is scanned exactly when the scanner takes the octets of its
user. -/
theorem scansPrefix_iff_userSection (platform : Platform) (text : Text)
    (valid : isValidPrefix platform text = true) :
    ScansPrefix platform text ↔
      ∀ c ∈ userSection text, isPrefixChar c = true := by
  constructor
  · intro scans c inUser
    obtain ⟨parser, filled, run, _, _⟩ := scans {}
    have chars := prefixChars_of_advance (space_not_mem_of_valid valid) run
    exact chars c (userSection_subset text inUser)
  · intro userChars message
    have chars : ∀ c ∈ text, isPrefixChar c = true := by
      intro c member
      rcases octets_of_valid valid c member with prefixChar | ⟨inUser, _⟩
      · exact prefixChar
      · exact userChars c inUser
    exact ⟨_, _, advance_prefixText platform chars valid message, rfl, rfl⟩

theorem scansPrefix_nickUserHost :
    ScansPrefix plainPlatform (ascii "nick!user@host") ↔
      ∀ c ∈ userSection (ascii "nick!user@host"), isPrefixChar c = true :=
  scansPrefix_iff_userSection plainPlatform _ (by decide)

/-- The tilde of an unidentified user is valid, and is not scanned. -/
theorem not_scansPrefix_tilde :
    isValidPrefix plainPlatform (ascii "nick!~user@host") = true ∧
      ¬ ScansPrefix plainPlatform (ascii "nick!~user@host") := by
  refine ⟨by decide, fun scans => ?_⟩
  obtain ⟨parser, filled, run, _, _⟩ := scans {}
  have chars := prefixChars_of_advance (by decide) run
  have tilde : isPrefixChar 0x7E = true := chars 0x7E (by decide)
  revert tilde
  decide

end Birch
