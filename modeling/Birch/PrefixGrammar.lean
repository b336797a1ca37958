import Birch.MessagePrefix
import Mathlib.Data.List.TakeWhile

/-!
# The grammar of message prefixes

A prefix is a server name, or a nickname with an optional user and host.
`IsPrefix` states the grammar on its own.  `IsValidPrefix` accepts the grammar
and, because an empty last section looks like an absent one to it, nicknames
with a dangling `!` or `@`.
-/

namespace Birch

open Octet

/-! ## The grammar -/

def isLabelChar (c : Octet) : Bool :=
  isLetter c || isDigit c || c == dash

def isNickChar (c : Octet) : Bool :=
  isLetter c || isDigit c || isSpecial c || c == dash

def isHostChar (c : Octet) : Bool :=
  isLetter c || isDigit c || c == dot || c == colon || c == dash

def IsLabel : Text → Prop
  | [] => False
  | first :: rest =>
      (isLetter first = true ∨ isDigit first = true) ∧
        ∀ c ∈ rest, isLabelChar c = true

/-- One or more labels, joined by single dots. -/
def IsHostname (text : Text) : Prop :=
  ∃ labels : List Text, labels ≠ [] ∧ (∀ label ∈ labels, IsLabel label) ∧
    text = [dot].intercalate labels

def IsNick : Text → Prop
  | [] => False
  | first :: rest =>
      rest.length < 9 ∧ (isLetter first = true ∨ isSpecial first = true) ∧
        ∀ c ∈ rest, isNickChar c = true

def IsUser (text : Text) : Prop :=
  text ≠ [] ∧ ∀ c ∈ text, isUserChar c = true

def IsHost (platform : Platform) (text : Text) : Prop :=
  text ≠ [] ∧
    (IsHostname text ∨
      (∀ c ∈ text, isHostChar c = true) ∧ platform.makeAddress text = true)

inductive IsPrefix (platform : Platform) : Text → Prop
  | hostname {text : Text} : IsHostname text → IsPrefix platform text
  | nick {nick : Text} : IsNick nick → IsPrefix platform nick
  | nickHost {nick host : Text} :
      IsNick nick → IsHost platform host →
        IsPrefix platform (nick ++ at_ :: host)
  | nickUserHost {nick user host : Text} :
      IsNick nick → IsUser user → IsHost platform host →
        IsPrefix platform (nick ++ bang :: (user ++ at_ :: host))

/-- A nickname, and the beginning of a section that is not there. -/
def EmptyLastSection (text : Text) : Prop :=
  ∃ nick, IsNick nick ∧ (text = nick ++ [bang] ∨ text = nick ++ [at_])

/-! ## The octets of the sections -/

theorem isLabelChar_plain (c : Octet) :
    isLabelChar c = true →
      c ≠ bang ∧ c ≠ at_ ∧ c ≠ dot ∧ isHostChar c = true := by
  revert c
  exact forall_octet (by decide +kernel)

theorem isNickChar_plain (c : Octet) :
    isNickChar c = true →
      c ≠ bang ∧ c ≠ at_ ∧ c ≠ space ∧ isPrefixChar c = true := by
  revert c
  exact forall_octet (by decide +kernel)

theorem isHostChar_plain (c : Octet) :
    isHostChar c = true →
      c ≠ nul ∧ c ≠ bang ∧ c ≠ at_ ∧ c ≠ space ∧ isPrefixChar c = true := by
  revert c
  exact forall_octet (by decide +kernel)

theorem isUserChar_plain (c : Octet) :
    isUserChar c = true → c ≠ at_ ∧ c ≠ space := by
  revert c
  exact forall_octet (by decide +kernel)

/-- The class that the host section is scanned with. -/
theorem isHostChar_eq (c : Octet) :
    (isLetter c || isHex c || c == dot || c == colon || c == dash) =
      isHostChar c := by
  revert c
  exact forall_octet (by decide +kernel)

theorem IsLabel.labelChars {label : Text} (isLabel : IsLabel label) :
    ∀ c ∈ label, isLabelChar c = true := by
  cases label with
  | nil => exact isLabel.elim
  | cons first rest =>
      refine List.forall_mem_cons.mpr ⟨?_, isLabel.2⟩
      rcases isLabel.1 with letter | digit
      · simp [isLabelChar, letter]
      · simp [isLabelChar, digit]

theorem IsNick.nickChars {nick : Text} (isNick : IsNick nick) :
    ∀ c ∈ nick, isNickChar c = true := by
  cases nick with
  | nil => exact isNick.elim
  | cons first rest =>
      refine List.forall_mem_cons.mpr ⟨?_, isNick.2.2⟩
      rcases isNick.2.1 with letter | special
      · simp [isNickChar, letter]
      · simp [isNickChar, special]

theorem IsNick.ne_nil {nick : Text} (isNick : IsNick nick) : nick ≠ [] := by
  rintro rfl
  exact isNick

theorem IsNick.length_le {nick : Text} (isNick : IsNick nick) :
    nick.length ≤ 9 := by
  cases nick with
  | nil => exact Nat.zero_le _
  | cons first rest => exact isNick.1

theorem intercalate_cons (label : Text) (labels : List Text) :
    [dot].intercalate (label :: labels) =
      label ++ labels.flatMap fun other => dot :: other := by
  induction labels generalizing label with
  | nil => simp
  | cons next labels ih =>
      rw [List.intercalate_cons_cons, ih next]
      simp

theorem IsHostname.hostChars {text : Text} (hostname : IsHostname text) :
    ∀ c ∈ text, isHostChar c = true := by
  obtain ⟨labels, nonempty, areLabels, rfl⟩ := hostname
  have inLabel : ∀ label ∈ labels, ∀ c ∈ label, isHostChar c = true := by
    intro label member c inText
    exact (isLabelChar_plain c ((areLabels label member).labelChars c inText)).2.2.2
  cases labels with
  | nil => exact absurd rfl nonempty
  | cons label labels =>
      rw [intercalate_cons]
      intro c member
      rcases List.mem_append.mp member with inFirst | inOthers
      · exact inLabel label List.mem_cons_self c inFirst
      · obtain ⟨other, otherMem, inOther⟩ := List.mem_flatMap.mp inOthers
        rcases List.mem_cons.mp inOther with rfl | inText
        · decide
        · exact inLabel other (List.mem_cons_of_mem _ otherMem) c inText

theorem IsHostname.ne_nil {text : Text} (hostname : IsHostname text) :
    text ≠ [] := by
  obtain ⟨labels, nonempty, areLabels, rfl⟩ := hostname
  rcases labels with _ | ⟨_ | ⟨first, rest⟩, labels⟩
  · exact absurd rfl nonempty
  · exact (areLabels [] List.mem_cons_self).elim
  · simp [intercalate_cons]

theorem IsHost.hostChars {platform : Platform} {host : Text}
    (isHost : IsHost platform host) : ∀ c ∈ host, isHostChar c = true := by
  rcases isHost.2 with hostname | ⟨chars, _⟩
  · exact hostname.hostChars
  · exact chars

/-! ## Server names -/

theorem hostnameLoop_label {label : Text}
    (chars : ∀ c ∈ label, isLabelChar c = true) (rest : Text) :
    hostnameLoop false (label ++ rest) = hostnameLoop false rest := by
  induction label with
  | nil => rfl
  | cons c label ih =>
      obtain ⟨here, later⟩ := List.forall_mem_cons.mp chars
      obtain ⟨notBang, notAt, _, _⟩ := isLabelChar_plain c here
      have inside : ¬ (c == bang || c == at_) = true := by
        simp [notBang, notAt]
      have continues : (isLetter c || isDigit c || (!false && c == dash)) =
          true := here
      rw [List.cons_append, hostnameLoop, if_neg inside, if_pos continues]
      exact ih later

theorem hostnameLoop_start {first : Octet}
    (kind : isLetter first = true ∨ isDigit first = true) (rest : Text) :
    hostnameLoop true (first :: rest) = hostnameLoop false rest := by
  have labelChar : isLabelChar first = true := by
    simp [isLabelChar, kind]
  obtain ⟨notBang, notAt, _, _⟩ := isLabelChar_plain first labelChar
  have inside : ¬ (first == bang || first == at_) = true := by
    simp [notBang, notAt]
  have continues : (isLetter first || isDigit first || (!true && first == dash)) =
      true := by
    simpa using kind
  rw [hostnameLoop, if_neg inside, if_pos continues]

theorem hostnameLoop_dot (rest : Text) :
    hostnameLoop false (dot :: rest) = hostnameLoop true rest := by
  rfl

theorem hostnameLoop_labels {label : Text} (isLabel : IsLabel label)
    {labels : List Text} (areLabels : ∀ other ∈ labels, IsLabel other) :
    hostnameLoop true (label ++ labels.flatMap fun other => dot :: other) =
      some false := by
  induction labels generalizing label with
  | nil =>
      cases label with
      | nil => exact isLabel.elim
      | cons first rest =>
          have run := hostnameLoop_label isLabel.2 []
          rw [List.append_nil] at run
          simp [hostnameLoop_start isLabel.1, run, hostnameLoop]
  | cons next labels ih =>
      obtain ⟨isNext, later⟩ := List.forall_mem_cons.mp areLabels
      cases label with
      | nil => exact isLabel.elim
      | cons first rest =>
          rw [List.cons_append, hostnameLoop_start isLabel.1,
            hostnameLoop_label isLabel.2, List.flatMap_cons, List.cons_append,
            hostnameLoop_dot, ih isNext later]

/-- What is left of a hostname, at the start of a label or inside of one. -/
def HostnameRest (shortnameStart : Bool) (text : Text) : Prop :=
  ∃ (label : Text) (labels : List Text),
    (if shortnameStart then IsLabel label
      else ∀ c ∈ label, isLabelChar c = true) ∧
    (∀ other ∈ labels, IsLabel other) ∧
    text = label ++ labels.flatMap fun other => dot :: other

theorem hostnameRest_of_loop {shortnameStart : Bool} {text : Text}
    (looped : hostnameLoop shortnameStart text = some false) :
    HostnameRest shortnameStart text := by
  induction text generalizing shortnameStart with
  | nil =>
      rw [hostnameLoop, Option.some.injEq] at looped
      subst looped
      exact ⟨[], [], by simp, by simp, rfl⟩
  | cons c rest ih =>
      rw [hostnameLoop] at looped
      split at looped
      · cases looped
      · split at looped
        · rename_i continues
          obtain ⟨label, labels, chars, areLabels, rfl⟩ := ih looped
          refine ⟨c :: label, labels, ?_, areLabels, rfl⟩
          simp only [Bool.false_eq_true, if_false] at chars
          cases shortnameStart with
          | true => exact ⟨by simpa using continues, chars⟩
          | false =>
              exact List.forall_mem_cons.mpr
                ⟨by simpa [isLabelChar] using continues, chars⟩
        · split at looped
          · rename_i isDot
            simp only [Bool.and_eq_true, beq_iff_eq,
              Bool.not_eq_true'] at isDot
            obtain ⟨rfl, rfl⟩ := isDot
            obtain ⟨label, labels, isLabel, areLabels, rfl⟩ := ih looped
            refine ⟨[], label :: labels, by simp, ?_, by simp⟩
            exact List.forall_mem_cons.mpr ⟨isLabel, areLabels⟩
          · cases looped

theorem isValidHostname_eq_true {text : Text} :
    isValidHostname text = true ↔
      text ≠ [] ∧ hostnameLoop true text = some false := by
  unfold isValidHostname
  split
  · rename_i empty
    simp [List.isEmpty_iff.mp empty]
  · rename_i nonempty
    have notNil : text ≠ [] := by simpa using nonempty
    split
    · rename_i stopped
      simp [stopped]
    · rename_i shortnameStart looped
      simp [looped, notNil]

theorem isValidHostname_iff (text : Text) :
    isValidHostname text = true ↔ IsHostname text := by
  rw [isValidHostname_eq_true]
  constructor
  · rintro ⟨_, looped⟩
    obtain ⟨label, labels, isLabel, areLabels, rfl⟩ :=
      hostnameRest_of_loop looped
    refine ⟨label :: labels, List.cons_ne_nil _ _, ?_, ?_⟩
    · exact List.forall_mem_cons.mpr ⟨isLabel, areLabels⟩
    · rw [intercalate_cons]
  · intro hostname
    refine ⟨hostname.ne_nil, ?_⟩
    obtain ⟨labels, nonempty, areLabels, rfl⟩ := hostname
    cases labels with
    | nil => exact absurd rfl nonempty
    | cons label labels =>
        obtain ⟨isLabel, others⟩ := List.forall_mem_cons.mp areLabels
        rw [intercalate_cons]
        exact hostnameLoop_labels isLabel others

/-- The labels of a hostname are what stands between its dots. -/
theorem isHostname_iff_splitOn (text : Text) :
    IsHostname text ↔ ∀ label ∈ text.splitOn dot, IsLabel label := by
  constructor
  · rintro ⟨labels, nonempty, areLabels, rfl⟩
    have noDots : ∀ label ∈ labels, dot ∉ label := by
      intro label member dotMem
      have labelChar := (areLabels label member).labelChars dot dotMem
      exact (isLabelChar_plain dot labelChar).2.2.1 rfl
    rw [List.splitOn_intercalate dot noDots nonempty]
    exact areLabels
  · intro areLabels
    exact ⟨text.splitOn dot, List.splitOn_ne_nil dot text, areLabels,
      (List.intercalate_splitOn dot).symm⟩

/-- The scanner accepts the nonempty labels joined by single dots, and these
are the strings with a label before, between and behind the dots. -/
theorem isValidHostname_labels (text : Text) :
    (isValidHostname text = true ↔
      ∃ labels : List Text, labels ≠ [] ∧ (∀ label ∈ labels, IsLabel label) ∧
        text = [dot].intercalate labels) ∧
      (isValidHostname text = true ↔
        ∀ label ∈ text.splitOn dot, IsLabel label) := by
  constructor
  · exact isValidHostname_iff text
  · rw [isValidHostname_iff, isHostname_iff_splitOn]

-- a hyphen may end a label, not begin one
example : isValidHostname [0x61, dash, dot, 0x39] = true := by decide

example : isValidHostname [0x61, dot, dash, 0x39] = false := by decide

/-! ## The sections of a user's prefix -/

theorem prefixScanStep_nick {nickLen : Nat} {c : Octet}
    (kind : isLetter c = true ∨ isSpecial c = true ∨
      nickLen ≠ 0 ∧ isNickChar c = true) (cur : Text) :
    prefixScanStep { nickLen := nickLen } c cur =
      some { nickLen := nickLen + 1 } := by
  by_cases named : isLetter c = true ∨ isSpecial c = true
  · simp [prefixScanStep, named]
  · have entered : nickLen ≠ 0 ∧ isNickChar c = true := by
      rcases kind with letter | special | entered
      · exact absurd (Or.inl letter) named
      · exact absurd (Or.inr special) named
      · exact entered
    obtain ⟨notLetter, notSpecial⟩ := not_or.mp named
    have continues : isDigit c = true ∨ c = dash := by
      simpa [isNickChar, notLetter, notSpecial] using entered.2
    simp [prefixScanStep, notLetter, notSpecial, continues, entered.1]

theorem prefixScanLoop_nickRest {nickLen : Nat} (entered : nickLen ≠ 0)
    {nick : Text} (chars : ∀ c ∈ nick, isNickChar c = true) (rest : Text) :
    prefixScanLoop { nickLen := nickLen } (nick ++ rest) =
      prefixScanLoop { nickLen := nickLen + nick.length } rest := by
  induction nick generalizing nickLen with
  | nil => rfl
  | cons c nick ih =>
      obtain ⟨here, later⟩ := List.forall_mem_cons.mp chars
      rw [List.cons_append, prefixScanLoop,
        prefixScanStep_nick (Or.inr (Or.inr ⟨entered, here⟩)), Option.bind_some,
        ih (Nat.add_one_ne_zero nickLen) later, List.length_cons, Nat.add_assoc,
        Nat.add_comm 1]

theorem IsNick.scan {nick : Text} (isNick : IsNick nick) (rest : Text) :
    prefixScanLoop {} (nick ++ rest) =
      prefixScanLoop { nickLen := nick.length } rest := by
  cases nick with
  | nil => exact isNick.elim
  | cons first nick =>
      have start : isLetter first = true ∨ isSpecial first = true ∨
          0 ≠ 0 ∧ isNickChar first = true := by
        rcases isNick.2.1 with letter | special
        · exact Or.inl letter
        · exact Or.inr (Or.inl special)
      rw [List.cons_append, prefixScanLoop, prefixScanStep_nick start,
        Option.bind_some, prefixScanLoop_nickRest (by simp) isNick.2.2,
        List.length_cons, Nat.zero_add, Nat.add_comm]

/-- The scan behind the `!` of a nickname. -/
abbrev scanningUser (nickLen userLen : Nat) (userStart : Text) : PrefixScan where
  state := .vsUser
  nickLen := nickLen
  userLen := userLen
  userStart := userStart

/-- The scan behind the `@`. -/
abbrev scanningHost (nickLen userLen : Nat) (userStart hostStart : Text) :
    PrefixScan where
  state := .vsHost
  nickLen := nickLen
  userLen := userLen
  userStart := userStart
  hostStart := hostStart

theorem prefixScanLoop_bang (nickLen : Nat) (cur : Text) :
    prefixScanLoop { nickLen := nickLen } (bang :: cur) =
      prefixScanLoop (scanningUser nickLen 0 cur) cur := by
  rfl

theorem prefixScanLoop_at (nickLen : Nat) (cur : Text) :
    prefixScanLoop { nickLen := nickLen } (at_ :: cur) =
      prefixScanLoop (scanningHost nickLen 0 [] cur) cur := by
  rfl

theorem prefixScanLoop_user (nickLen userLen : Nat) (userStart : Text)
    {user : Text} (chars : ∀ c ∈ user, isUserChar c = true) (rest : Text) :
    prefixScanLoop (scanningUser nickLen userLen userStart) (user ++ rest) =
      prefixScanLoop (scanningUser nickLen (userLen + user.length) userStart)
        rest := by
  induction user generalizing userLen with
  | nil => rfl
  | cons c user ih =>
      obtain ⟨here, later⟩ := List.forall_mem_cons.mp chars
      have stepped : prefixScanStep (scanningUser nickLen userLen userStart) c
          (user ++ rest) =
            some (scanningUser nickLen (userLen + 1) userStart) := by
        simp [prefixScanStep, here]
      rw [List.cons_append, prefixScanLoop, stepped, Option.bind_some, ih _ later,
        List.length_cons, Nat.add_assoc, Nat.add_comm 1]

theorem prefixScanLoop_userAt (nickLen userLen : Nat) (userStart cur : Text) :
    prefixScanLoop (scanningUser nickLen userLen userStart) (at_ :: cur) =
      prefixScanLoop (scanningHost nickLen userLen userStart cur) cur := by
  rfl

theorem prefixScanLoop_host (nickLen userLen : Nat) (userStart hostStart : Text)
    {host : Text} (chars : ∀ c ∈ host, isHostChar c = true) :
    prefixScanLoop (scanningHost nickLen userLen userStart hostStart) host =
      some (scanningHost nickLen userLen userStart hostStart) := by
  induction host with
  | nil => rfl
  | cons c host ih =>
      obtain ⟨here, later⟩ := List.forall_mem_cons.mp chars
      rw [prefixScanLoop, prefixScanStep]
      simp only [isHostChar_eq, here, if_true, Option.bind_some]
      exact ih later

/-! ## What a scan has read -/

theorem host_of_prefixScanLoop {nickLen userLen : Nat}
    {userStart hostStart text : Text} {scan : PrefixScan}
    (scanned : prefixScanLoop
      (scanningHost nickLen userLen userStart hostStart) text = some scan) :
    (∀ c ∈ text, isHostChar c = true) ∧
      scan = scanningHost nickLen userLen userStart hostStart := by
  induction text with
  | nil => exact ⟨by simp, (Option.some.inj scanned).symm⟩
  | cons c text ih =>
      simp only [prefixScanLoop, prefixScanStep, isHostChar_eq] at scanned
      split at scanned
      · rename_i hostChar
        obtain ⟨chars, scanEq⟩ := ih scanned
        exact ⟨List.forall_mem_cons.mpr ⟨hostChar, chars⟩, scanEq⟩
      · cases scanned

theorem user_of_prefixScanLoop {nickLen userLen : Nat} {userStart text : Text}
    {scan : PrefixScan}
    (scanned : prefixScanLoop (scanningUser nickLen userLen userStart) text =
      some scan) :
    (scan = scanningUser nickLen (userLen + text.length) userStart) ∨
      ∃ user host, text = user ++ at_ :: host ∧
        (∀ c ∈ user, isUserChar c = true) ∧
        (∀ c ∈ host, isHostChar c = true) ∧
        scan = scanningHost nickLen (userLen + user.length) userStart host := by
  induction text generalizing userLen with
  | nil => exact Or.inl (Option.some.inj scanned).symm
  | cons c text ih =>
      simp only [prefixScanLoop, prefixScanStep] at scanned
      split at scanned
      · rename_i userChar
        rcases ih scanned with scanEq | ⟨user, host, rfl, chars, hostChars, scanEq⟩
        · left
          rw [scanEq, List.length_cons, Nat.add_assoc, Nat.add_comm 1]
        · right
          refine ⟨c :: user, host, rfl,
            List.forall_mem_cons.mpr ⟨userChar, chars⟩, hostChars, ?_⟩
          rw [scanEq, List.length_cons, Nat.add_assoc, Nat.add_comm 1]
      · split at scanned
        · rename_i isAt
          obtain rfl := beq_iff_eq.mp isAt
          obtain ⟨hostChars, scanEq⟩ := host_of_prefixScanLoop scanned
          exact Or.inr ⟨[], text, rfl, by simp, hostChars, scanEq⟩
        · cases scanned

/-- A nickname, or the rest of one, as far as the scan checks it. -/
def NickScanned (nickLen : Nat) (nick : Text) : Prop :=
  (nickLen = 0 → ∀ first ∈ nick.head?,
    isLetter first = true ∨ isSpecial first = true) ∧
    ∀ c ∈ nick, isNickChar c = true

theorem NickScanned.isNick {nick : Text} (scanned : NickScanned 0 nick)
    (nonempty : 1 ≤ nick.length) (short : nick.length ≤ 9) : IsNick nick := by
  cases nick with
  | nil => simp at nonempty
  | cons first rest =>
      obtain ⟨_, chars⟩ := List.forall_mem_cons.mp scanned.2
      exact ⟨short, scanned.1 rfl first rfl, chars⟩

/-- How a scan goes on behind a nickname of the given length. -/
inductive AfterNick (nickLen : Nat) : Text → PrefixScan → Prop
  | ends : AfterNick nickLen [] { nickLen := nickLen }
  | user {cur : Text} {scan : PrefixScan} :
      prefixScanLoop (scanningUser nickLen 0 cur) cur = some scan →
        AfterNick nickLen (bang :: cur) scan
  | host {cur : Text} {scan : PrefixScan} :
      prefixScanLoop (scanningHost nickLen 0 [] cur) cur = some scan →
        AfterNick nickLen (at_ :: cur) scan

/-- The text is a nickname, or the rest of one, and what is behind it. -/
def ReadsNick (nickLen : Nat) (text : Text) (scan : PrefixScan) : Prop :=
  ∃ nick rest, text = nick ++ rest ∧ NickScanned nickLen nick ∧
    AfterNick (nickLen + nick.length) rest scan

theorem AfterNick.readsNick {nickLen : Nat} {text : Text} {scan : PrefixScan}
    (after : AfterNick nickLen text scan) : ReadsNick nickLen text scan :=
  ⟨[], text, rfl, ⟨by simp, by simp⟩, after⟩

theorem ReadsNick.cons {nickLen : Nat} {text : Text} {scan : PrefixScan}
    {c : Octet} (reads : ReadsNick (nickLen + 1) text scan)
    (nickChar : isNickChar c = true)
    (start : nickLen = 0 → isLetter c = true ∨ isSpecial c = true) :
    ReadsNick nickLen (c :: text) scan := by
  obtain ⟨nick, rest, rfl, scanned, after⟩ := reads
  refine ⟨c :: nick, rest, rfl, ⟨?_, ?_⟩, ?_⟩
  · intro none first head
    rw [← Option.some.inj head]
    exact start none
  · exact List.forall_mem_cons.mpr ⟨nickChar, scanned.2⟩
  · rwa [List.length_cons, Nat.add_comm nick.length, ← Nat.add_assoc]

theorem nick_of_prefixScanLoop {nickLen : Nat} {text : Text} {scan : PrefixScan}
    (scanned : prefixScanLoop { nickLen := nickLen } text = some scan) :
    ReadsNick nickLen text scan := by
  induction text generalizing nickLen with
  | nil =>
      obtain rfl := Option.some.inj scanned
      exact AfterNick.ends.readsNick
  | cons c text ih =>
      simp only [prefixScanLoop, prefixScanStep] at scanned
      split at scanned
      · rename_i named
        rw [Bool.or_eq_true] at named
        refine (ih scanned).cons ?_ fun _ => named
        rcases named with letter | special
        · simp [isNickChar, letter]
        · simp [isNickChar, special]
      · split at scanned
        · rename_i continues
          rw [Bool.or_eq_true] at continues
          split at scanned
          · cases scanned
          · rename_i entered
            refine (ih scanned).cons ?_ fun none => ?_
            · rcases continues with digit | isDash
              · simp [isNickChar, digit]
              · simp [isNickChar, isDash]
            · exact absurd none (by simpa using entered)
        · split at scanned
          · rename_i isBang
            obtain rfl := beq_iff_eq.mp isBang
            exact (AfterNick.user scanned).readsNick
          · split at scanned
            · rename_i isAt
              obtain rfl := beq_iff_eq.mp isAt
              exact (AfterNick.host scanned).readsNick
            · cases scanned

/-! ## What is accepted -/

/-- The checks behind the loop. -/
structure ScanAccepted (platform : Platform) (scan : PrefixScan) : Prop where
  nick_pos : 1 ≤ scan.nickLen
  nick_le : scan.nickLen ≤ 9
  noHost : scan.hostStart = [] → scan.userStart = []
  user : scan.hostStart ≠ [] → scan.userStart ≠ [] → scan.userLen ≠ 0
  host : scan.hostStart ≠ [] →
    isValidHostname scan.hostStart = true ∨
      isInternetAddress platform scan.hostStart = true

theorem isValidPrefix_eq_true (platform : Platform) (text : Text) :
    isValidPrefix platform text = true ↔
      IsHostname text ∨
        ∃ scan, prefixScanLoop {} text = some scan ∧
          ScanAccepted platform scan := by
  unfold isValidPrefix
  split
  · rename_i hostname
    simp [(isValidHostname_iff text).mp hostname]
  · rename_i notHostname
    rw [isValidHostname_iff] at notHostname
    simp only [notHostname, false_or]
    split
    · rename_i stopped
      simp [stopped]
    · rename_i scan scanned
      simp only [scanned, Option.some.injEq, exists_eq_left']
      rcases scan with ⟨state, nickLen, userLen, userStart, hostStart⟩
      constructor
      · intro accepted
        cases hostStart <;> cases userStart <;> constructor <;> grind
      · rintro ⟨nickPos, nickLe, noHost, user, host⟩
        cases hostStart <;> cases userStart <;> grind

theorem isInternetAddress_eq {platform : Platform} {host : Text}
    (chars : ∀ c ∈ host, isHostChar c = true) :
    isInternetAddress platform host = platform.makeAddress host := by
  have whole : host.takeWhile (· != nul) = host := by
    rw [List.takeWhile_eq_self_iff]
    intro c member
    simpa using (isHostChar_plain c (chars c member)).1
  rw [isInternetAddress, whole]

theorem isHost_of_scanned {platform : Platform} {host : Text}
    (nonempty : host ≠ []) (chars : ∀ c ∈ host, isHostChar c = true)
    (accepted : isValidHostname host = true ∨
      isInternetAddress platform host = true) : IsHost platform host := by
  refine ⟨nonempty, ?_⟩
  rcases accepted with hostname | address
  · exact Or.inl ((isValidHostname_iff host).mp hostname)
  · exact Or.inr ⟨chars, by rwa [isInternetAddress_eq chars] at address⟩

theorem IsHost.accepted {platform : Platform} {host : Text}
    (isHost : IsHost platform host) :
    isValidHostname host = true ∨ isInternetAddress platform host = true := by
  rcases isHost.2 with hostname | ⟨chars, address⟩
  · exact Or.inl ((isValidHostname_iff host).mpr hostname)
  · exact Or.inr (by rwa [isInternetAddress_eq chars])

theorem IsNick.length_pos {nick : Text} (isNick : IsNick nick) :
    1 ≤ nick.length :=
  List.length_pos_iff.mpr isNick.ne_nil

/-- The texts that the scan accepts. -/
theorem grammar_of_scan {platform : Platform} {text : Text} {scan : PrefixScan}
    (scanned : prefixScanLoop {} text = some scan)
    (accepted : ScanAccepted platform scan) :
    IsPrefix platform text ∨ EmptyLastSection text := by
  obtain ⟨nick, rest, rfl, nickScanned, after⟩ := nick_of_prefixScanLoop scanned
  have isNick (lengthEq : scan.nickLen = nick.length) : IsNick nick :=
    nickScanned.isNick (lengthEq ▸ accepted.nick_pos)
      (lengthEq ▸ accepted.nick_le)
  rw [Nat.zero_add] at after
  cases after with
  | ends =>
      rw [List.append_nil]
      exact Or.inl (.nick (isNick rfl))
  | @user cur _ userScan =>
      rcases user_of_prefixScanLoop userScan with
        rfl | ⟨user, host, rfl, userChars, hostChars, rfl⟩
      · obtain rfl : cur = [] := accepted.noHost rfl
        exact Or.inr ⟨nick, isNick rfl, Or.inl rfl⟩
      · left
        by_cases noHost : host = []
        · have noUser : user ++ at_ :: host = [] := accepted.noHost noHost
          simp at noUser
        · have someUser : user ≠ [] := by
            rintro rfl
            exact accepted.user noHost (by simp) rfl
          exact .nickUserHost (isNick rfl) ⟨someUser, userChars⟩
            (isHost_of_scanned noHost hostChars (accepted.host noHost))
  | @host cur _ hostScan =>
      obtain ⟨hostChars, rfl⟩ := host_of_prefixScanLoop hostScan
      by_cases noHost : cur = []
      · subst noHost
        exact Or.inr ⟨nick, isNick rfl, Or.inr rfl⟩
      · exact Or.inl (.nickHost (isNick rfl)
          (isHost_of_scanned noHost hostChars (accepted.host noHost)))

theorem scan_of_isPrefix {platform : Platform} {text : Text}
    (isPrefix : IsPrefix platform text) :
    IsHostname text ∨
      ∃ scan, prefixScanLoop {} text = some scan ∧
        ScanAccepted platform scan := by
  cases isPrefix with
  | hostname hostname => exact Or.inl hostname
  | nick isNick =>
      have run := isNick.scan []
      rw [List.append_nil] at run
      refine Or.inr ⟨_, run, isNick.length_pos, isNick.length_le, ?_, ?_, ?_⟩ <;>
        simp
  | @nickHost nick host isNick isHost =>
      have run := isNick.scan (at_ :: host)
      rw [prefixScanLoop_at, prefixScanLoop_host _ _ _ _ isHost.hostChars] at run
      refine Or.inr ⟨_, run, isNick.length_pos, isNick.length_le, ?_, ?_, ?_⟩
      · simp
      · simp
      · exact fun _ => isHost.accepted
  | @nickUserHost nick user host isNick isUser isHost =>
      have run := isNick.scan (bang :: (user ++ at_ :: host))
      rw [prefixScanLoop_bang, prefixScanLoop_user _ _ _ isUser.2,
        prefixScanLoop_userAt, prefixScanLoop_host _ _ _ _ isHost.hostChars] at run
      refine Or.inr ⟨_, run, isNick.length_pos, isNick.length_le, ?_, ?_, ?_⟩
      · exact fun noHost => absurd noHost isHost.1
      · exact fun _ _ => by simpa using isUser.1
      · exact fun _ => isHost.accepted

theorem scan_of_emptyLastSection (platform : Platform) {text : Text}
    (dangling : EmptyLastSection text) :
    ∃ scan, prefixScanLoop {} text = some scan ∧
      ScanAccepted platform scan := by
  obtain ⟨nick, isNick, rfl | rfl⟩ := dangling
  · have run := isNick.scan [bang]
    rw [prefixScanLoop_bang] at run
    refine ⟨_, run, isNick.length_pos, isNick.length_le, ?_, ?_, ?_⟩ <;> simp
  · have run := isNick.scan [at_]
    rw [prefixScanLoop_at] at run
    refine ⟨_, run, isNick.length_pos, isNick.length_le, ?_, ?_, ?_⟩ <;> simp

/-- Exactly the prefixes and the nicknames with an empty last section. -/
theorem isValidPrefix_grammar (platform : Platform) (text : Text) :
    isValidPrefix platform text = true ↔
      IsPrefix platform text ∨ EmptyLastSection text := by
  rw [isValidPrefix_eq_true]
  constructor
  · rintro (hostname | ⟨scan, scanned, accepted⟩)
    · exact Or.inl (.hostname hostname)
    · exact grammar_of_scan scanned accepted
  · rintro (isPrefix | dangling)
    · exact scan_of_isPrefix isPrefix
    · exact Or.inr (scan_of_emptyLastSection platform dangling)

/-- A prefix ends with an octet of its last section. -/
theorem IsPrefix.last {platform : Platform} {text : Text}
    (isPrefix : IsPrefix platform text) {before : Text} {last : Octet}
    (textEq : text = before ++ [last]) : last ≠ bang ∧ last ≠ at_ := by
  have ofHost (host : Text) (chars : ∀ c ∈ host, isHostChar c = true)
      (ends : host.getLast? = some last) : last ≠ bang ∧ last ≠ at_ := by
    have plain := isHostChar_plain last (chars last (List.mem_of_getLast? ends))
    exact ⟨plain.2.1, plain.2.2.1⟩
  have ends : text.getLast? = some last := by
    rw [textEq, List.getLast?_concat]
  cases isPrefix with
  | hostname hostname => exact ofHost _ hostname.hostChars ends
  | nick isNick =>
      have plain := isNickChar_plain last
        (isNick.nickChars last (List.mem_of_getLast? ends))
      exact ⟨plain.1, plain.2.1⟩
  | @nickHost nick host isNick isHost =>
      rw [List.getLast?_append_cons, List.getLast?_cons_of_ne_nil isHost.1] at ends
      exact ofHost host isHost.hostChars ends
  | @nickUserHost nick user host isNick isUser isHost =>
      rw [List.getLast?_append_cons, ← List.cons_append,
        List.getLast?_append_cons, List.getLast?_cons_of_ne_nil isHost.1] at ends
      exact ofHost host isHost.hostChars ends

theorem EmptyLastSection.not_isPrefix {platform : Platform} {text : Text}
    (dangling : EmptyLastSection text) : ¬ IsPrefix platform text := by
  intro isPrefix
  obtain ⟨nick, _, textEq | textEq⟩ := dangling
  · exact (isPrefix.last textEq).1 rfl
  · exact (isPrefix.last textEq).2 rfl

/-- Validation agrees with the grammar except on an empty last section. -/
theorem isValidPrefix_iff_isPrefix (platform : Platform) (text : Text) :
    (isValidPrefix platform text = true ↔ IsPrefix platform text) ↔
      ¬ EmptyLastSection text := by
  rw [isValidPrefix_grammar]
  constructor
  · intro agrees dangling
    exact dangling.not_isPrefix (agrees.mp (Or.inr dangling))
  · intro notDangling
    simp [notDangling]

/-- `nick!` is accepted, and is no prefix. -/
theorem isValidPrefix_danglingBang :
    isValidPrefix plainPlatform (ascii "nick!") = true ∧
      ¬ IsPrefix plainPlatform (ascii "nick!") := by
  have isNick : IsNick (ascii "nick") :=
    ⟨by decide, by decide, by decide⟩
  have dangling : EmptyLastSection (ascii "nick!") :=
    ⟨ascii "nick", isNick, Or.inl rfl⟩
  exact ⟨by decide, dangling.not_isPrefix⟩

end Birch
