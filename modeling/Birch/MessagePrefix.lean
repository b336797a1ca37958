import Birch.OctetClasses

/-!
# Validation of message prefixes

`IsValidHostname` and `IsValidPrefix` scan a buffer that has been read up to
the space behind a prefix.  A pointer into the buffer is the text from it to
the end of the buffer, so that `end` is the empty text.
-/

namespace Birch

open Octet

/-- What the program takes from outside of its sources: the address parser of
its network library, and what a string is left as when it is moved from. -/
structure Platform where
  makeAddress : Text → Bool
  movedFrom : Text → Text

/-- No host is an address, and a string that is moved from is left empty. -/
def plainPlatform : Platform := ⟨fun _ => false, fun _ => []⟩

/-- The loop of `IsValidHostname`: `shortnameStart` at its end, or nothing
where it returns false from inside. -/
def hostnameLoop : Bool → Text → Option Bool
  | shortnameStart, [] => some shortnameStart
  | shortnameStart, c :: rest =>
      if c == bang || c == at_ then
        none
      else if isLetter c || isDigit c || (!shortnameStart && c == dash) then
        hostnameLoop false rest
      else if c == dot && !shortnameStart then
        hostnameLoop true rest
      else
        none

def isValidHostname (text : Text) : Bool :=
  if text.isEmpty then
    false
  else
    match hostnameLoop true text with
    | none => false
    | some shortnameStart => !shortnameStart

/-- The argument is read as a C string, up to the first NUL. -/
def isInternetAddress (platform : Platform) (text : Text) : Bool :=
  platform.makeAddress (text.takeWhile (· != nul))

inductive PrefixSection
  | vsNickname
  | vsUser
  | vsHost
  deriving DecidableEq, Repr

/-- The local variables of `IsValidPrefix` that are read after its loop. -/
structure PrefixScan where
  state : PrefixSection := .vsNickname
  nickLen : Nat := 0
  userLen : Nat := 0
  userStart : Text := []
  hostStart : Text := []

/-- One turn of the loop of `IsValidPrefix` at the character `c`; `cur` is the
text behind it. -/
def prefixScanStep (scan : PrefixScan) (c : Octet) (cur : Text) :
    Option PrefixScan :=
  match scan.state with
  | .vsNickname =>
      if isLetter c || isSpecial c then
        some { scan with nickLen := scan.nickLen + 1 }
      else if isDigit c || c == dash then
        if scan.nickLen == 0 then none
        else some { scan with nickLen := scan.nickLen + 1 }
      else if c == bang then
        some { scan with userStart := cur, state := .vsUser }
      else if c == at_ then
        some { scan with hostStart := cur, state := .vsHost }
      else
        none
  | .vsUser =>
      if isUserChar c then
        some { scan with userLen := scan.userLen + 1 }
      else if c == at_ then
        some { scan with hostStart := cur, state := .vsHost }
      else
        none
  | .vsHost =>
      -- `hostLen` is counted here, and never read.
      if isLetter c || isHex c || c == dot || c == colon || c == dash then
        some scan
      else
        none

def prefixScanLoop : PrefixScan → Text → Option PrefixScan
  | scan, [] => some scan
  | scan, c :: cur =>
      (prefixScanStep scan c cur).bind fun next => prefixScanLoop next cur

/-- `IsValidPrefix` on the contents of `m_buffer`. -/
def isValidPrefix (platform : Platform) (buffer : Text) : Bool :=
  if isValidHostname buffer then
    true
  else
    match prefixScanLoop {} buffer with
    | none => false
    | some scan =>
        if scan.nickLen < 1 || scan.nickLen > 9 then
          false
        else if scan.hostStart.isEmpty then
          scan.userStart.isEmpty
        else if !scan.userStart.isEmpty && scan.userLen == 0 then
          false
        else
          isValidHostname scan.hostStart ||
            isInternetAddress platform scan.hostStart

end Birch
