import Mathlib.Data.Fin.Basic
import Mathlib.Data.List.Basic
import Mathlib.Tactic.Common

/-!
# Octets and the parser's character classes

The parser classifies plain `char` values.  On the target of the builds a
plain `char` is a signed 8-bit integer, so every comparison sees an octet
through `charToInt`: the upper half of the octets is negative.
-/

namespace Birch

abbrev Octet := UInt8

/-- The contents of a `std::string`. -/
abbrev Text := List Octet

/-- The octets of an ASCII literal. -/
def ascii (literal : String) : Text :=
  literal.toList.map fun c => c.toNat.toUInt8

namespace Octet

abbrev nul : Octet := 0x00
abbrev lf : Octet := 0x0A
abbrev cr : Octet := 0x0D
abbrev space : Octet := 0x20
abbrev colon : Octet := 0x3A
abbrev semicolon : Octet := 0x3B
abbrev equals : Octet := 0x3D
abbrev at_ : Octet := 0x40
abbrev bang : Octet := 0x21
abbrev dot : Octet := 0x2E
abbrev dash : Octet := 0x2D
abbrev slash : Octet := 0x2F
abbrev plus : Octet := 0x2B

end Octet

open Octet

/-- `static_cast<int>(c)` of a signed plain `char`. -/
def charToInt (c : Octet) : Int :=
  if c.toNat < 128 then c.toNat else (c.toNat : Int) - 256

/-- `c >= low && c <= high` on integers. -/
def charInRange (low high : Int) (c : Octet) : Bool :=
  decide (low ≤ charToInt c) && decide (charToInt c ≤ high)

def isUserChar (c : Octet) : Bool :=
  c != nul && c != cr && c != lf && c != space && c != at_

def isLetter (c : Octet) : Bool :=
  charInRange 0x61 0x7A c || charInRange 0x41 0x5A c

def isDigit (c : Octet) : Bool :=
  charInRange 0x30 0x39 c

def isHex (c : Octet) : Bool :=
  isDigit c || charInRange 0x41 0x46 c

def isSpecial (c : Octet) : Bool :=
  charInRange 0x5B 0x60 c || charInRange 0x7B 0x7D c

def isPrefixChar (c : Octet) : Bool :=
  isLetter c || isDigit c || isSpecial c || c == bang || c == dot ||
    c == at_ || c == dash || c == colon

def isParamStartChar (c : Octet) : Bool :=
  charInRange 0x3B 0xFF c || charInRange 0x21 0x39 c ||
    charInRange 0x0E 0x1F c || charInRange 0x0B 0x0C c ||
    charInRange 0x01 0x09 c

def isTagKeyChar (c : Octet) : Bool :=
  isLetter c || isDigit c || c == dash || c == slash || c == plus

/-- A condition on the octets of a text is decided along the text. -/
instance (priority := high) decidableForallMemText (text : Text)
    (property : Octet → Prop) [DecidablePred property] :
    Decidable (∀ c ∈ text, property c) :=
  List.decidableBAll property text

/-! ## What the classes contain -/

/-- A decidable property of octets is settled by running through them. -/
theorem forall_octet {property : Octet → Prop}
    (each : ∀ n : Fin 256, property (UInt8.ofNat n.val)) (c : Octet) :
    property c := by
  have at_c := each ⟨c.toNat, c.toNat_lt⟩
  rwa [UInt8.ofNat_toNat] at at_c

/-- Of the octets that are ever sent in a parameter, a signed `char` leaves
the lower half. -/
theorem isParamStartChar_iff (c : Octet) :
    isParamStartChar c = true ↔
      c.toNat < 128 ∧ c ≠ nul ∧ c ≠ lf ∧ c ≠ cr ∧ c ≠ space ∧ c ≠ colon := by
  revert c
  exact forall_octet (by decide +kernel)

theorem isLetter_not_isDigit (c : Octet) :
    isLetter c = true → isDigit c = false := by
  revert c
  exact forall_octet (by decide +kernel)

/-- Letters and digits are none of the octets that the parser gives a meaning
of their own. -/
theorem alphanumeric_plain (c : Octet) :
    isLetter c = true ∨ isDigit c = true →
      c ≠ nul ∧ c ≠ lf ∧ c ≠ cr ∧ c ≠ space ∧ c ≠ colon ∧ c ≠ at_ := by
  revert c
  exact forall_octet (by decide +kernel)

theorem isTagKeyChar_plain (c : Octet) :
    isTagKeyChar c = true →
      c ≠ nul ∧ c ≠ lf ∧ c ≠ cr ∧ c ≠ space ∧ c ≠ semicolon ∧ c ≠ equals := by
  revert c
  exact forall_octet (by decide +kernel)

theorem isPrefixChar_plain (c : Octet) :
    isPrefixChar c = true → c ≠ nul ∧ c ≠ lf ∧ c ≠ cr ∧ c ≠ space := by
  revert c
  exact forall_octet (by decide +kernel)

end Birch
