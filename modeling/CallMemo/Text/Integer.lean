/-!
# Unsigned integer literals

An optional plus sign and one or more ASCII digits, read from left to right. The first character
that is no digit, or the first digit that carries the value out of range, decides the fault.
-/

namespace CallMemo.Text

/-- Why a text is no integer below a limit. -/
inductive IntegerFault where
  /-- The text is empty. -/
  | empty
  /-- A character that is no digit stands where a digit is due. -/
  | invalidDigit
  /-- The value does not fit. -/
  | tooLarge
  deriving DecidableEq, Repr

/-- The explanation shown for a fault. -/
def IntegerFault.message : IntegerFault → String
  | .empty => "cannot parse integer from empty string"
  | .invalidDigit => "invalid digit found in string"
  | .tooLarge => "number too large to fit in target type"

/-- The value of an ASCII digit; other characters have the value that their code suggests. -/
def digitValue (c : Char) : Nat := c.toNat - '0'.toNat

/-- Appends the digits of a text to a number, as long as it stays below the limit. -/
def appendDigits (limit : Nat) : Nat → List Char → Except IntegerFault Nat
  | n, [] => .ok n
  | n, c :: cs =>
    if !c.isDigit then .error .invalidDigit
    else if 10 * n + digitValue c < limit then appendDigits limit (10 * n + digitValue c) cs
    else .error .tooLarge

/-- Reads an integer below the limit. -/
def readInteger (limit : Nat) : List Char → Except IntegerFault Nat
  | [] => .error .empty
  | ['+'] => .error .invalidDigit
  | '+' :: cs => appendDigits limit 0 cs
  | cs => appendDigits limit 0 cs

/-- Reads an integer of sixty-four bits. -/
def readUInt64 (cs : List Char) : Except IntegerFault UInt64 :=
  (readInteger UInt64.size cs).map Nat.toUInt64

end CallMemo.Text
