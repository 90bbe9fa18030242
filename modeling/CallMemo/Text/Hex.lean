/-!
# Hexadecimal text

Identities and program counters are shown in lower-case hexadecimal, either with a `0x` mark and
without padding, or padded with zeros to a fixed width. Digits are read in either case.
-/

namespace CallMemo.Text

/-- The lower-case hexadecimal digits of a number, without leading zeros. -/
def hex (n : Nat) : String := String.ofList (Nat.toDigits 16 n)

/-- Hexadecimal digits behind a `0x` mark. -/
def hexMarked (n : Nat) : String := "0x" ++ hex n

/-- Hexadecimal digits, with zeros in front up to the given width. -/
def hexPadded (width n : Nat) : String :=
  String.ofList (List.leftpad width '0' (Nat.toDigits 16 n))

/-- The value of a hexadecimal digit in either case. -/
def hexDigit? (c : Char) : Option Nat :=
  if '0' ≤ c ∧ c ≤ '9' then some (c.toNat - '0'.toNat)
  else if 'a' ≤ c ∧ c ≤ 'f' then some (c.toNat - 'a'.toNat + 10)
  else if 'A' ≤ c ∧ c ≤ 'F' then some (c.toNat - 'A'.toNat + 10)
  else none

example : hexMarked 4096 = "0x1000" := by decide

example : hexPadded 4 171 = "00ab" := by decide

end CallMemo.Text
