import CallMemo.Json.Reader
import CallMemo.Binary64.Literal

/-!
# JSON numerals

A numeral is split into its parts first. Its value as a floating-point number is computed from a
significand of sixty-four bits and a power of ten: digits that no longer fit are dropped, those
before the point raising the power, and the significand is then scaled with one rounding.
-/

namespace CallMemo.Json

/-- The parts of a numeral. -/
structure Numeral where
  /-- Whether a minus sign stands in front. -/
  negative : Bool
  /-- The digits before the point. -/
  whole : List Char
  /-- The digits behind the point, if there is one. -/
  fraction : Option (List Char) := none
  /-- The sign and the digits of the exponent, if there is one. -/
  exponent : Option (Bool × List Char) := none
  deriving DecidableEq, Repr

namespace Reader

/-- Takes at least one digit. -/
def digits : Reader (List Char) := do
  let s ← get
  set (s.dropWhile Char.isDigit)
  match s.takeWhile Char.isDigit with
  | [] => stop
  | ds => return ds

/-- Takes the point and the digits behind it, if there is a point. -/
def fraction : Reader (Option (List Char)) := do
  if (← get).head? = some '.' then
    advance
    return some (← digits)
  else return none

/-- Takes an exponent, if there is one. -/
def exponent : Reader (Option (Bool × List Char)) := do
  match (← get).head? with
  | some 'e' | some 'E' =>
    advance
    match (← get).head? with
    | some '-' =>
      advance
      return some (true, ← digits)
    | some '+' =>
      advance
      return some (false, ← digits)
    | _ => return some (false, ← digits)
  | _ => return none

/-- Takes a numeral. Only the number zero starts with a zero. -/
def numeral : Reader Numeral := do
  let negative := (← get).head? == some '-'
  if negative then advance
  let whole ← digits
  if whole.head? = some '0' ∧ whole.length ≠ 1 then throw .malformed
  let fraction ← fraction
  let exponent ← exponent
  return { negative, whole, fraction, exponent }

end Reader

/-- A significand that fits sixty-four bits, scaled by a power of ten. -/
structure Scaled where
  /-- The leading digits as one number. -/
  significand : Nat := 0
  /-- The power of ten. -/
  power : Int := 0
  /-- Whether a digit was dropped. -/
  full : Bool := false
  deriving DecidableEq, Repr

namespace Scaled

/-- Appends a digit that stands before the point; once a digit is dropped, all later ones are. -/
def appendWhole (s : Scaled) (c : Char) : Scaled :=
  let next := 10 * s.significand + Text.digitValue c
  if s.full ∨ UInt64.size ≤ next then { s with power := s.power + 1, full := true }
  else { s with significand := next }

/-- Appends a digit that stands behind the point. -/
def appendFraction (s : Scaled) (c : Char) : Scaled :=
  let next := 10 * s.significand + Text.digitValue c
  if s.full ∨ UInt64.size ≤ next then { s with full := true }
  else { s with significand := next, power := s.power - 1 }

/-- The number nearest to a power of ten. -/
def powerOfTen (k : Nat) : Binary64 := .ofRatio false (tenTo k) 1

/-- Scales a number by a power of ten, `none` if the result is out of range. Powers below the
range of the format are taken in steps, and `fuel` steps reach zero. -/
def scale? (fuel : Nat) (x : Binary64) (power : Int) : Option Binary64 :=
  if power.natAbs ≤ 308 then
    if 0 ≤ power then
      let y := x.mul (powerOfTen power.toNat)
      if y.isInfinite then none else some y
    else some (x.div (powerOfTen power.natAbs))
  else if x.magnitudeBits = 0 then some x
  else if 0 ≤ power then none
  else match fuel with
    | 0 => some .zero
    | fuel + 1 => scale? fuel (x.div (powerOfTen 308)) (power + 308)

end Scaled

namespace Numeral

/-- The significand and the power of ten before the exponent is taken into account. The first
digit behind the point may fit even where a digit before it did not. -/
def scaled (n : Numeral) : Scaled :=
  let whole := n.whole.foldl Scaled.appendWhole {}
  (n.fraction.getD []).foldl Scaled.appendFraction { whole with full := false }

/-- The value of the exponent. -/
def exponentValue (n : Numeral) : Int :=
  match n.exponent with
  | none => 0
  | some (negative, ds) =>
    let k : Int := Binary64.digitsValue ds
    if negative then -k else k

/-- The value as a floating-point number, `none` if it is out of range. -/
def toBinary64? (n : Numeral) : Option Binary64 := do
  let s := n.scaled
  let x ← Scaled.scale? 4 (.ofNat s.significand) (s.power + n.exponentValue)
  return .ofMagnitude n.negative x.magnitudeBits

/-- The value of a numeral without sign, point and exponent. -/
def toNat? (n : Numeral) : Option Nat :=
  if n.negative ∨ n.fraction.isSome ∨ n.exponent.isSome then none
  else some (Binary64.digitsValue n.whole)

end Numeral

end CallMemo.Json
