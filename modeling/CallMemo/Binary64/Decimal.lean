import CallMemo.Binary64.Rounding

/-!
# Shortest decimals

The decimal with the fewest digits among those that round to a given finite number, and of those
with as few digits the nearest one. A tie between two candidates is settled by a parameter.
-/

namespace CallMemo

/-- The value `digits * 10 ^ exponent`. -/
structure Decimal where
  /-- The digits as one number. -/
  digits : Nat
  /-- The power of ten of the last digit. -/
  exponent : Int
  deriving DecidableEq, Repr

namespace Decimal

/-- Moves trailing zeros of the digits into the exponent; `fuel` bounds their number. -/
def strip (fuel : Nat) (d : Decimal) : Decimal :=
  match fuel with
  | 0 => d
  | fuel + 1 =>
    if d.digits ≠ 0 ∧ d.digits % 10 = 0 then strip fuel ⟨d.digits / 10, d.exponent + 1⟩ else d

/-- The digits as characters, the highest first. -/
def characters (d : Decimal) : List Char := Nat.toDigits 10 d.digits

/-- The power of ten of the leading digit. -/
def leading (d : Decimal) : Int := d.exponent + d.characters.length - 1

end Decimal

/-- Compares `a * 10 ^ i` with `n * 2 ^ j` exactly. -/
def compareScaled (a : Nat) (i : Int) (n : Nat) (j : Int) : Ordering :=
  compare (a * tenTo i.toNat * twoTo (-j).toNat) (n * twoTo j.toNat * tenTo (-i).toNat)

namespace Binary64

/-- Whether a decimal lies among the reals that round to the magnitude of a finite number: between
the midpoints to its neighbours, which belong to it when its significand is even. Below a power of
two the lower neighbour is half as far away. -/
def readsBack (x : Binary64) (d : Decimal) : Bool :=
  let narrow := x.magnitudeBits % twoTo 52 == 0 && twoTo 52 < x.magnitudeBits
  let low := if narrow then 4 * x.significand - 1 else 4 * x.significand - 2
  let high := 4 * x.significand + 2
  let closed := x.significand % 2 == 0
  let atLow := compareScaled d.digits d.exponent low (x.exponent - 2)
  let atHigh := compareScaled d.digits d.exponent high (x.exponent - 2)
  (atLow == .gt || closed && atLow == .eq) && (atHigh == .lt || closed && atHigh == .eq)

/-- The least `k` for which the magnitude of a nonzero finite number is below `10 ^ k`. -/
def decimalScale (x : Binary64) : Int :=
  let guess := Int.fdiv (((x.significand.log2 : Int) + x.exponent) * 1233) 4096
  let below (k : Int) := compareScaled 1 k x.significand x.exponent == .gt
  ([guess, guess + 1, guess + 2].find? below).getD (guess + 3)

/-- The two neighbours of the magnitude on the grid of `10 ^ exponent` that read back, the nearer
one if both do. -/
def onGrid? (x : Binary64) (tie : Tie) (exponent : Int) : Option Decimal :=
  let (a, b) := x.ratio
  let num := a * tenTo (-exponent).toNat
  let den := b * tenTo exponent.toNat
  let low : Decimal := ⟨num / den, exponent⟩
  let high : Decimal := ⟨num / den + 1, exponent⟩
  match x.readsBack low, x.readsBack high with
  | true, true => some ⟨roundDiv num den tie, exponent⟩
  | true, false => some low
  | false, true => some high
  | false, false => none

/-- The shortest decimal that reads back as the magnitude of a finite number. Seventeen digits
always suffice; the exact value stands behind them as a fallback. -/
def shortest (x : Binary64) (tie : Tie) : Decimal :=
  if x.magnitudeBits = 0 then ⟨0, 0⟩
  else
    let grids := (List.range 17).map fun (n : Nat) => x.decimalScale - (n + 1 : Nat)
    match grids.findSome? (x.onGrid? tie) with
    | some d => d.strip 20
    | none =>
      let (a, b) := x.ratio
      let places := (-x.exponent).toNat
      ⟨a * tenTo places / b, -places⟩

end Binary64

end CallMemo
