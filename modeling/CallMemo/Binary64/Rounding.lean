import CallMemo.Binary64.Basic

/-!
# Rounding to binary64

Every operation computes its exact result as a quotient of natural numbers and rounds it once, to
the nearest number, a tie to the even neighbour.
-/

namespace CallMemo

/-- Where a quotient that lies halfway between two integers goes. -/
inductive Tie where
  /-- To the even neighbour. -/
  | toEven
  /-- To the upper neighbour. -/
  | up
  deriving DecidableEq, Repr

/-- The integer nearest to `num / den`. -/
def roundDiv (num den : Nat) (tie : Tie) : Nat :=
  let q := num / den
  let r := num % den
  if 2 * r < den then q
  else if den < 2 * r then q + 1
  else if tie = .up ∨ q % 2 = 1 then q + 1 else q

namespace Binary64

/-- The exponent of the last place of the number nearest to `num / den`. -/
def lastPlace (num den : Nat) : Int :=
  let q : Int := (num.log2 : Int) - den.log2 - 52
  let fits := den * twoTo (q + 52).toNat ≤ num * twoTo (-(q + 52)).toNat
  max (if fits then q else q - 1) (-1074)

/-- The number nearest to `±num / den`, infinite if the quotient is out of range. -/
def ofRatio (negative : Bool) (num den : Nat) : Binary64 :=
  if num = 0 then ofMagnitude negative 0
  else
    let q := lastPlace num den
    let m := roundDiv (num * twoTo (-q).toNat) (den * twoTo q.toNat) .toEven
    ofMagnitude negative (min ((q + 1074).toNat * twoTo 52 + m) infinityBits)

/-- The number nearest to a natural number. -/
def ofNat (n : Nat) : Binary64 := ofRatio false n 1

/-- The number nearest to `±digits * 10 ^ exponent`. Exponents far out of range are settled
without computing the power. -/
def ofDecimal (negative : Bool) (digits : Nat) (exponent : Int) : Binary64 :=
  if digits = 0 then ofMagnitude negative 0
  else if 400 < exponent + (digits.log2 : Int) * 30 / 100 then infinity negative
  else if exponent + (digits.log2 : Int) * 31 / 100 < -400 then ofMagnitude negative 0
  else ofRatio negative (digits * tenTo exponent.toNat) (tenTo (-exponent).toNat)

/-- The rounded product. -/
def mul (x y : Binary64) : Binary64 :=
  let negative := x.isNegative != y.isNegative
  if x.isNaN || y.isNaN then nan
  else if x.isInfinite || y.isInfinite then
    if x.magnitudeBits = 0 ∨ y.magnitudeBits = 0 then nan else infinity negative
  else
    let (a, b) := x.ratio
    let (c, d) := y.ratio
    ofRatio negative (a * c) (b * d)

/-- The rounded quotient. -/
def div (x y : Binary64) : Binary64 :=
  let negative := x.isNegative != y.isNegative
  if x.isNaN || y.isNaN then nan
  else if x.isInfinite then if y.isInfinite then nan else infinity negative
  else if y.isInfinite then ofMagnitude negative 0
  else if y.magnitudeBits = 0 then if x.magnitudeBits = 0 then nan else infinity negative
  else
    let (a, b) := x.ratio
    let (c, d) := y.ratio
    ofRatio negative (a * d) (b * c)

/-- The largest integer that is at most `x * 2 ^ 64`, for a positive finite `x`. -/
def scaledFloor (x : Binary64) : Nat :=
  let (a, b) := x.ratio
  a * twoTo 64 / b

example : ofRatio false 1 100 = ⟨0x3F847AE147AE147B⟩ := by decide +kernel

example : ofDecimal false 5 (-324) = ⟨1⟩ := by decide +kernel

example : ofDecimal true 1 400 = infinity true := by decide +kernel

end Binary64

end CallMemo
