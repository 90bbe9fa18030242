import CallMemo.Binary64.Decimal

/-!
# Decimal text of binary64 numbers

A shortest decimal is laid out either positionally or with an exponent; a `Layout` record holds
the decisions of one output format. A second form shows a fixed number of places.
-/

namespace CallMemo

/-- The decisions of one decimal text format. -/
structure Layout where
  /-- Leading digits at this power of ten or above are written with an exponent. -/
  positionalBelow : Option Int
  /-- Leading digits below this power of ten are written with an exponent. -/
  positionalFrom : Option Int
  /-- Whether a whole number written positionally ends in `.0`. -/
  pointZero : Bool
  /-- Whether a positive exponent carries a plus sign. -/
  exponentPlus : Bool
  /-- Which of two equally near shortest decimals is taken. -/
  tie : Tie

namespace Layout

/-- Digits with a point, for a decimal whose last digit stands for `10 ^ exponent`. -/
def positional (l : Layout) (d : Decimal) : List Char :=
  let cs := d.characters
  if 0 ≤ d.exponent then
    cs ++ List.replicate d.exponent.toNat '0' ++ (if l.pointZero then ['.', '0'] else [])
  else
    let places := (-d.exponent).toNat
    let padded := cs.leftpad (places + 1) '0'
    padded.take (padded.length - places) ++ '.' :: padded.drop (padded.length - places)

/-- One digit, a point and the others, and the power of ten of the first. -/
def scientific (l : Layout) (d : Decimal) : List Char :=
  let fraction := match d.characters.tail with
    | [] => []
    | cs => '.' :: cs
  let sign := if d.leading < 0 then ['-'] else if l.exponentPlus then ['+'] else []
  d.characters.take 1 ++ fraction ++ 'e' :: sign ++ Nat.toDigits 10 d.leading.natAbs

/-- The text of a number. -/
def render (l : Layout) (x : Binary64) : String :=
  if x.isNaN then "NaN"
  else
    let sign := if x.isNegative then "-" else ""
    if x.isInfinite then sign ++ "inf"
    else
      let d := x.shortest l.tie
      let isPositional := d.digits = 0 ∨
        (∀ k ∈ l.positionalBelow, d.leading < k) ∧ (∀ k ∈ l.positionalFrom, k ≤ d.leading)
      sign ++ String.ofList (if isPositional then l.positional d else l.scientific d)

/-- Messages write numbers positionally, whole ones without a point. -/
def message : Layout where
  positionalBelow := none
  positionalFrom := none
  pointZero := false
  exponentPlus := false
  tie := .up

/-- Listings of settings mark whole numbers by `.0` and use an exponent for extreme magnitudes. -/
def listing : Layout where
  positionalBelow := some 16
  positionalFrom := some (-4)
  pointZero := true
  exponentPlus := false
  tie := .up

/-- Documents write numbers with a point or an exponent, and sign the exponent. -/
def document : Layout where
  positionalBelow := some 16
  positionalFrom := some (-5)
  pointZero := true
  exponentPlus := true
  tie := .toEven

example : message.render ⟨0x3FF8000000000000⟩ = "1.5" := by decide +kernel

example : listing.render Binary64.one = "1.0" := by decide +kernel

example : document.render ⟨0x43F0000000000000⟩ = "1.8446744073709552e+19" := by decide +kernel

end Layout

/-- The text of a number rounded to a fixed number of places, a tie to the even neighbour. -/
def Binary64.fixed (places : Nat) (x : Binary64) : String :=
  if x.isNaN then "NaN"
  else
    let sign := if x.isNegative then "-" else ""
    if x.isInfinite then sign ++ "inf"
    else
      let (a, b) := x.ratio
      let cs := (Nat.toDigits 10 (roundDiv (a * tenTo places) b .toEven)).leftpad (places + 1) '0'
      let whole := cs.take (cs.length - places)
      let fraction := if places = 0 then [] else '.' :: cs.drop (cs.length - places)
      sign ++ String.ofList (whole ++ fraction)

example : Binary64.fixed 2 ⟨0x4038CCCCCCCCCCCD⟩ = "24.80" := by decide +kernel

end CallMemo
