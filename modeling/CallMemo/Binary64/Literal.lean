import CallMemo.Binary64.Rounding
import CallMemo.Text.Integer

/-!
# Decimal literals

The written forms of a floating-point setting: an optional sign, then `inf`, `infinity` or `nan` in
any case, or digits with an optional point and an optional exponent. Values are rounded once.
-/

namespace CallMemo.Binary64

/-- Why a text is no floating-point literal. -/
inductive LiteralFault where
  /-- The text is empty. -/
  | empty
  /-- The text has none of the accepted forms. -/
  | invalid
  deriving DecidableEq, Repr

/-- The explanation shown for a fault. -/
def LiteralFault.message : LiteralFault → String
  | .empty => "cannot parse float from empty string"
  | .invalid => "invalid float literal"

/-- The value of a run of digits. -/
def digitsValue (cs : List Char) : Nat := cs.foldl (fun n c => 10 * n + Text.digitValue c) 0

/-- Splits an optional sign off; the flag tells a minus sign. -/
def splitSign : List Char → Bool × List Char
  | '-' :: cs => (true, cs)
  | '+' :: cs => (false, cs)
  | cs => (false, cs)

/-- The exponent of a literal: nothing, or a mark, an optional sign and digits to the end. -/
def readExponent? : List Char → Option Int
  | [] => some 0
  | c :: cs =>
    let (negative, ds) := splitSign cs
    if (c = 'e' ∨ c = 'E') ∧ ds ≠ [] ∧ ds.all Char.isDigit then
      some (if negative then -(digitsValue ds : Int) else digitsValue ds)
    else none

/-- Reads digits with an optional point and an optional exponent. -/
def readDigits? (negative : Bool) (cs : List Char) : Option Binary64 := do
  let whole := cs.takeWhile Char.isDigit
  let rest := cs.dropWhile Char.isDigit
  let (fraction, rest) := match rest with
    | '.' :: rest => (rest.takeWhile Char.isDigit, rest.dropWhile Char.isDigit)
    | rest => ([], rest)
  guard (whole ++ fraction ≠ [])
  let exponent ← readExponent? rest
  return ofDecimal negative (digitsValue (whole ++ fraction)) (exponent - fraction.length)

/-- Reads a floating-point literal. -/
def readLiteral (cs : List Char) : Except LiteralFault Binary64 :=
  if cs = [] then .error .empty
  else
    let (negative, body) := splitSign cs
    let word := String.ofList (body.map Char.toLower)
    if word = "inf" ∨ word = "infinity" then .ok (infinity negative)
    else if word = "nan" then .ok (if negative then ⟨0xFFF8000000000000⟩ else nan)
    else match readDigits? negative body with
      | some x => .ok x
      | none => .error .invalid

end CallMemo.Binary64
