import CallMemo.Toml.Text
import CallMemo.Toml.Value
import CallMemo.Binary64.Literal

/-!
# Numbers and moments of TOML

Digits may be grouped by single underscores. Integers have sixty-four bits. A decimal number that
exceeds the range of floating-point numbers is refused; one below it is negative infinity.
-/

namespace CallMemo.Toml.Reader

/-- Takes digits of a class in groups, without the underscores. -/
def groupedLoop (p : Char → Bool) : Nat → List Char → Reader (List Char)
  | 0, _ => failure
  | fuel + 1, taken => do
    match ← get with
    | '_' :: c :: s =>
      guard (p c)
      set s
      groupedLoop p fuel (c :: taken)
    | c :: s =>
      if p c then
        set s
        groupedLoop p fuel (c :: taken)
      else return taken.reverse
    | [] => return taken.reverse

/-- Takes at least one digit of a class, in groups. -/
def grouped (p : Char → Bool) : Reader (List Char) := do
  let c ← one p
  groupedLoop p ((← get).length + 1) [c]

/-- Takes a sign if there is one; the flag tells a minus sign. -/
def sign : Reader Bool := do
  match ← next? with
  | some '-' =>
    advance
    return true
  | some '+' =>
    advance
    return false
  | _ => return false

/-- Takes a decimal integer: zero, or digits that do not start with zero. -/
def decimalDigits : Reader (List Char) := do
  match ← next? with
  | some '0' =>
    advance
    return ['0']
  | _ => grouped Char.isDigit

/-- Takes the digits of an integer in another base behind its mark. -/
def based (base : Nat) : Reader Int := do
  let ds ← grouped fun c => (Text.hexDigit? c).any (· < base)
  let n := ds.foldl (fun n c => base * n + (Text.hexDigit? c).getD 0) 0
  guard (n < twoTo 63)
  return n

/-- Takes an integer. -/
def integer : Reader Int := do
  match ← get with
  | '0' :: 'x' :: s =>
    set s
    based 16
  | '0' :: 'o' :: s =>
    set s
    based 8
  | '0' :: 'b' :: s =>
    set s
    based 2
  | _ =>
    let negative ← sign
    let n := Binary64.digitsValue (← decimalDigits)
    guard (n < twoTo 63 ∨ negative ∧ n = twoTo 63)
    return if negative then -n else n

/-- Takes an exponent. -/
def exponent : Reader Int := do
  let _ ← one fun c => c == 'e' || c == 'E'
  let negative ← sign
  let k : Int := Binary64.digitsValue (← grouped Char.isDigit)
  return if negative then -k else k

/-- Takes a decimal number with a fraction, an exponent or both. -/
def decimal : Reader Binary64 := do
  let negative ← sign
  let whole ← decimalDigits
  let fraction ← maybe do
    exactly "."
    grouped Char.isDigit
  let exponent? ← maybe exponent
  guard (fraction.isSome ∨ exponent?.isSome)
  let places := fraction.getD []
  let x := Binary64.ofDecimal negative (Binary64.digitsValue (whole ++ places))
    (exponent?.getD 0 - places.length)
  guard (x ≠ .infinity false)
  return x

/-- Takes one of the words for infinity and for what is not a number. -/
def special : Reader Binary64 := do
  let negative ← sign
  (do
    exactly "inf"
    return .infinity negative) <|> (do
    exactly "nan"
    return if negative then ⟨0xFFF8000000000000⟩ else .nan)

/-- Takes a number of the given count of digits, within bounds. -/
def field (width low high : Nat) : Reader Nat := do
  let s ← get
  let ds := s.take width
  guard (ds.length = width ∧ ds.all Char.isDigit)
  let n := Binary64.digitsValue ds
  guard (low ≤ n ∧ n ≤ high)
  set (s.drop width)
  return n

/-- The number of days of a month. -/
def daysOf (year month : Nat) : Nat :=
  if month = 2 then
    if year % 4 = 0 ∧ (year % 100 ≠ 0 ∨ year % 400 = 0) then 29 else 28
  else if month ∈ [4, 6, 9, 11] then 30 else 31

/-- Takes a calendar date. -/
def date : Reader Unit := do
  let year ← field 4 0 9999
  exactly "-"
  let month ← field 2 1 12
  exactly "-"
  let _ ← field 2 1 (daysOf year month)

/-- Takes a time of day; a minute may have a leap second. -/
def time : Reader Unit := do
  let _ ← field 2 0 23
  exactly ":"
  let _ ← field 2 0 59
  exactly ":"
  let _ ← field 2 0 60
  let _ ← maybe do
    exactly "."
    let _ ← one Char.isDigit
    modify (·.dropWhile Char.isDigit)

/-- Takes the distance to universal time. -/
def offset : Reader Unit := do
  match ← one fun c => c ∈ ['Z', 'z', '+', '-'] with
  | 'Z' | 'z' => pure ()
  | _ =>
    let _ ← field 2 0 23
    exactly ":"
    let _ ← field 2 0 59

/-- Takes a date, a time or both. -/
def moment : Reader Unit :=
  (do
    date
    let _ ← maybe do
      let _ ← one fun c => c ∈ ['T', 't', ' ']
      time
      maybe offset) <|> time

/-- Takes a value without parts. -/
def scalar : Reader Scalar := do
  match ← next? with
  | some '"' | some '\'' => return .string (← string)
  | some 't' =>
    exactly "true"
    return .boolean true
  | some 'f' =>
    exactly "false"
    return .boolean false
  | _ =>
    (do
      moment
      return .moment) <|> (.float <$> decimal) <|> (.float <$> special) <|> (.integer <$> integer)

end CallMemo.Toml.Reader
