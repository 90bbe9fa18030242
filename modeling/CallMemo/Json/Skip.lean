import CallMemo.Json.Numeral

/-!
# Skipping values

The value of an unknown member is checked for its form and otherwise ignored. Open brackets are
kept on a stack, so values may be nested to any depth.
-/

namespace CallMemo.Json

/-- An open bracket. -/
inductive Bracket where
  /-- The bracket of a list. -/
  | array
  /-- The bracket of a record. -/
  | object
  deriving DecidableEq, Repr

/-- The bracket that closes it. -/
def Bracket.closing : Bracket → Char
  | array => ']'
  | object => '}'

/-- Where a reader stands within a value. -/
inductive Place where
  /-- A value is due. -/
  | value
  /-- A bracket was just opened. -/
  | opened
  /-- A value is complete. -/
  | after
  deriving DecidableEq, Repr

namespace Reader

/-- Takes the name of a member and the colon behind it. -/
def skipName : Reader Unit := do
  match ← peek with
  | some '"' =>
    advance
    let _ ← quoted false
    colon
  | _ => stop

/-- Takes a numeral without regard to its value; whatever is wrong with it, it is malformed. -/
def skipNumeral : Reader Unit := fun s =>
  match numeral s with
  | .ok (_, rest) => .ok ((), rest)
  | .error _ => .error .malformed

/-- Takes a value that is due, or the bracket that opens it. -/
def skipValueStart (open? : List Bracket) : Reader (Place × List Bracket) := do
  match ← peek with
  | some 'n' =>
    expect ['n', 'u', 'l', 'l']
    return (.after, open?)
  | some 't' =>
    expect ['t', 'r', 'u', 'e']
    return (.after, open?)
  | some 'f' =>
    expect ['f', 'a', 'l', 's', 'e']
    return (.after, open?)
  | some '"' =>
    advance
    let _ ← quoted false
    return (.after, open?)
  | some '[' =>
    advance
    return (.opened, .array :: open?)
  | some '{' =>
    advance
    return (.opened, .object :: open?)
  | some c =>
    if c = '-' ∨ c.isDigit then
      skipNumeral
      return (.after, open?)
    else throw .malformed
  | none => throw .truncated

/-- Takes one token inside the innermost open bracket. -/
def skipInside (place : Place) (innermost : Bracket) (outer : List Bracket) :
    Reader (Place × List Bracket) := do
  let next ← peek
  if next = some innermost.closing then
    advance
    return (.after, outer)
  else if place = .opened then
    if next.isNone then throw .truncated
    if innermost = .object then skipName
    return (.value, innermost :: outer)
  else if next = some ',' then
    advance
    if innermost = .object then skipName
    return (.value, innermost :: outer)
  else stop

/-- Skips until every open bracket is closed; `fuel` bounds the number of steps. -/
def skipLoop : Nat → Place → List Bracket → Reader Unit
  | _, .after, [] => pure ()
  | 0, _, _ => throw .truncated
  | fuel + 1, .after, b :: outer => do
    let (place, open?) ← skipInside .after b outer
    skipLoop fuel place open?
  | fuel + 1, .opened, b :: outer => do
    let (place, open?) ← skipInside .opened b outer
    skipLoop fuel place open?
  | fuel + 1, _, open? => do
    let (place, open?) ← skipValueStart open?
    skipLoop fuel place open?

/-- Skips one value. -/
def skipValue : Reader Unit := do
  skipLoop (2 * (← get).length + 2) .value []

end Reader

end CallMemo.Json
