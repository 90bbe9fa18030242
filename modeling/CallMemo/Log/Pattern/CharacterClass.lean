import CallMemo.Log.Pattern.Element

/-!
# Character classes

A class is a set of characters in brackets: characters, ranges, categories, sets with a name and
further classes, joined by the operators `&&`, `--` and `~~`. A class is read for its depth, the
number of levels that lie within each other in it.
-/

namespace CallMemo.Log.Pattern

/-- The depth of parts that stand beside each other: together they are one more level, but a single
part is none. -/
def besideDepth : List Nat → Nat
  | [] => 0
  | [depth] => depth
  | depths => depths.foldl max 0 + 1

/-- What has been read of a class. -/
inductive ClassPlace where
  /-- Nothing. -/
  | first
  /-- Dashes only, which stand for themselves. -/
  | dashes
  /-- Anything. -/
  | anywhere
  deriving DecidableEq, Repr

/-- Sets of ASCII characters that have a name. -/
def setNames : List String :=
  ["alnum", "alpha", "ascii", "blank", "cntrl", "digit", "graph", "lower", "print", "punct",
    "space", "upper", "word", "xdigit"]

/-- Reads a named set behind its bracket: whether it is negated, and the rest. -/
def readNamedSet? : List Char → Option (Bool × List Char)
  | ':' :: cs =>
    let negated := cs.head? = some '^'
    let cs := if negated then cs.tail else cs
    match cs.dropWhile (· ≠ ':') with
    | ':' :: ']' :: rest =>
      if setNames.contains (String.ofList (cs.takeWhile (· ≠ ':'))) then some (negated, rest)
      else none
    | _ => none
  | _ => none

/-- Whether a named set can be used. -/
def isUsableSet (m : Mode) (negated : Bool) : Bool := if m.unicode then !m.caseless else !negated

/-- Reads a character of a class, or the element that an escape stands for. -/
def readMember? (m : Mode) : List Char → Option (Element × List Char)
  | [] => none
  | '\\' :: cs => readEscape? m cs
  | c :: cs => some (.character c false, cs)

/-- The character that decides whether a dash in front of it makes a range. Where blanks are passed
over, so is the mark of a comment, but not what the comment says. -/
def behindDash? (m : Mode) (cs : List Char) : Option Char :=
  if m.verbose then
    match cs.dropWhile Text.isBlank with
    | '#' :: rest => (rest.dropWhile Text.isBlank).head? <|> cs.head?
    | rest => rest.head? <|> cs.head?
  else cs.head?

/-- Reads a member or a range of members. -/
def readRange? (m : Mode) (cs : List Char) : Option (List Char) := do
  let (first, rest) ← readMember? m cs
  guard (first.isUsableMember m)
  match m.pass rest with
  | '-' :: behind =>
    if behindDash? m behind = some ']' ∨ behindDash? m behind = some '-' then
      return '-' :: behind
    let (last, rest) ← readMember? m (m.pass behind)
    guard (last.isUsableMember m ∧ (← first.character?) ≤ (← last.character?))
    return rest
  | rest => return rest

/-- The depth of a set whose last operands have the given depths. -/
def operandDepth (left : Option Nat) (members : List Nat) : Nat :=
  match left with
  | none => besideDepth members
  | some depth => max depth (besideDepth members) + 1

/-- Opens a class behind its bracket. A negated class holds what is no text unless it is about
characters. -/
def openClass? (m : Mode) (cs : List Char) : Option (List Char) :=
  match m.pass cs with
  | '^' :: rest => if m.unicode then some (m.pass rest) else none
  | rest => some rest

/-- Reads the members of a class up to its closing bracket and gives their depth. What stands in
front of the last operator has the depth `left`, the members behind it the depths `members`. -/
def readMembers? (m : Mode) :
    Nat → ClassPlace → Option Nat → List Nat → List Char → Option (Nat × List Char)
  | 0, _, _, _, _ => none
  | fuel + 1, place, left, members, cs =>
    match place, m.pass cs with
    | _, [] => none
    | .first, '-' :: rest | .dashes, '-' :: rest =>
      if (Element.character '-' false).isUsableMember m then
        readMembers? m fuel .dashes left (0 :: members) rest
      else none
    | .first, ']' :: rest =>
      if (Element.character ']' false).isUsableMember m then
        readMembers? m fuel .anywhere left (0 :: members) rest
      else none
    | _, ']' :: rest => some (operandDepth left members, rest)
    | _, '&' :: '&' :: rest | _, '-' :: '-' :: rest | _, '~' :: '~' :: rest =>
      readMembers? m fuel .anywhere (some (operandDepth left members)) [] rest
    | _, '[' :: rest =>
      match readNamedSet? rest with
      | some (negated, rest) =>
        if isUsableSet m negated then readMembers? m fuel .anywhere left (0 :: members) rest
        else none
      | none => do
        let (depth, rest) ← readMembers? m fuel .first none [] (← openClass? m rest)
        readMembers? m fuel .anywhere left ((depth + 1) :: members) rest
    | _, cs => do readMembers? m fuel .anywhere left (0 :: members) (← readRange? m cs)

/-- Reads a class behind its bracket and gives its depth. -/
def readClass? (m : Mode) (cs : List Char) : Option (Nat × List Char) := do
  let (depth, rest) ← readMembers? m (cs.length + 1) .first none [] (← openClass? m cs)
  return (depth + 1, rest)

end CallMemo.Log.Pattern
