import CallMemo.Log.Pattern.CharacterClass
import CallMemo.Text.Alphanumeric

/-!
# Patterns

A value in a directive may be a regular expression. Only whether it can be used matters here: it is
read from left to right, and everything in it has to fit the mode that its flags set. Groups with
a name have different names, and nothing lies too deep. There are no counted repetitions, since
a closing brace ends the value.
-/

namespace CallMemo.Log

namespace Pattern

/-- The greatest depth of a pattern. -/
def depthLimit : Nat := 250

/-- A part of a pattern that was read. -/
structure Part where
  /-- The number of levels that lie within each other in it. -/
  depth : Nat := 0
  /-- Whether it can be repeated. -/
  repeatable : Bool := true
  deriving DecidableEq, Repr

/-- What an opening parenthesis begins. -/
inductive Opening where
  /-- A group, in which flags are set. -/
  | group (flags : List Char)
  /-- A group with a name. -/
  | named (name : List Char)
  /-- Nothing: flags are set up to the end of the group around them. -/
  | flags (flags : List Char)
  deriving DecidableEq, Repr

/-- Whether a group can have this name. -/
def isGroupName (name : List Char) : Bool :=
  match name with
  | [] => false
  | c :: cs =>
    (c == '_' || Text.isAlphabetic c) &&
      cs.all fun c => c == '_' || c == '.' || c == '[' || c == ']' || Text.isAlphanumeric c

/-- Reads the name of a group up to its closing bracket. -/
def readName? (cs : List Char) : Option (Opening × List Char) :=
  let name := cs.takeWhile (· ≠ '>')
  match cs.dropWhile (· ≠ '>') with
  | _ :: rest => if isGroupName name then some (.named name, rest) else none
  | [] => none

/-- Whether each character is a flag and none is given twice. A minus sign counts as a flag, but
another one has to follow it. -/
def areFlags (flags : List Char) : Bool :=
  flags.all "imsURux-".toList.contains && decide flags.Nodup && flags.getLast? != some '-'

/-- Reads flags up to what ends them. -/
def readFlags? (cs : List Char) : Option (Opening × List Char) :=
  let flags := cs.takeWhile fun c => c ≠ ':' ∧ c ≠ ')'
  match areFlags flags, cs.dropWhile fun c => c ≠ ':' ∧ c ≠ ')' with
  | true, ':' :: rest => some (.group flags, rest)
  | true, ')' :: rest => if flags = [] then none else some (.flags flags, rest)
  | _, _ => none

/-- Reads what an opening parenthesis begins. A group cannot look around. -/
def readOpening? (cs : List Char) : Option (Opening × List Char) :=
  match cs with
  | '?' :: 'P' :: '<' :: rest => readName? rest
  | '?' :: '<' :: rest => readName? rest
  | '?' :: rest => readFlags? rest
  | rest => some (.group [], rest)

/-- What has been read between two parentheses. -/
structure Enclosed where
  /-- How the next part is read. -/
  mode : Mode := {}
  /-- The depths of the alternatives that are complete, the latest first. -/
  alternatives : List Nat := []
  /-- The parts of the present alternative, the latest first. -/
  parts : List Part := []
  deriving DecidableEq, Repr

namespace Enclosed

/-- The depth of the present alternative. -/
def alternative (s : Enclosed) : Nat := besideDepth (s.parts.map (·.depth))

/-- The depth of all that has been read. -/
def depth (s : Enclosed) : Nat := besideDepth (s.alternative :: s.alternatives)

/-- Begins another alternative. -/
def next (s : Enclosed) : Enclosed :=
  { s with alternatives := s.alternative :: s.alternatives, parts := [] }

/-- Adds a part. -/
def push (s : Enclosed) (part : Part) : Enclosed := { s with parts := part :: s.parts }

/-- Sets flags. They are no part that could be repeated. -/
def set (s : Enclosed) (flags : List Char) : Enclosed :=
  { s with mode := s.mode.apply flags }.push { repeatable := false }

/-- Repeats the latest part. -/
def repeated? (s : Enclosed) : Option Enclosed :=
  match s.parts with
  | part :: parts =>
    if part.repeatable then some { s with parts := { depth := part.depth + 1 } :: parts } else none
  | [] => none

end Enclosed

/-- Reads parts up to the parenthesis that closes the group around them, or up to the end. Gives the
depth of what was read, the names of groups so far, and the rest. -/
def readParts? : Nat → Enclosed → List (List Char) → List Char →
    Option (Nat × List (List Char) × List Char)
  | 0, _, _, _ => none
  | fuel + 1, s, names, cs =>
    match s.mode.pass cs with
    | [] => some (s.depth, names, [])
    | ')' :: rest => some (s.depth, names, ')' :: rest)
    | '|' :: rest => readParts? fuel s.next names rest
    | '(' :: rest => do
      let (opening, rest) ← readOpening? (s.mode.pass rest)
      match opening with
      | .flags flags => readParts? fuel (s.set flags) names rest
      | .group flags =>
        match ← readParts? fuel { mode := s.mode.apply flags } names rest with
        | (depth, names, ')' :: rest) => readParts? fuel (s.push { depth := depth + 1 }) names rest
        | _ => none
      | .named name =>
        guard (name ∉ names)
        match ← readParts? fuel { mode := s.mode } (name :: names) rest with
        | (depth, names, ')' :: rest) => readParts? fuel (s.push { depth := depth + 1 }) names rest
        | _ => none
    | '[' :: rest => do
      let (depth, rest) ← readClass? s.mode rest
      readParts? fuel (s.push { depth }) names rest
    | '*' :: '?' :: rest | '+' :: '?' :: rest | '?' :: '?' :: rest
    | '*' :: rest | '+' :: rest | '?' :: rest => do readParts? fuel (← s.repeated?) names rest
    | '\x7b' :: _ => none
    | '.' :: rest => if s.mode.unicode then readParts? fuel (s.push {}) names rest else none
    | '^' :: rest | '$' :: rest => readParts? fuel (s.push {}) names rest
    | '\\' :: rest => do
      let (element, rest) ← readEscape? s.mode rest
      guard (element.isUsable s.mode)
      readParts? fuel (s.push {}) names rest
    | c :: rest =>
      if (Element.character c false).isUsable s.mode then readParts? fuel (s.push {}) names rest
      else none

end Pattern

/-- Whether a text is a pattern that can be used. -/
def isPattern (cs : List Char) : Bool :=
  match Pattern.readParts? (cs.length + 1) {} [] cs with
  | some (depth, _, []) => depth ≤ Pattern.depthLimit
  | _ => false

example : isPattern "(?-u:[a-f]|\\d)*".toList = true := by decide +kernel

example : isPattern "\\d".toList = false := by decide +kernel

example : isPattern "(?x) [a # b]\n ]".toList = true := by decide +kernel

end CallMemo.Log
