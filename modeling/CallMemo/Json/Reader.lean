import CallMemo.Text.Hex

/-!
# Reading JSON text

A reader takes a value off the front of a text in one pass, and the first problem it meets is its
fault. Problems are told apart by kind only: the text is not JSON, it ends too early, a value is of
the wrong kind, or a member of a record is missing or repeated.
-/

namespace CallMemo.Json

/-- Why a text cannot be read. -/
inductive Fault where
  /-- The text is not JSON. -/
  | malformed
  /-- The text ends where more is due. -/
  | truncated
  /-- A value is of the wrong kind or out of range. -/
  | mismatched
  /-- A record lacks a required member. -/
  | missing (member : String)
  /-- A record gives a member twice. -/
  | repeated (member : String)
  deriving DecidableEq, Repr

/-- Takes a value off the front of a text. -/
abbrev Reader := StateT (List Char) (Except Fault)

/-- The characters allowed between tokens. -/
def isBlank (c : Char) : Bool := c == ' ' || c == '\t' || c == '\n' || c == '\r'

namespace Reader

/-- Skips blanks and shows the next character without taking it. -/
def peek : Reader (Option Char) := do
  modify (·.dropWhile isBlank)
  return (← get).head?

/-- Takes one character. -/
def advance : Reader Unit := modify (·.drop 1)

/-- The fault of a text that does not go on as it has to. -/
def stop {α : Type} : Reader α := do
  if (← get).isEmpty then throw .truncated else throw .malformed

/-- Takes exactly the given characters. -/
def expect : List Char → Reader Unit
  | [] => pure ()
  | c :: cs => do
    if (← get).head? = some c then
      advance
      expect cs
    else stop

/-- Takes four hexadecimal digits. A text with fewer than four bytes left ends too early. -/
def hexUnit : Reader Nat := do
  let s ← get
  match (s.take 4).mapM Text.hexDigit? with
  | some [a, b, c, d] =>
    set (s.drop 4)
    return ((a * 16 + b) * 16 + c) * 16 + d
  | _ =>
    if (String.ofList (s.take 4)).utf8ByteSize < 4 then throw .truncated else throw .malformed

/-- Takes the rest of a numeric escape: one unit, or two that form a surrogate pair. -/
def codePoint : Reader Char := do
  let high ← hexUnit
  if 0xDC00 ≤ high ∧ high ≤ 0xDFFF then throw .malformed
  else if high < 0xD800 ∨ 0xDFFF < high then return Char.ofNat high
  else
    expect ['\\', 'u']
    let low ← hexUnit
    if 0xDC00 ≤ low ∧ low ≤ 0xDFFF then
      return Char.ofNat ((high - 0xD800) * 0x400 + (low - 0xDC00) + 0x10000)
    else throw .malformed

/-- The character that an escape letter stands for. -/
def unescape? : Char → Option Char
  | '"' => some '"'
  | '\\' => some '\\'
  | '/' => some '/'
  | 'b' => some '\x08'
  | 'f' => some '\x0c'
  | 'n' => some '\n'
  | 'r' => some '\r'
  | 't' => some '\t'
  | _ => none

/-- Takes an escape behind its backslash. In a skipped text a numeric escape need not name a
character. -/
def escape (strict : Bool) : Reader Char := do
  match (← get).head? with
  | none => throw .truncated
  | some 'u' =>
    advance
    if strict then codePoint
    else
      let _ ← hexUnit
      return '\x00'
  | some c =>
    match unescape? c with
    | some d =>
      advance
      return d
    | none => throw .malformed

/-- Takes the rest of a quoted text behind its opening quote; `fuel` bounds its length and `taken`
holds the characters so far, the last one first. -/
def quotedLoop (strict : Bool) : Nat → List Char → Reader (List Char)
  | 0, _ => throw .truncated
  | fuel + 1, taken => do
    match (← get).head? with
    | none => throw .truncated
    | some '"' =>
      advance
      return taken.reverse
    | some '\\' =>
      advance
      let c ← escape strict
      quotedLoop strict fuel (c :: taken)
    | some c =>
      if c.toNat < 0x20 then throw .malformed
      else
        advance
        quotedLoop strict fuel (c :: taken)

/-- Takes the rest of a quoted text behind its opening quote. -/
def quoted (strict : Bool) : Reader (List Char) := do
  quotedLoop strict ((← get).length + 1) []

/-- Takes the colon between a name and its value. -/
def colon : Reader Unit := do
  match ← peek with
  | some ':' => advance
  | _ => stop

end Reader

end CallMemo.Json
