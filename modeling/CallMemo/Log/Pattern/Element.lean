import CallMemo.Text.Blank
import CallMemo.Text.Hex

/-!
# Elements of patterns

The smallest parts of a regular expression: characters, categories of characters and positions.
Which of them can be used hangs on the mode, since there are no tables of Unicode's categories and
of its pairs of upper and lower case, and since what a pattern finds has to be text.
-/

namespace CallMemo.Log.Pattern

/-- How a part of a pattern is read. -/
structure Mode where
  /-- The case of letters is ignored. -/
  caseless : Bool := false
  /-- The pattern is about Unicode characters, not about bytes. -/
  unicode : Bool := true
  /-- Blanks and comments are passed over. -/
  verbose : Bool := false
  deriving DecidableEq, Repr

namespace Mode

/-- A property of the mode after flags are set: those in front of a minus sign are switched on, those
behind it off. -/
def setting (flags : List Char) (flag : Char) (current : Bool) : Bool :=
  if (flags.takeWhile (· ≠ '-')).contains flag then true
  else if flags.contains flag then false
  else current

/-- The mode after flags are set. -/
def apply (m : Mode) (flags : List Char) : Mode where
  caseless := setting flags 'i' m.caseless
  unicode := setting flags 'u' m.unicode
  verbose := setting flags 'x' m.verbose

/-- Passes over blanks and comments; `inComment` says whether a comment has begun. -/
def passFiller (inComment : Bool) : List Char → List Char
  | [] => []
  | c :: cs =>
    if inComment then passFiller (c != '\n') cs
    else if Text.isBlank c then passFiller false cs
    else if c = '#' then passFiller true cs
    else c :: cs

/-- Passes over what does not count in this mode. -/
def pass (m : Mode) (cs : List Char) : List Char := if m.verbose then passFiller false cs else cs

end Mode

/-- What is found at one place. -/
inductive Element where
  /-- A character; `byte` tells that it was written as the code of a byte. -/
  | character (c : Char) (byte : Bool)
  /-- The digits, the blanks or the characters of words, or all others. -/
  | category (others : Bool)
  /-- A position between characters; `word` tells that it hangs on the words beside it. -/
  | position (word : Bool)
  deriving DecidableEq, Repr

namespace Element

/-- Whether an element can be used outside classes. -/
def isUsable (m : Mode) : Element → Bool
  | character c byte => if m.unicode then !m.caseless else !byte || c.toNat < 0x80
  | category others => !m.unicode && !others
  | position word => !(word && m.unicode)

/-- Whether an element can be a member of a class. -/
def isUsableMember (m : Mode) : Element → Bool
  | character c _ => if m.unicode then !m.caseless else c.toNat < 0x80
  | category others => !m.unicode && !others
  | position _ => false

/-- The character, if the element is one. -/
def character? : Element → Option Char
  | character c _ => some c
  | _ => none

end Element

/-! ## Escapes -/

/-- Characters that stand for themselves behind a backslash. -/
def isEscapable (c : Char) : Bool :=
  c.toNat < 0x80 && !c.isAlphanum && c != '<' && c != '>'

/-- The element that a single character behind a backslash stands for. -/
def escaped? (c : Char) : Option Element :=
  match c with
  | 'a' => some (.character '\x07' false)
  | 't' => some (.character '\t' false)
  | 'n' => some (.character '\n' false)
  | 'v' => some (.character '\x0b' false)
  | 'f' => some (.character '\x0c' false)
  | 'r' => some (.character '\r' false)
  | 'd' | 's' | 'w' => some (.category false)
  | 'D' | 'S' | 'W' => some (.category true)
  | 'A' | 'z' => some (.position false)
  | 'b' | 'B' | '<' | '>' => some (.position true)
  | c => if isEscapable c then some (.character c false) else none

/-- How many hexadecimal digits stand behind a letter that announces the code of a character. -/
def codeLength? : Char → Option Nat
  | 'x' => some 2
  | 'u' => some 4
  | 'U' => some 8
  | _ => none

/-- Reads hexadecimal digits behind a number. -/
def readCode? (m : Mode) : Nat → Nat → List Char → Option (Nat × List Char)
  | 0, n, cs => some (n, cs)
  | _ + 1, _, [] => none
  | digits + 1, n, c :: cs => do readCode? m digits (16 * n + (← Text.hexDigit? c)) (m.pass cs)

/-- Reads an element behind its backslash. -/
def readEscape? (m : Mode) : List Char → Option (Element × List Char)
  | [] => none
  | c :: cs => do
    match codeLength? c with
    | some digits =>
      let (n, rest) ← readCode? m digits 0 (m.pass cs)
      guard n.isValidChar
      return (.character (Char.ofNat n) (c == 'x'), rest)
    | none => return (← escaped? c, cs)

end CallMemo.Log.Pattern
