/-!
# Text for a terminal

Text that comes from outside may hold control sequences that recolour a terminal or move its
cursor. The plain form of a text leaves them out. What ends a sequence follows the states of a
terminal: an escape character opens one, and its kind decides which characters belong to it. Once a
character has been shown, all that can be shown is shown, up to the next control character.
-/

namespace CallMemo.Text

/-- What a terminal is in the midst of. -/
inductive TerminalState where
  /-- Nothing. -/
  | ground
  /-- An escape sequence that has only begun. -/
  | escape
  /-- An escape sequence of several characters. -/
  | intermediate
  /-- A control sequence, ended by a letter. -/
  | control
  /-- A command to the system, ended by a bell. -/
  | command
  /-- A device control string that has only begun. -/
  | deviceEntry
  /-- The parameters of a device control string. -/
  | deviceParameters
  /-- Behind the parameters of a device control string. -/
  | deviceIntermediate
  /-- A text that is not for the screen. -/
  | body
  deriving DecidableEq, Repr

namespace TerminalState

/-- Whether a character lies in a closed range of codes. -/
def within (c : Char) (first last : Nat) : Bool := first ≤ c.toNat && c.toNat ≤ last

/-- White space that is shown although it is a control character. -/
def isLayout (c : Char) : Bool := c == '\t' || c == '\n' || c == '\x0c' || c == '\r'

/-- Whether a character is shown while nothing else is going on. -/
def isShown (c : Char) : Bool := within c 0x20 0x7E || 0x80 ≤ c.toNat || isLayout c

/-- Whether the character that ends strings on terminals of eight bits is among the bytes. -/
def hasTerminator (c : Char) : Bool := (String.utf8EncodeChar c).contains 0x9C

/-- The state behind a character that is not shown. -/
def next (s : TerminalState) (c : Char) : TerminalState :=
  if c == '\x1b' then escape
  else if c == '\x18' || c == '\x1a' then ground
  else match s with
    | ground => ground
    | escape =>
      if within c 0x20 0x2F then intermediate
      else if c == '[' then control
      else if c == ']' then command
      else if c == 'P' then deviceEntry
      else if c == 'X' || c == '^' || c == '_' then body
      else if within c 0x30 0x7E then ground
      else escape
    | intermediate => if within c 0x30 0x7E then ground else intermediate
    | control => if within c 0x40 0x7E then ground else control
    | command => if c == '\x07' then ground else command
    | deviceEntry =>
      if within c 0x20 0x2F then deviceIntermediate
      else if within c 0x30 0x3F then deviceParameters
      else if within c 0x40 0x7E then body
      else deviceEntry
    | deviceParameters =>
      if within c 0x20 0x2F then deviceIntermediate
      else if within c 0x3C 0x7E then body
      else deviceParameters
    | deviceIntermediate => if within c 0x30 0x7E then body else deviceIntermediate
    | body => if hasTerminator c then ground else body

/-- Whether a character is shown in this state, though none was shown right before it. -/
def resumes (s : TerminalState) (c : Char) : Bool :=
  match s with
  | ground => isShown c
  | escape | intermediate | control => isLayout c
  | _ => false

/-- The characters that are shown, from a state on in which the last one was shown or not. -/
def shown (s : TerminalState) (showing : Bool) : List Char → List Char
  | [] => []
  | c :: cs =>
    if showing && isShown c then c :: shown (if 0x80 ≤ c.toNat then ground else s) true cs
    else if s.resumes c then c :: shown s true cs
    else shown (s.next c) false cs

end TerminalState

/-- The text without control sequences. -/
def plain (text : String) : String :=
  String.ofList (TerminalState.ground.shown false text.toList)

end CallMemo.Text
