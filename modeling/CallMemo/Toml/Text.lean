import CallMemo.Text.Hex

/-!
# Characters, blanks and texts of TOML

Readers take something off the front of a text or fail; failures are not told apart.
-/

namespace CallMemo.Toml

/-- Takes a value off the front of a text. -/
abbrev Reader := StateT (List Char) Option

/-- The characters that may stand in a comment. -/
def isPlain (c : Char) : Bool := c == '\t' || (0x20 ≤ c.toNat && c.toNat ≤ 0x7E) || 0x80 ≤ c.toNat

/-- The blanks within a line. -/
def isBlank (c : Char) : Bool := c == ' ' || c == '\t'

/-- The characters of keys without quotes. -/
def isBare (c : Char) : Bool := c.isAlphanum || c == '_' || c == '-'

namespace Reader

/-- The next character, if there is one. -/
def next? : Reader (Option Char) := return (← get).head?

/-- Takes one character. -/
def advance : Reader Unit := modify (·.drop 1)

/-- Takes one character of a class. -/
def one (p : Char → Bool) : Reader Char := do
  match ← get with
  | c :: s =>
    guard (p c)
    set s
    return c
  | [] => failure

/-- Takes exactly the given text. -/
def exactly (text : String) : Reader Unit := do
  let s ← get
  guard (text.toList.isPrefixOf s)
  set (s.drop text.length)

/-- Takes something if it is there. -/
def maybe {α : Type} (r : Reader α) : Reader (Option α) := (some <$> r) <|> pure none

/-- Skips blanks within the line. -/
def blanks : Reader Unit := modify (·.dropWhile isBlank)

/-- Takes the end of a line. -/
def newline : Reader Unit := exactly "\n" <|> exactly "\r\n"

/-- Takes a comment up to the end of its line, if one begins here. -/
def comment : Reader Unit := do
  if (← next?) = some '#' then modify (·.dropWhile isPlain)

/-- Takes what may stand behind the last token of a line, and its end. -/
def endOfLine : Reader Unit := do
  blanks
  comment
  if ¬ (← get).isEmpty then newline

/-- Skips blanks and ends of lines, and comments if they are allowed here; `fuel` bounds the number
of lines. -/
def fillerLoop (comments : Bool) : Nat → Reader Unit
  | 0 => pure ()
  | fuel + 1 => do
    blanks
    if comments then comment
    match ← maybe newline with
    | some _ => fillerLoop comments fuel
    | none => pure ()

/-- Skips blanks and ends of lines, and comments if they are allowed here. -/
def filler (comments : Bool) : Reader Unit := do fillerLoop comments ((← get).length + 1)

/-- Takes a code point of the given number of hexadecimal digits. -/
def codePoint (width : Nat) : Reader Char := do
  let s ← get
  guard (width ≤ s.length)
  let ds ← (s.take width).mapM fun c => (Text.hexDigit? c : Reader Nat)
  let n := ds.foldl (fun n d => 16 * n + d) 0
  guard (n < 0xD800 ∨ 0xE000 ≤ n ∧ n < 0x110000)
  set (s.drop width)
  return Char.ofNat n

/-- Takes an escape behind its backslash. -/
def escape : Reader Char := do
  match ← one fun _ => true with
  | 'b' => return '\x08'
  | 't' => return '\t'
  | 'n' => return '\n'
  | 'f' => return '\x0c'
  | 'r' => return '\r'
  | '"' => return '"'
  | '\\' => return '\\'
  | 'u' => codePoint 4
  | 'U' => codePoint 8
  | _ => failure

/-- Takes the rest of a one-line text up to its closing quote. Only double quotes have escapes. -/
def lineLoop (quote : Char) : Nat → List Char → Reader String
  | 0, _ => failure
  | fuel + 1, taken => do
    let c ← one isPlain
    if c = quote then return String.ofList taken.reverse
    else if c = '\\' ∧ quote = '"' then
      let d ← escape
      lineLoop quote fuel (d :: taken)
    else lineLoop quote fuel (c :: taken)

/-- Takes a backslash at the end of a line, and the blanks and lines behind it. -/
def continuation : Reader Unit := do
  exactly "\\"
  blanks
  newline
  filler false

/-- Takes the rest of a text of several lines. Up to two quotes may stand before the closing three,
and one or two anywhere else. -/
def blockLoop (quote : Char) : Nat → List Char → Reader String
  | 0, _ => failure
  | fuel + 1, taken => do
    let run := ((← get).takeWhile (· = quote)).length
    if run ≠ 0 then
      guard (run ≤ 5)
      modify (·.drop run)
      if run < 3 then blockLoop quote fuel (List.replicate run quote ++ taken)
      else return String.ofList (List.replicate (run - 3) quote ++ taken).reverse
    else if (← maybe newline).isSome then blockLoop quote fuel ('\n' :: taken)
    else if quote = '"' ∧ (← next?) = some '\\' then
      match ← maybe continuation with
      | some _ => blockLoop quote fuel taken
      | none =>
        advance
        let d ← escape
        blockLoop quote fuel (d :: taken)
    else
      let c ← one isPlain
      blockLoop quote fuel (c :: taken)

/-- Takes a text of one line. -/
def lineText : Reader String := do
  let quote ← one fun c => c == '"' || c == '\''
  lineLoop quote ((← get).length + 1) []

/-- Takes a text of several lines; an end of line right behind the opening quotes is dropped. -/
def blockText : Reader String := do
  let quote ← one fun c => c == '"' || c == '\''
  exactly (String.ofList [quote, quote])
  let _ ← maybe newline
  blockLoop quote ((← get).length + 1) []

/-- Takes a text. -/
def string : Reader String := do
  let s ← get
  if "\"\"\"".toList.isPrefixOf s ∨ "\'\'\'".toList.isPrefixOf s then blockText else lineText

end Reader

end CallMemo.Toml
