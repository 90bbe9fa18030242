import CallMemo.Toml.Number

/-!
# TOML documents

A document is read line by line. A header opens the table that the following lines add to. Values
are nested to a bounded depth, and keys have a bounded number of parts.
-/

namespace CallMemo.Toml

/-- The bound on the depth of values and on the number of parts of a key; it is not reached. -/
def depthLimit : Nat := 80

namespace Reader

/-- Takes one part of a key. -/
def keyPart : Reader String := do
  match ← next? with
  | some '"' | some '\'' => lineText
  | _ =>
    let s ← get
    let cs := s.takeWhile isBare
    guard (cs ≠ [])
    set (s.dropWhile isBare)
    return String.ofList cs

/-- Takes the parts of a dotted key with the blanks around them; `fuel` bounds their number. -/
def keyLoop : Nat → Reader (List String)
  | 0 => failure
  | fuel + 1 => do
    blanks
    let part ← keyPart
    blanks
    if (← next?) = some '.' then
      advance
      return part :: (← keyLoop fuel)
    else return [part]

/-- Takes a dotted key: the parts that lead to a table, and the last part. -/
def key : Reader (List String × String) := do
  let parts ← keyLoop (depthLimit - 1)
  match parts.getLast? with
  | some last => return (parts.dropLast, last)
  | none => failure

/-- Takes a key and the value behind it. -/
def pair (value : Reader Item) : Reader ((List String × String) × Item) := do
  let k ← key
  exactly "="
  blanks
  return (k, ← value)

/-- Takes the items of an array and its closing bracket; `fuel` bounds their number. -/
def arrayLoop (value : Reader Item) : Nat → List Item → Reader (List Item)
  | 0, _ => failure
  | fuel + 1, taken => do
    filler true
    if (← next?) = some ']' then
      advance
      return taken.reverse
    else
      let item ← value
      filler true
      match ← one fun c => c == ',' || c == ']' with
      | ',' => arrayLoop value fuel (item :: taken)
      | _ => return (item :: taken).reverse

/-- Takes the pairs of a table in braces and the closing brace; `fuel` bounds their number. -/
def bracedLoop (value : Reader Item) : Nat → Table → Reader Table
  | 0, _ => failure
  | fuel + 1, t => do
    let ((path, last), item) ← pair value
    let t ← (t.add path last item : Reader Table)
    blanks
    match ← one fun c => c == ',' || c == '}' with
    | ',' => bracedLoop value fuel t
    | _ => return t

/-- Takes a value with at most the given number of brackets around its innermost part. -/
def value : Nat → Reader Item
  | 0 => .scalar <$> scalar
  | depth + 1 => do
    match ← next? with
    | some '[' =>
      advance
      return .array (← arrayLoop (value depth) ((← get).length + 1) [])
    | some '{' =>
      advance
      blanks
      if (← next?) = some '}' then
        advance
        return .braced (.empty .explicit)
      else return .braced (← bracedLoop (value depth) ((← get).length + 1) (.empty .explicit))
    | _ => .scalar <$> scalar

/-- Takes a header and opens its table; gives the document and the path of the open table. -/
def header (document : Table) : Reader (Table × List String) := do
  exactly "["
  let isRepeated := (← next?) == some '['
  if isRepeated then advance
  let (path, last) ← key
  exactly (if isRepeated then "]]" else "]")
  endOfLine
  let document ←
    (if isRepeated then document.openNext path last else document.openTable path last :
      Reader Table)
  return (document, path ++ [last])

/-- Takes the lines of a document; `opened` is the path of the table that lines add to. -/
def linesLoop : Nat → Table → List String → Reader Table
  | 0, _, _ => failure
  | fuel + 1, document, opened => do
    blanks
    match ← next? with
    | none => return document
    | some '[' =>
      let (document, opened) ← header document
      linesLoop fuel document opened
    | some c =>
      if c = '#' ∨ c = '\n' ∨ c = '\r' then
        endOfLine
        linesLoop fuel document opened
      else
        let ((path, last), item) ← pair (value (depthLimit - 1))
        endOfLine
        let document ←
          (document.alterAt (·.add path last item) .implied opened : Reader Table)
        linesLoop fuel document opened

end Reader

/-- Reads a document; a byte order mark in front of it is ignored. -/
def Table.ofText (text : String) : Option Table :=
  let cs := match text.toList with
    | '\uFEFF' :: cs => cs
    | cs => cs
  (Reader.linesLoop (cs.length + 2) (.empty .explicit) [] cs).map (·.1)

end CallMemo.Toml
