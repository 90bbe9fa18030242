import CallMemo.Json.Skip

/-!
# Typed values and records

Readers for numbers, truth values, lists and records. A record is written either as an object, in
which unknown members are skipped, or as a list of its members in their order. A value of the wrong
kind is reported as soon as enough of it was read to know its kind.
-/

namespace CallMemo.Json.Reader

/-- Reads on far enough to report that the value is of the wrong kind. -/
def refuse {α : Type} : Reader α := do
  match ← peek with
  | none => throw .truncated
  | some 'n' =>
    expect ['n', 'u', 'l', 'l']
    throw .mismatched
  | some 't' =>
    expect ['t', 'r', 'u', 'e']
    throw .mismatched
  | some 'f' =>
    expect ['f', 'a', 'l', 's', 'e']
    throw .mismatched
  | some '"' =>
    advance
    let _ ← quoted true
    throw .mismatched
  | some '[' | some '{' => throw .mismatched
  | some c =>
    if c = '-' ∨ c.isDigit then
      let n ← numeral
      if n.toBinary64?.isSome then throw .mismatched else throw .malformed
    else throw .malformed

/-- Whether the next value is a number. -/
def atNumber : Reader Bool := do
  match ← peek with
  | some c => return c == '-' || c.isDigit
  | none => return false

/-- Reads a natural number below a limit, written without sign, point and exponent. -/
def nat (limit : Nat) : Reader Nat := do
  if ← atNumber then
    let n ← numeral
    match n.toNat? with
    | some k =>
      if k < limit then return k
      else if n.toBinary64?.isSome then throw .mismatched else throw .malformed
    | none => if n.toBinary64?.isSome then throw .mismatched else throw .malformed
  else refuse

/-- Reads a word of sixty-four bits. -/
def uint64 : Reader UInt64 := Nat.toUInt64 <$> nat UInt64.size

/-- Reads a word of sixteen bits. -/
def uint16 : Reader UInt16 := Nat.toUInt16 <$> nat UInt16.size

/-- Reads a floating-point number, written in any form. -/
def binary64 : Reader Binary64 := do
  if ← atNumber then
    let n ← numeral
    match n.toBinary64? with
    | some x => return x
    | none => throw .malformed
  else refuse

/-- Reads a truth value. -/
def bool : Reader Bool := do
  match ← peek with
  | some 't' =>
    expect ['t', 'r', 'u', 'e']
    return true
  | some 'f' =>
    expect ['f', 'a', 'l', 's', 'e']
    return false
  | _ => refuse

/-- Goes on to the next element of a list, if there is one; a closing bracket is not taken. -/
def hasElement (first : Bool) : Reader Bool := do
  match ← peek with
  | none => throw .truncated
  | some ']' => return false
  | some ',' =>
    if first then return true
    else
      advance
      match ← peek with
      | none => throw .truncated
      | some ']' => throw .malformed
      | some _ => return true
  | some _ => if first then return true else throw .malformed

/-- Takes the bracket that ends a list; nothing else may stand in front of it. -/
def endList : Reader Unit := do
  match ← peek with
  | none => throw .truncated
  | some ']' => advance
  | some _ => throw .malformed

/-- Takes the elements of a list and its closing bracket; `fuel` bounds their number and `taken`
holds those read so far, the last one first. -/
def elements {α : Type} (item : Reader α) : Nat → List α → Reader (List α)
  | 0, _ => throw .truncated
  | fuel + 1, taken => do
    if ← hasElement taken.isEmpty then
      let a ← item
      elements item fuel (a :: taken)
    else
      advance
      return taken.reverse

/-- Reads a list. -/
def list {α : Type} (item : Reader α) : Reader (List α) := do
  match ← peek with
  | some '[' =>
    advance
    elements item ((← get).length + 1) []
  | _ => refuse

end Reader

/-- One member of a record whose parts are gathered in a draft of type `δ`. -/
structure Member (δ : Type) where
  /-- The name of the member. -/
  name : String
  /-- Whether the draft holds the member already. -/
  isGiven : δ → Bool
  /-- Reads the value of the member into the draft. -/
  read : δ → Reader δ

/-- A record: its members in order, the draft to start from and the completion of a draft, which
fails at the first required member that the draft lacks. -/
structure Record (δ α : Type) where
  /-- The draft that holds no member. -/
  blank : δ
  /-- The members in their order. -/
  members : List (Member δ)
  /-- The record that a draft stands for. -/
  complete : δ → Except Fault α

namespace Record

variable {δ α : Type}

/-- Reads the value of the member with the given name, or skips it if there is no such member. -/
def readMember (r : Record δ α) (name : List Char) (draft : δ) : Reader δ :=
  match r.members.find? (·.name.toList = name) with
  | some m => do
    if m.isGiven draft then throw (.repeated m.name)
    Reader.colon
    m.read draft
  | none => do
    Reader.colon
    Reader.skipValue
    return draft

/-- Takes the members of an object and its closing bracket; `fuel` bounds their number. -/
def readMembers (r : Record δ α) : Nat → Bool → δ → Reader δ
  | 0, _, _ => throw .truncated
  | fuel + 1, first, draft => do
    match ← Reader.peek with
    | some '}' =>
      Reader.advance
      return draft
    | some c =>
      if !first then
        if c ≠ ',' then throw .malformed
        Reader.advance
      match ← Reader.peek with
      | some '"' =>
        Reader.advance
        let name ← Reader.quoted true
        let draft ← r.readMember name draft
        readMembers r fuel false draft
      | _ => Reader.stop
    | none => throw .truncated

/-- Takes the values of the given members from a list, up to its end. -/
def readValues : List (Member δ) → Bool → δ → Reader δ
  | [], _, draft => return draft
  | m :: rest, first, draft => do
    if ← Reader.hasElement first then
      let draft ← m.read draft
      readValues rest false draft
    else return draft

/-- Reads a record. A list that ends before a required member is of the wrong kind. -/
def read (r : Record δ α) : Reader α := do
  match ← Reader.peek with
  | some '{' =>
    Reader.advance
    let draft ← r.readMembers ((← get).length + 1) true r.blank
    r.complete draft
  | some '[' =>
    Reader.advance
    let draft ← readValues r.members true r.blank
    match r.complete draft with
    | .error _ => throw .mismatched
    | .ok a =>
      Reader.endList
      return a
  | _ => Reader.refuse

end Record

/-- Reads a whole text; only blanks may follow the value. -/
def readText {α : Type} (value : Reader α) (text : String) : Except Fault α := do
  let (a, rest) ← value text.toList
  if rest.all isBlank then return a else throw .malformed

end CallMemo.Json
