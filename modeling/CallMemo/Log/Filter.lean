import CallMemo.Binary64.Literal
import CallMemo.Log.Event
import CallMemo.Log.Pattern
import CallMemo.Text.Alphanumeric
import CallMemo.Text.Blank
import CallMemo.Text.Integer

/-!
# Log filters

A filter is a list of directives. Each sets a level for the targets with a given beginning, or only
for those of their events that have a given field; of the directives that apply to an event the one
with the longest beginning decides, of equally long ones one with a field before one without, and of
equal ones the last. An event that no directive applies to is not logged.

A written directive is a level, a target, or a target with a level behind an equals sign. The target
may be followed by brackets with the name of a span and a field in braces.
-/

namespace CallMemo.Log

/-- What a directive speaks of among all that comes from its targets. -/
inductive Scope where
  /-- Every event. -/
  | events
  /-- The events that have a field of this name. -/
  | having (field : String)
  /-- Spans of time, or what happens within them; no event does. -/
  | spans
  deriving DecidableEq, Repr

/-- A level for the targets that begin with a given text. -/
structure Directive where
  /-- The beginning of the targets it applies to; every target begins with the empty text. -/
  target : String := ""
  /-- What it speaks of. -/
  scope : Scope := .events
  /-- The most verbose level that is logged, zero for none. -/
  verbosity : Nat
  deriving DecidableEq, Repr

namespace Directive

/-- Whether the directive speaks of an event. -/
def appliesTo (d : Directive) (e : Event) : Bool :=
  d.target.isPrefixOf e.target && match d.scope with
    | .events => true
    | .having field => e.hasField field
    | .spans => false

/-- Whether the directive decides if a later one applies to the same event. -/
def outranks (d later : Directive) : Bool :=
  later.target.length < d.target.length ||
    later.target.length == d.target.length && match d.scope, later.scope with
      | .having a, .having b => b < a
      | .having _, .events => true
      | _, _ => false

end Directive

/-- Directives in the order in which they were given. -/
abbrev Filter := List Directive

namespace Filter

/-- Events of importance and above pass. -/
def default : Filter := [{ verbosity := Level.info.verbosity }]

/-- The most verbose level of a written level, a number up to five or a name in any case. -/
def verbosity? (text : String) : Option Nat :=
  match Text.readInteger 6 text.toList with
  | .ok n => some n
  | .error _ =>
    match text.map Char.toLower with
    | "off" => some 0
    | "error" => some 1
    | "warn" => some 2
    | "info" => some 3
    | "debug" => some 4
    | "trace" => some 5
    | _ => none

/-! ## Reading

Blanks around a directive are passed over when its parts are told apart, but each part is taken from
the directive as it was given, at the same distance from its beginning, in bytes. So blanks in front
belong to the target, and blanks behind to the level.
-/

/-- Whether a directive may begin with this character. -/
def isDirectiveStart (c : Char) : Bool :=
  c == '-' || c == ':' || c == '_' || c == '[' || Text.isAlphanumeric c

/-- The number of bytes of a text. -/
def size (cs : List Char) : Nat := cs.foldl (fun n c => n + c.utf8Size) 0

/-- The first characters of a text, up to a number of bytes. -/
def takeBytes : Nat → List Char → List Char
  | _, [] => []
  | 0, _ => []
  | n, c :: cs => c :: takeBytes (n - c.utf8Size) cs

/-- The characters of a text behind a number of bytes. -/
def dropBytes : Nat → List Char → List Char
  | _, [] => []
  | 0, cs => cs
  | n, c :: cs => dropBytes (n - c.utf8Size) cs

/-- Whether a field may be compared with this value: a number, a truth value or a pattern. -/
def isFieldValue (cs : List Char) : Bool :=
  isPattern cs || (Binary64.readLiteral cs).toBool

/-- Reads a field, with a value behind an equals sign if it has one. -/
def readField? (cs : List Char) : Option Scope :=
  match cs.takeWhile (· ≠ '='), cs.dropWhile (· ≠ '=') with
  | [], [] => none
  | name, [] => some (.having (String.ofList name))
  | _, _ :: value => if isFieldValue (value.takeWhile (· ≠ '=')) then some .spans else none

/-- Reads the end of a directive, which begins at the byte `start`: nothing, so that everything is
logged, or a level behind an equals sign. -/
def readLevel? (given : List Char) (start : Nat) (rest : List Char) : Option Nat :=
  match rest with
  | [] => some Level.trace.verbosity
  | '=' :: _ =>
    let level := dropBytes (start + 1) given
    if level = [] then some Level.trace.verbosity else verbosity? (String.ofList level)
  | _ => none

/-- Reads what stands in the brackets of a directive, from the byte `start` on: what the directive
speaks of, the byte behind the closing bracket, and the rest. -/
def readScope? (given : List Char) (start : Nat) (rest : List Char) :
    Option (Scope × Nat × List Char) := do
  let isEnd := fun c => c = ']' ∨ c = '\x7b'
  let span := rest.takeWhile fun c => ¬ isEnd c
  match rest.dropWhile fun c => ¬ isEnd c with
  | [] => none
  | ']' :: rest => return (.spans, start + size span + 1, rest)
  | _ :: rest =>
    let field := rest.takeWhile (· ≠ '\x7d')
    let fieldStart := start + size span + 1
    match rest.dropWhile (· ≠ '\x7d') with
    | _ :: ']' :: rest =>
      let scope ← readField? (takeBytes (size field) (dropBytes fieldStart given))
      return (if span = [] then scope else .spans, fieldStart + size field + 2, rest)
    | _ => none

/-- Reads one directive. -/
def readDirective? (given : List Char) : Option Directive := do
  let walked := Text.trimBlanks given
  guard (walked.head?.any isDirectiveStart)
  let name := walked.takeWhile fun c => c ≠ '=' ∧ c ≠ '['
  let target := String.ofList (takeBytes (size name) given)
  match walked.dropWhile fun c => c ≠ '=' ∧ c ≠ '[' with
  | [] =>
    match verbosity? (String.ofList given) with
    | some verbosity => return { verbosity }
    | none => return { target := String.ofList given, verbosity := Level.trace.verbosity }
  | '[' :: rest =>
    let (scope, stop, rest) ← readScope? given (size name + 1) rest
    return { target, scope, verbosity := ← readLevel? given stop rest }
  | rest => return { target, verbosity := ← readLevel? given (size name) rest }

/-- The pieces of a text between commas. -/
def pieces (cs : List Char) : List (List Char) :=
  cs.foldr (fun c acc => if c = ',' then [] :: acc else match acc with
    | [] => [[c]]
    | p :: rest => (c :: p) :: rest) [[]]

/-- Reads directives separated by commas. A text without any lets only errors pass. -/
def ofText? (text : String) : Option Filter := do
  let directives ← ((pieces text.toList).filter (· ≠ [])).mapM readDirective?
  return if directives.isEmpty then [{ verbosity := Level.error.verbosity }] else directives

/-- The filter of a text, the default one if the text is absent or cannot be read. -/
def ofSetting (text? : Option String) : Filter := (text?.bind ofText?).getD default

/-! ## Choice -/

/-- The directive that decides on an event. -/
def deciding? (f : Filter) (e : Event) : Option Directive :=
  (f.filter (·.appliesTo e)).foldl (fun best d =>
    match best with
    | some b => if b.outranks d then some b else some d
    | none => some d) none

/-- Whether an event passes. -/
def passes (f : Filter) (e : Event) : Bool :=
  (f.deciding? e).any (e.level.verbosity ≤ ·.verbosity)

end Filter

end CallMemo.Log
