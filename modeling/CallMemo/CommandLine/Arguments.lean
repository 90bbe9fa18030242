import CallMemo.CommandLine.Options
import CallMemo.Text.Terminal

/-!
# Command-line arguments

Arguments are handled from left to right. An option may carry its value behind an equals sign, a
short one also right behind its letter, or take the next argument. A value that is an argument of
its own is checked when the next option arrives or the arguments end; an argument that is no option
at all is reported before that.
-/

namespace CallMemo.CommandLine

/-- Why arguments are refused. -/
inductive UsageError where
  /-- An argument is neither an option nor a value. -/
  | unknownArgument (argument : String)
  /-- An option lacks its value. -/
  | valueRequired (s : Setting)
  /-- A value cannot be read for the given reason. -/
  | invalidValue (value : String) (s : Setting) (reason : String)
  /-- An option is given twice. -/
  | repeated (usage : String)
  /-- An option without a value is given one. -/
  | unexpectedValue (value : String) (f : Flag)
  deriving DecidableEq, Repr

/-- The explanation shown to the user. What the user has written is shown without control
sequences. -/
def UsageError.message : UsageError → String
  | unknownArgument argument => s!"unexpected argument '{Text.plain argument}' found"
  | valueRequired s => s!"a value is required for '{s.usage}' but none was supplied"
  | invalidValue value s reason => s!"invalid value '{Text.plain value}' for '{s.usage}': {reason}"
  | repeated usage => s!"the argument '{usage}' cannot be used multiple times"
  | unexpectedValue value f =>
    s!"unexpected value '{Text.plain value}' for '{f.usage}' found; no more were expected"

/-- Why the program does not run. -/
inductive Stop where
  /-- The options are to be shown. -/
  | help
  /-- The version is to be shown. -/
  | version
  /-- The arguments are refused. -/
  | usage (e : UsageError)
  deriving DecidableEq, Repr

/-- An option that waits for its value or for the value to be checked. -/
structure Pending where
  /-- The option. -/
  setting : Setting
  /-- The argument that holds its value, once there is one. -/
  value : Option String := none
  deriving DecidableEq, Repr

/-- What the arguments so far have set. -/
structure Progress where
  /-- The options set. -/
  options : Options := {}
  /-- The options given, as shown in messages. -/
  given : List String := []
  /-- The option that is not complete, if there is one. -/
  pending : Option Pending := none
  deriving DecidableEq, Repr

namespace Progress

/-- Notes that an option is given; it may be given only once. -/
def note (p : Progress) (usage : String) : Except Stop Progress :=
  if usage ∈ p.given then .error (.usage (.repeated usage))
  else .ok { p with given := usage :: p.given }

/-- Gives an option its value. -/
def give (p : Progress) (s : Setting) (value : String) : Except Stop Progress := do
  let p ← p.note s.usage
  match p.options.set s value with
  | .ok options => return { p with options }
  | .error .noValue => throw (.usage (.valueRequired s))
  | .error (.unreadable reason) => throw (.usage (.invalidValue value s reason))

/-- Completes the option that is pending. -/
def resolve (p : Progress) : Except Stop Progress :=
  match p.pending with
  | none => .ok p
  | some { setting, value := none } => .error (.usage (.valueRequired setting))
  | some { setting, value := some value } => { p with pending := none }.give setting value

/-- Handles an option that takes a value, with the value attached to it if there is one. -/
def setting (p : Progress) (s : Setting) (attached : Option String) : Except Stop Progress := do
  let p ← p.resolve
  match attached with
  | some value => p.give s value
  | none => return { p with pending := some { setting := s } }

/-- Handles an option without a value. -/
def flag (p : Progress) (f : Flag) : Except Stop Progress := do
  let p ← p.resolve
  match f with
  | .help => throw .help
  | .version => throw .version
  | f =>
    let p ← p.note f.usage
    return { p with options := p.options.setFlag f }

/-- Handles an option given by its name. -/
def long (p : Progress) (name : String) (attached : Option String) : Except Stop Progress :=
  match Setting.all.find? (·.names.1 = name), Flag.all.find? (·.name = name), attached with
  | some s, _, _ => p.setting s attached
  | none, some f, none => p.flag f
  | none, some f, some value => .error (.usage (.unexpectedValue value f))
  | none, none, _ => .error (.usage (.unknownArgument ("--" ++ name)))

/-- The value that stands behind the letter of an option in the same argument. -/
def attachedValue? : List Char → Option String
  | [] => none
  | '=' :: cs => some (String.ofList cs)
  | cs => some (String.ofList cs)

/-- Handles an option given by its letter, with the rest of its argument. The letters that stand
for options without a value all end the program, so nothing behind them is looked at. -/
def short (p : Progress) (letter : Char) (rest : List Char) : Except Stop Progress :=
  match letter with
  | 'n' => p.setting .iterations (attachedValue? rest)
  | 'w' => p.setting .workers (attachedValue? rest)
  | 'h' => p.flag .help
  | 'V' => p.flag .version
  | c => .error (.usage (.unknownArgument (String.ofList ['-', c])))

/-- Handles one argument. -/
def argument (p : Progress) (arg : String) : Except Stop Progress :=
  match arg.toList with
  | '-' :: '-' :: cs =>
    let attached := match cs.dropWhile (· ≠ '=') with
      | _ :: value => some (String.ofList value)
      | [] => none
    p.long (String.ofList (cs.takeWhile (· ≠ '='))) attached
  | '-' :: letter :: rest => p.short letter rest
  | _ =>
    match p.pending with
    | some { setting, value := none } =>
      .ok { p with pending := some { setting, value := some arg } }
    | _ => .error (.usage (.unknownArgument arg))

/-- Handles arguments in order. Behind a lone double dash nothing is an option. -/
def arguments (p : Progress) : List String → Except Stop Progress
  | [] => p.resolve
  | "--" :: arg :: _ => .error (.usage (.unknownArgument arg))
  | ["--"] => p.resolve
  | arg :: rest => do (← p.argument arg).arguments rest

end Progress

/-- The options that arguments set. -/
def Options.ofArguments (args : List String) : Except Stop Options :=
  ((({} : Progress).arguments args).map (·.options))

end CallMemo.CommandLine
