/-!
# Scripts

What a program does, as data: it writes lines, asks for files, and ends with an exit code. A script
has a meaning under any account of how the system answers, so that what a program does is settled
without running it.
-/

namespace CallMemo.Bench

/-- The steps of a program in order. -/
inductive Script where
  /-- Ends with an exit code. -/
  | finish (code : UInt32)
  /-- Writes lines to the output. -/
  | print (lines : List String) (next : Script)
  /-- Writes lines to the error output. -/
  | complain (lines : List String) (next : Script)
  /-- Reads a file; the answer is its text or the reason why there is none. -/
  | read (path : String) (next : Except String String → Script)
  /-- Writes a file; the answer is the reason why it cannot be written, if there is one. -/
  | write (path text : String) (next : Except String Unit → Script)

/-- How a system answers requests for files. -/
structure Files where
  /-- The text of a file or the reason why there is none. -/
  read : String → Except String String
  /-- Whether a file can be written, or the reason why not. -/
  write : String → Except String Unit

/-- What a script leaves behind. -/
structure Outcome where
  /-- The exit code. -/
  code : UInt32
  /-- The lines of the output. -/
  output : List String := []
  /-- The lines of the error output. -/
  complaints : List String := []
  /-- The files written with their texts, in order. -/
  written : List (String × String) := []
  deriving DecidableEq, Repr

/-- What the script leaves behind on a system with the given files. -/
def Script.outcome (files : Files) : Script → Outcome
  | finish code => { code }
  | print lines next =>
    let o := next.outcome files
    { o with output := lines ++ o.output }
  | complain lines next =>
    let o := next.outcome files
    { o with complaints := lines ++ o.complaints }
  | read path next => (next (files.read path)).outcome files
  | write path text next =>
    let answer := files.write path
    let o := (next answer).outcome files
    match answer with
    | .ok () => { o with written := (path, text) :: o.written }
    | .error _ => o

end CallMemo.Bench
