import CallMemo.Binary64.Basic

/-!
# TOML values and tables

A document is a table. Tables remember how they came about: a header may reopen a table that was
merely implied so far, and dotted keys may add to tables that dotted keys made.
-/

namespace CallMemo.Toml

/-- A value without parts. -/
inductive Scalar where
  /-- A text. -/
  | string (text : String)
  /-- An integer of sixty-four bits. -/
  | integer (n : Int)
  /-- A floating-point number. -/
  | float (x : Binary64)
  /-- A truth value. -/
  | boolean (b : Bool)
  /-- A date, a time or both. -/
  | moment
  deriving DecidableEq, Repr

/-- How a table came about. -/
inductive Origin where
  /-- It has a header of its own, or braces around it. -/
  | explicit
  /-- It is implied by the header of a table inside it. -/
  | implied
  /-- Dotted keys made it. -/
  | dotted
  deriving DecidableEq, Repr

mutual

/-- What a key stands for. -/
inductive Item where
  /-- A value without parts. -/
  | scalar (s : Scalar)
  /-- A list of values. -/
  | array (items : List Item)
  /-- A table in braces, which nothing can add to later. -/
  | braced (t : Table)
  /-- A table. -/
  | table (t : Table)
  /-- Tables under one repeated header: the last one, and the others from the last back. -/
  | tables (newest : Table) (older : List Table)

/-- Keys and what they stand for. -/
inductive Table where
  /-- A table with its origin. -/
  | mk (origin : Origin) (entries : List (String × Item))

end

namespace Table

/-- How the table came about. -/
def origin : Table → Origin
  | mk o _ => o

/-- The keys in order of first mention. -/
def entries : Table → List (String × Item)
  | mk _ es => es

/-- A table without keys. -/
def empty (o : Origin) : Table := mk o []

/-- What a key stands for. -/
def find? (t : Table) (key : String) : Option Item := t.entries.lookup key

/-- Sets what a key stands for, in its place if it is there already. -/
def set (t : Table) (key : String) (item : Item) : Table :=
  if (t.find? key).isSome then
    mk t.origin (t.entries.map fun (k, i) => if k = key then (k, item) else (k, i))
  else mk t.origin (t.entries ++ [(key, item)])

/-- Changes the table that a path of keys leads to. Tables missing on the way are made with the
given origin. A repeated header stands for its last table, and dotted keys do not enter a table
that has a header of its own. -/
def alterAt (change : Table → Option Table) (made : Origin) : List String → Table → Option Table
  | [], t => change t
  | key :: path, t => do
    match t.find? key with
    | none => return t.set key (.table (← alterAt change made path (empty made)))
    | some (.table inner) =>
      guard ¬ (made = .dotted ∧ inner.origin = .explicit)
      return t.set key (.table (← alterAt change made path inner))
    | some (.tables newest older) =>
      return t.set key (.tables (← alterAt change made path newest) older)
    | some (.scalar _) | some (.array _) | some (.braced _) => none

/-- Adds a value under a dotted key. The table that receives it is the one at hand, or one that
dotted keys made, and it does not have the key yet. -/
def add (t : Table) (path : List String) (key : String) (item : Item) : Option Table :=
  t.alterAt (fun inner => do
    guard (path.isEmpty ∨ inner.origin = .dotted)
    guard (inner.find? key).isNone
    return inner.set key item) .dotted path

/-- Opens the table of a header: a new one, or one that was merely implied so far. -/
def openTable (t : Table) (path : List String) (key : String) : Option Table :=
  t.alterAt (fun parent =>
    match parent.find? key with
    | none => some (parent.set key (.table (empty .explicit)))
    | some (.table (mk .implied es)) => some (parent.set key (.table (mk .explicit es)))
    | some _ => none) .implied path

/-- Opens the next table of a repeated header. -/
def openNext (t : Table) (path : List String) (key : String) : Option Table :=
  t.alterAt (fun parent =>
    match parent.find? key with
    | none => some (parent.set key (.tables (empty .explicit) []))
    | some (.tables newest older) =>
      some (parent.set key (.tables (empty .explicit) (newest :: older)))
    | some _ => none) .implied path

end Table

end CallMemo.Toml
