/-!
# Writing JSON text

Compact text has no blanks. Pretty text puts every element and member on a line of its own, two
spaces deeper than the brackets around it; empty brackets stay on one line.
-/

namespace CallMemo.Json

/-- A name in front of its value, in pretty text. -/
def member (name value : String) : String := s!"\"{name}\": {value}"

/-- Elements between brackets, without blanks. -/
def compact (opening closing : String) (items : List String) : String :=
  opening ++ ",".intercalate items ++ closing

/-- The blanks in front of a line at the given depth. -/
def indent (depth : Nat) : String := String.ofList (List.replicate (2 * depth) ' ')

/-- Elements between brackets, one a line; `depth` is the depth of the brackets. -/
def pretty (depth : Nat) (opening closing : String) (items : List String) : String :=
  if items.isEmpty then opening ++ closing
  else
    opening ++ "\n" ++ ",\n".intercalate (items.map (indent (depth + 1) ++ ·)) ++ "\n" ++
      indent depth ++ closing

/-- A list in pretty text. -/
def prettyList (depth : Nat) (items : List String) : String := pretty depth "[" "]" items

/-- An object in pretty text, from its written members. -/
def prettyObject (depth : Nat) (members : List String) : String :=
  pretty depth "\x7b" "\x7d" members

end CallMemo.Json
