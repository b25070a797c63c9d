import GraphFilter.Json.Printer

/-!
# Writing JSON over several lines

Each element and member stands on a line of its own, indented by two spaces for
every array and object around it.  Empty ones stay on one line.
-/

namespace GraphFilter.Json

/-- A new line at a depth. -/
def newLine (depth : Nat) : String :=
  "\n" ++ String.ofList (List.replicate (2 * depth) ' ')

mutual

/-- A value at a depth. -/
def Value.prettyAt (depth : Nat) : Value → String
  | .array (v :: rest) =>
    "[" ++ prettyItems (depth + 1) (v :: rest) ++ newLine depth ++ "]"
  | .object (m :: rest) =>
    "\x7b" ++ prettyMembers (depth + 1) (m :: rest) ++ newLine depth ++ "\x7d"
  | .array [] => "[]"
  | .object [] => "\x7b\x7d"
  | .null => "null"
  | .bool b => if b then "true" else "false"
  | .number n => n.print
  | .string s => printString s

/-- Array elements, each on a line of its own. -/
def prettyItems (depth : Nat) : List Value → String
  | [] => ""
  | [v] => newLine depth ++ v.prettyAt depth
  | v :: w :: rest => newLine depth ++ v.prettyAt depth ++ "," ++ prettyItems depth (w :: rest)

/-- Object members, each on a line of its own. -/
def prettyMembers (depth : Nat) : List (String × Value) → String
  | [] => ""
  | [(k, v)] => newLine depth ++ printString k ++ ": " ++ v.prettyAt depth
  | (k, v) :: m :: rest =>
    newLine depth ++ printString k ++ ": " ++ v.prettyAt depth ++ ","
      ++ prettyMembers depth (m :: rest)

end

/-- A value over several lines. -/
def Value.pretty (v : Value) : String :=
  v.prettyAt 0

end GraphFilter.Json
