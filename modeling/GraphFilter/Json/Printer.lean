import GraphFilter.Json.Value
import GraphFilter.Decimal.Shortest

/-!
# Writing JSON

The compact form, without blanks.  Strings escape quotes, backslashes and control
characters and leave every other character as it is.
-/

namespace GraphFilter.Json

/-! ## Strings -/

/-- Lower-case hexadecimal digit. -/
def hexDigit (n : Nat) : Char :=
  (Nat.toDigits 16 n).headD '0'

/-- One character of a string. -/
def escapeChar (c : Char) : List Char :=
  if c = '"' then ['\\', '"']
  else if c = '\\' then ['\\', '\\']
  else if c = '\x08' then ['\\', 'b']
  else if c = '\t' then ['\\', 't']
  else if c = '\n' then ['\\', 'n']
  else if c = '\x0c' then ['\\', 'f']
  else if c = '\r' then ['\\', 'r']
  else if c.toNat < 0x20 then
    ['\\', 'u', '0', '0', hexDigit (c.toNat / 16), hexDigit (c.toNat % 16)]
  else [c]

/-- A string between its quotes. -/
def printString (s : String) : String :=
  "\"" ++ String.ofList (s.toList.flatMap escapeChar) ++ "\""

/-! ## Values -/

/-- A number. -/
def Number.print : Number → String
  | .int n _ => toString n
  | .float x => x.text

mutual

/-- A value in compact form. -/
def Value.print : Value → String
  | .null => "null"
  | .bool b => if b then "true" else "false"
  | .number n => n.print
  | .string s => printString s
  | .array items => "[" ++ printItems items ++ "]"
  | .object members => "\x7b" ++ printMembers members ++ "\x7d"

/-- Array elements with commas between them. -/
def printItems : List Value → String
  | [] => ""
  | [v] => v.print
  | v :: w :: rest => v.print ++ "," ++ printItems (w :: rest)

/-- Object members with commas between them. -/
def printMembers : List (String × Value) → String
  | [] => ""
  | [(k, v)] => printString k ++ ":" ++ v.print
  | (k, v) :: m :: rest => printString k ++ ":" ++ v.print ++ "," ++ printMembers (m :: rest)

end

end GraphFilter.Json
