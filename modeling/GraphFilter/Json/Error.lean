/-!
# Reading errors

What can be wrong with a JSON text, where it was noticed, and the wording.
Faults of the text come first, faults of a well-formed text with the wrong shape
after them.
-/

namespace GraphFilter.Json

/-- A place in a text: lines count from one, columns count bytes from the start
of the line. -/
structure Position where
  line : Nat
  column : Nat
deriving DecidableEq

/-- What is wrong with a text. -/
inductive Fault where
  | endInValue
  | endInString
  | endInList
  | endInObject
  | expectedColon
  | expectedListEnd
  | expectedObjectEnd
  | expectedWord
  | expectedValue
  | invalidEscape
  | invalidNumber
  | numberOutOfRange
  | loneSurrogate
  | endOfHexEscape
  | keyNotString
  | controlCharacter
  | trailingComma
  | trailingCharacters
  | tooDeep
  | wrongType (found expected : String)
  | wrongValue (found expected : String)
  | wrongLength (length : Nat) (expected : String)
  | repeatedField (name : String)
  | rejected (reason : String)
deriving DecidableEq

/-- Wording of a fault. -/
def Fault.message : Fault → String
  | endInValue => "EOF while parsing a value"
  | endInString => "EOF while parsing a string"
  | endInList => "EOF while parsing a list"
  | endInObject => "EOF while parsing an object"
  | expectedColon => "expected `:`"
  | expectedListEnd => "expected `,` or `]`"
  | expectedObjectEnd => "expected `,` or `\x7d`"
  | expectedWord => "expected ident"
  | expectedValue => "expected value"
  | invalidEscape => "invalid escape"
  | invalidNumber => "invalid number"
  | numberOutOfRange => "number out of range"
  | loneSurrogate => "lone leading surrogate in hex escape"
  | endOfHexEscape => "unexpected end of hex escape"
  | keyNotString => "key must be a string"
  | controlCharacter => "control character (\\u0000-\\u001F) found while parsing a string"
  | trailingComma => "trailing comma"
  | trailingCharacters => "trailing characters"
  | tooDeep => "recursion limit exceeded"
  | wrongType found expected => "invalid type: " ++ found ++ ", expected " ++ expected
  | wrongValue found expected => "invalid value: " ++ found ++ ", expected " ++ expected
  | wrongLength length expected =>
    "invalid length " ++ toString length ++ ", expected " ++ expected
  | repeatedField name => "duplicate field `" ++ name ++ "`"
  | rejected reason => reason

/-- A fault and, if it is known, its place. -/
structure Error where
  fault : Fault
  position : Option Position
deriving DecidableEq

/-- Wording of an error. -/
def Error.message (e : Error) : String :=
  match e.position with
  | some p =>
    e.fault.message ++ " at line " ++ toString p.line ++ " column " ++ toString p.column
  | none => e.fault.message

end GraphFilter.Json
