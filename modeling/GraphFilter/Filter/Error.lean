import GraphFilter.Json.Printer
import GraphFilter.Json.Error

/-!
# Filter errors and warnings

Why a filter is refused, and what is reported when a malformed part of it is left
out instead.
-/

namespace GraphFilter

/-! ## Errors -/

/-- Why a filter is refused. -/
inductive FilterError where
  | tooLarge (limit : Nat)
  | invalidJson (error : Json.Error)
  | invalid (reason : String)
  | unsupportedOperator (field operator : String)
  | expectedList (field operator : String)
  | expectedScalar (field operator : String)
  | invalidOrder (entry : String)
  | notNumeric (field operator : String) (got : Json.Value)

namespace FilterError

/-- An operator and its field, as messages name them. -/
def subject (field operator : String) : String :=
  "Operator '" ++ operator ++ "' on field '" ++ field ++ "'"

/-- Wording of an error. -/
def message : FilterError → String
  | tooLarge limit => "Filter JSON exceeds maximum size of " ++ toString limit ++ " bytes"
  | invalidJson error => "Invalid filter JSON: " ++ error.message
  | invalid reason => "Invalid filter: " ++ reason
  | unsupportedOperator field operator =>
    "Unsupported operator '" ++ operator ++ "' on field '" ++ field ++ "'"
  | expectedList field operator => subject field operator ++ " expects an array value"
  | expectedScalar field operator => subject field operator ++ " expects a scalar value"
  | invalidOrder entry =>
    "Invalid order entry '" ++ entry ++ "': expected '<field> [ASC|DESC]'"
  | notNumeric field operator got =>
    subject field operator ++ " expects a numeric value, got " ++ got.print

/-- The messages of an error and of what caused it, outermost first. -/
def chain : FilterError → List String
  | invalidJson error => [(invalidJson error).message, error.message]
  | other => [other.message]

/-- Whether the error concerns a single condition or order entry, which can be
left out without it. -/
def isMalformed : FilterError → Bool
  | tooLarge _ | invalidJson _ | invalid _ => false
  | unsupportedOperator _ _ | expectedList _ _ | expectedScalar _ _ | invalidOrder _
  | notNumeric _ _ _ => true

end FilterError

/-! ## Warnings -/

/-- What was left out or overlooked. -/
inductive Warning where
  | droppedCondition (field operator : String) (error : FilterError)
  | droppedOrder (entry : String) (error : FilterError)
  | unknownFields (names : List String)

/-- Wording of a warning. -/
def Warning.message : Warning → String
  | droppedCondition _ _ _ => "Dropping malformed where condition"
  | droppedOrder _ _ => "Dropping malformed order entry"
  | unknownFields _ => "Unknown fields in config file (possible typos)"

/-- The error that a dropped part would have been refused with. -/
def Warning.error? : Warning → Option FilterError
  | droppedCondition _ _ error => some error
  | droppedOrder _ error => some error
  | unknownFields _ => none

end GraphFilter
