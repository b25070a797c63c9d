import GraphFilter.Text.Alphabetic
import GraphFilter.Text.Numeral
import GraphFilter.Text.Uppercase

/-!
# Names in query text

A name that is a plain identifier stands for itself in a query.  Every other
name is put between backticks, a backtick inside it written twice, so that no
text can end the name early.
-/

namespace GraphFilter.Cypher

/-! ## Plain identifiers -/

/-- The quotation mark of names. -/
def tick : Char := '\x60'

/-- Characters that may begin a plain identifier. -/
def isWordStart (c : Char) : Bool :=
  Text.isAlphabetic c || c == '_'

/-- Characters that may continue a plain identifier. -/
def isWordChar (c : Char) : Bool :=
  Text.isAlphabetic c || Text.isNumeral c || c == '_'

/-- Whether a name can stand in a query without quotation marks. -/
def isPlain : List Char → Bool
  | [] => false
  | c :: rest => isWordStart c && rest.all isWordChar

/-- Every character of a plain identifier is a word character. -/
theorem isWordChar_of_isWordStart {c : Char} (h : isWordStart c = true) : isWordChar c = true := by
  simp only [isWordStart, Bool.or_eq_true] at h
  rcases h with h | h <;> simp [isWordChar, h]

/-! ## Quotation -/

/-- Write every backtick twice. -/
def doubleTicks (s : List Char) : List Char :=
  s.flatMap fun c => if c = tick then [tick, tick] else [c]

/-- A name as it is written in a query. -/
def quoteChars (s : List Char) : List Char :=
  if isPlain s then s else tick :: doubleTicks s ++ [tick]

/-- A name as it is written in a query. -/
def quote (name : String) : String :=
  String.ofList (quoteChars name.toList)

/-- The node label of a model: its name with the first character in upper case. -/
def label (model : String) : String :=
  quote (String.ofList (Text.capitalize model.toList))

/-- Whether a name is a plain identifier. -/
def isPlainName (name : String) : Bool :=
  isPlain name.toList

@[simp]
theorem toList_quote (name : String) : (quote name).toList = quoteChars name.toList := by
  simp [quote]

end GraphFilter.Cypher
