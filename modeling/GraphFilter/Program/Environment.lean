/-!
# Environments

The environment of a run is a row of lines `name=value`.  A variable is looked up by
the text in front of its value, so a name that holds an equals sign reaches into the
value of a shorter one: with the line `A=B=c`, the value of `A=B` is `c`.
-/

namespace GraphFilter

/-- Names with their values, in the order of their lines. -/
abbrev Environment := List (String × String)

namespace Environment

/-- What stands in front of the value in the line of a variable. -/
def opening (name : String) : List Char :=
  name.toList ++ ['=']

/-- The value of a name in the line of a variable, if the line has it. -/
def valueIn? (name : String) (entry : String × String) : Option String :=
  ((opening name).isPrefixOf? (opening entry.1 ++ entry.2.toList)).map String.ofList

/-- The value of a name in the first line that has it. -/
def value? (e : Environment) (name : String) : Option String :=
  e.findSome? (valueIn? name)

/-- What follows a text in its continuation. -/
theorem isPrefixOf?_append (l r : List Char) : l.isPrefixOf? (l ++ r) = some r := by
  induction l with
  | nil => rfl
  | cons c l ih =>
    change (if c == c then l.isPrefixOf? (l ++ r) else none) = some r
    simp [ih]

/-- The line of a variable has the value of its name. -/
@[simp]
theorem valueIn?_self (name value : String) : valueIn? name (name, value) = some value := by
  simp [valueIn?, isPrefixOf?_append]

@[simp]
theorem value?_nil (name : String) : value? [] name = none :=
  rfl

/-- The first line counts. -/
@[simp]
theorem value?_cons_self (e : Environment) (name value : String) :
    value? ((name, value) :: e) name = some value := by
  simp [value?]

end Environment

end GraphFilter
