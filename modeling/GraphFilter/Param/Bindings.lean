import GraphFilter.Param.Value

/-!
# Bindings

The parameters of a query: a value for each placeholder name, sorted by name.
-/

namespace GraphFilter

/-- Placeholder names and their values, sorted by name. -/
structure Bindings where
  entries : List (String × Param)

namespace Bindings

/-- No bindings. -/
def empty : Bindings :=
  ⟨[]⟩

/-- Bind a name; an earlier value of the name is replaced. -/
def insert (b : Bindings) (name : String) (value : Param) : Bindings :=
  ⟨insertByKey name value b.entries⟩

/-- Bind names one after the other. -/
def insertAll (b : Bindings) (entries : List (String × Param)) : Bindings :=
  entries.foldl (fun b entry => b.insert entry.1 entry.2) b

/-- Bindings given one after the other. -/
def ofList (entries : List (String × Param)) : Bindings :=
  empty.insertAll entries

/-- Merge two maps; on a common name the second one wins. -/
def union (first second : Bindings) : Bindings :=
  first.insertAll second.entries

/-- The value of a name. -/
def get? (b : Bindings) (name : String) : Option Param :=
  b.entries.lookup name

/-- Whether a name is bound. -/
def contains (b : Bindings) (name : String) : Bool :=
  b.entries.any fun entry => entry.1 == name

/-- The bound names in order. -/
def names (b : Bindings) : List String :=
  b.entries.map Prod.fst

/-- Number of bound names. -/
def size (b : Bindings) : Nat :=
  b.entries.length

/-- The bindings as a JSON object. -/
def toJson (b : Bindings) : Json.Value :=
  .object (Param.toMembers b.entries)

/-- A name that was bound has its value. -/
@[simp]
theorem get?_insert_self (b : Bindings) (name : String) (value : Param) :
    (b.insert name value).get? name = some value :=
  lookup_insertByKey_self name value b.entries

/-- Binding a name adds that name. -/
@[simp]
theorem mem_names_insert {b : Bindings} {name n : String} {value : Param} :
    n ∈ (b.insert name value).names ↔ n = name ∨ n ∈ b.names :=
  mem_keys_insertByKey

end Bindings

end GraphFilter
