import GraphFilter.Where.Compile
import GraphFilter.Text.Blank

/-!
# Order entries

An order entry is a field, optionally followed by a direction in any case.  The
direction is written as it was given.
-/

namespace GraphFilter

/-- A field to order by. -/
structure OrderKey where
  field : String
  direction : Option String
deriving DecidableEq

namespace OrderKey

/-- Whether a word is a direction. -/
def isDirection (word : List Char) : Bool :=
  let upper := word.map Char.toUpper
  upper == ['A', 'S', 'C'] || upper == ['D', 'E', 'S', 'C']

/-- The key that an entry describes. -/
def parse? (entry : String) : Option OrderKey :=
  let (field, rest) := Text.splitWord (Text.trim entry.toList)
  let direction := Text.trim rest
  if field.isEmpty then none
  else if direction.isEmpty then some ⟨String.ofList field, none⟩
  else if isDirection direction then some ⟨String.ofList field, some (String.ofList direction)⟩
  else none

/-- The text of a key. -/
def render (node : String) (k : OrderKey) : String :=
  match k.direction with
  | some direction => property node k.field ++ " " ++ direction
  | none => property node k.field

/-- Read an entry, or refuse it or leave it out. -/
def read? (strict : Bool) (entry : String) : Compile (Option OrderKey) :=
  match parse? entry with
  | some key => return some key
  | none =>
    let error := FilterError.invalidOrder entry
    Compile.reject strict error (.droppedOrder entry error)

/-- Read entries in their order. -/
def readAll (strict : Bool) : List String → Compile (List OrderKey)
  | [] => return []
  | entry :: rest => do
    let key ← read? strict entry
    let keys ← readAll strict rest
    return key.toList ++ keys

/-- The clause of the keys, empty if there are none. -/
def clause (node : String) : List OrderKey → Clause
  | [] => .empty
  | keys => .ofText ("ORDER BY " ++ ", ".intercalate (keys.map (render node)))

end OrderKey

end GraphFilter
