import GraphFilter.Filter.Compile
import GraphFilter.Json.Records

/-!
# Settings layers

Each source of settings may leave any of them open.  Layers are put on top of each
other, and what is still open in the end has a default.
-/

namespace GraphFilter

open Json (Cursor Failure)

/-- Settings of one source. -/
structure Layer where
  nodeAlias : Option String
  strict : Option Bool
  zeroPaging : Option Bool
deriving DecidableEq

namespace Layer

/-- The layer that leaves everything open. -/
def blank : Layer :=
  ⟨none, none, none⟩

/-- Put a layer on top of another one: each setting is that of the upper layer if
it has one. -/
def onto (upper lower : Layer) : Layer where
  nodeAlias := upper.nodeAlias.or lower.nodeAlias
  strict := upper.strict.or lower.strict
  zeroPaging := upper.zeroPaging.or lower.zeroPaging

/-- The blank layer changes nothing, on top or below. -/
@[simp]
theorem blank_onto (l : Layer) : blank.onto l = l := by
  simp [onto, blank]

@[simp]
theorem onto_blank (l : Layer) : l.onto blank = l := by
  simp [onto, blank]

/-- Layers may be put together in any grouping. -/
theorem onto_assoc (a b c : Layer) : (a.onto b).onto c = a.onto (b.onto c) := by
  simp [onto, Option.or_assoc]

/-- The options of a layer, with the defaults for what is open. -/
def options (l : Layer) : Options where
  nodeAlias := l.nodeAlias.getD Options.default.nodeAlias
  strict := l.strict.getD Options.default.strict
  zeroPaging := l.zeroPaging.getD Options.default.zeroPaging

/-! ## Reading -/

/-- The members of a layer. -/
inductive Key where
  | nodeAlias
  | strict
  | zeroPaging
deriving DecidableEq

/-- The name of a member. -/
def Key.name : Key → String
  | nodeAlias => "node_alias"
  | strict => "strict"
  | zeroPaging => "explicit_zero_paging"

/-- Read the value of a member into a layer. -/
def Key.read (_depth : Nat) (key : Key) (l : Layer) (c : Cursor) :
    Except Failure (Layer × Cursor) := do
  match key with
  | nodeAlias =>
    let (value, c) ← Json.readText c
    return ({ l with nodeAlias := value }, c)
  | strict =>
    let (value, c) ← Json.readFlag c
    return ({ l with strict := value }, c)
  | zeroPaging =>
    let (value, c) ← Json.readFlag c
    return ({ l with zeroPaging := value }, c)

/-- How a layer is read. -/
def record : Json.Record Layer Key where
  expected := "struct CompilerFileConfig"
  keys := [.nodeAlias, .strict, .zeroPaging]
  name := Key.name
  start := blank
  readField := Key.read
  mayEndEarly := false

/-- Read a layer or `null`. -/
def readOptional (depth : Nat) (c : Cursor) : Except Failure (Option Layer × Cursor) :=
  let c := c.skipSpace
  match c.rest with
  | 'n' :: _ => (Json.readWord ['u', 'l', 'l'] c.next).map fun c => (none, c)
  | _ => (record.read depth c).map fun (l, c) => (some l, c)

end Layer

end GraphFilter
