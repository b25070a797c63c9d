import GraphFilter.Settings.Layer

/-!
# Settings files

A settings file is a JSON object.  One member holds a layer; the names of all
others are kept, so that they can be reported.
-/

namespace GraphFilter

open Json (Cursor Failure)

/-- The contents of a settings file. -/
structure SettingsFile where
  layer : Option Layer
  unknown : List String

namespace SettingsFile

/-- The name of the member that holds the layer. -/
def layerName : String :=
  "compiler"

/-- The name of the structure in messages. -/
def expected : String :=
  "struct FileConfig"

/-- Read what follows the name of a member.  The state is the file so far and
whether its layer was read. -/
def readMember (depth : Nat) (state : SettingsFile × Bool) (name : String) (c : Cursor) :
    Except Failure ((SettingsFile × Bool) × Cursor) := do
  let (file, seen) := state
  if name = layerName then
    if seen then .error (.unplaced (.repeatedField name) c)
    else
      let c ← Json.readColon c
      let (layer, c) ← Layer.readOptional depth c
      return (({ file with layer := layer }, true), c)
  else
    let c ← Json.readColon c
    let (_, c) ← Json.readValue depth c
    let unknown := if file.unknown.contains name then file.unknown else file.unknown ++ [name]
    return (({ file with unknown := unknown }, seen), c)

/-- Read a settings file in which `depth` more arrays and objects may be nested. -/
def read (depth : Nat) (c : Cursor) : Except Failure (SettingsFile × Cursor) :=
  let c := c.skipSpace
  match c.rest with
  | '\x7b' :: _ =>
    let start : SettingsFile × Bool := (⟨none, []⟩, false)
    match Json.readMembers (readMember depth) (c.rest.length + 1) true start c.next with
    | .ok ((file, _), c) => .ok (file, c)
    | .error failure => .error failure.closeObject
  | _ => do
    let (value, c) ← Json.readFlat expected c
    Json.refuse value expected c

/-- The contents of a text. -/
def parse (text : String) : Except Json.Error SettingsFile :=
  Json.readWhole? (read (Json.depthLimit - 1)) text

end SettingsFile

end GraphFilter
