import GraphFilter.Query
import GraphFilter.Filter.Decode
import GraphFilter.Program.Error
import GraphFilter.Files.Path

/-!
# Commands

What a run is asked for: the find or count query of a model, with the filter given
as text or in a file.
-/

namespace GraphFilter

/-- Where the text of a filter comes from.  A text that is given is preferred to a
file. -/
structure Input where
  text : Option String
  file : Option String

/-- The kind of query that is asked for. -/
inductive Verb where
  | find
  | count
deriving DecidableEq

/-- A query that is asked for. -/
structure Command where
  verb : Verb
  model : String
  input : Input

namespace Command

/-- Read a file named by the user. -/
def fileText (host : Host) (path : String) : Except RunError String :=
  let path := host.expand path
  match (host.entry path).text with
  | .ok text => .ok text
  | .error fault => .error (.inputUnreadable path fault)

/-- The text of a filter, if there is one. -/
def readInput (host : Host) (input : Input) : Except RunError (Option String) :=
  match input.text, input.file with
  | some text, _ => .ok (some text)
  | none, some path => (fileText host path).map some
  | none, none => .ok none

/-- Read a text that may be missing. -/
def parseOptional {α : Type} (stage : Stage) (parse : String → Except FilterError α) :
    Option String → Except RunError (Option α)
  | none => .ok none
  | some text =>
    match parse text with
    | .ok a => .ok (some a)
    | .error e => .error (.refused stage e)

/-- Compile a query with its warnings. -/
def compileQuery (stage : Stage) (query : Compile Query) : Except RunError Query × List Warning :=
  match query.runFresh with
  | (.ok q, warnings) => (.ok q, warnings)
  | (.error e, warnings) => (.error (.refused stage e), warnings)

/-- The query that a command asks for, with the warnings on the way. -/
def execute (host : Host) (o : Options) (c : Command) : Except RunError Query × List Warning :=
  match readInput host c.input with
  | .error e => (.error e, [])
  | .ok text =>
    match c.verb with
    | .find =>
      match parseOptional .parseFilter Filter.parse text with
      | .error e => (.error e, [])
      | .ok f => compileQuery .compileFilter (Query.find o c.model (f.getD .empty))
    | .count =>
      match parseOptional .parseWhere Where.parse text with
      | .error e => (.error e, [])
      | .ok w => compileQuery .compileWhere (Query.count o c.model w)

end Command

end GraphFilter
