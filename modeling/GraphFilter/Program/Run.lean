import GraphFilter.Program.CommandLine
import GraphFilter.Program.EnvironmentFile

/-!
# Runs

A whole run of the program: from the arguments, the environment and the files to the
exit code and what is printed.
-/

namespace GraphFilter

/-- How a run ends. -/
structure Outcome where
  code : UInt32
  output : String
  errors : String

namespace Program

/-- The name of the program and its version. -/
def versionText : String :=
  "cypher-filter 0.1.0\n"

/-- The usage text. -/
def usageText : String :=
  "Usage: cypher-filter [OPTIONS] <find|count> -m <MODEL> [OPTIONS]\n"

/-- The name of environment files. -/
def environmentFileName : String :=
  ".env"

/-- A directory and those above it, the nearest first, as reversed paths. -/
def above : List Char → List (List Char)
  | [] => [[]]
  | '/' :: rest => rest :: above rest
  | _ :: rest => above rest

/-- The paths at which an environment file is looked for: in the current directory and
in those above it. -/
def environmentPaths : Option String → List String
  | none => []
  | some directory =>
    let path := directory.toList
    let trimmed := if path == ['/'] then [] else path
    let directories := trimmed.reverse :: (above trimmed.reverse).dropLast
    directories.map fun d => String.ofList (d.reverse ++ '/' :: environmentFileName.toList)

/-- The first environment file among some paths; what has its name and is not a regular
file is passed over.  The search ends at a file that cannot be read. -/
def environmentFile? (entry : String → Entry) : List String → Option ByteArray
  | [] => none
  | path :: paths =>
    match entry path with
    | .file content => some content
    | .directory => environmentFile? entry paths
    | .unreadable false _ => environmentFile? entry paths
    | .unreadable true _ => none
    | .absent .missing => environmentFile? entry paths
    | .absent _ => none

/-- The variables that an environment file adds to those that are set. -/
def assignments (host : Host) (given : Environment) : EnvironmentFile.Assignments :=
  let outer (name : String) : Id (Option String) := given.value? name
  match environmentFile? host.entry (environmentPaths host.directory) with
  | some content => Id.run (EnvironmentFile.assignments outer content)
  | none => .ok []

/-- The outcome if a variable cannot hold the value that it is assigned. -/
def unstorableOutcome (name : String) : Outcome :=
  ⟨101, "", "Cannot set the environment variable " ++ name ++ ": its value holds NUL\n"⟩

/-- The outcome of a command line without a command. -/
def haltOutcome : Halt → Outcome
  | .usage => ⟨2, "", usageText⟩
  | .version => ⟨0, versionText, ""⟩
  | .help => ⟨0, usageText, ""⟩

/-- Carry out a request. -/
def answer (host : Host) (request : CommandLine.Request) : Except RunError Query :=
  match (Settings.run host request.settings).1 with
  | .error e => .error e
  | .ok options => (request.command.execute host options).1

/-- The outcome of a request. -/
def outcome (host : Host) (request : CommandLine.Request) : Outcome :=
  match answer host request with
  | .ok query => ⟨0, query.print ++ "\n", ""⟩
  | .error e => ⟨1, "", "\nError: " ++ e.message ++ "\n\n"⟩

/-- The paths at which a request looks. -/
def paths (host : Host) (request : CommandLine.Request) : List String :=
  (Settings.profilePath host).toList ++
    Settings.overlayPath host request.settings.file ::
      (request.command.input.file.map host.expand).toList

/-- Run the program, given the variables that are set. -/
def run (host : Host) (given : Environment) (args : List String) : Outcome :=
  match assignments host given with
  | .error name => unstorableOutcome name
  | .ok assigned =>
    match CommandLine.parse (given ++ assigned) args with
    | .error halt => haltOutcome halt
    | .ok request => outcome host request

end Program

end GraphFilter
