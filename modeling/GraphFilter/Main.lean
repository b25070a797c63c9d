import GraphFilter.Program.Run

/-!
# Command line program

Reads what a run needs from the system, has the run carried out, and prints its
outcome.
-/

namespace GraphFilter.Terminal

/-- What the system reports with a failure; two kinds of failure do not come from it. -/
def systemFault? : IO.Error → Option SystemFault
  | .alreadyExists _ code wording | .inappropriateType _ code wording
  | .interrupted _ code wording | .invalidArgument _ code wording
  | .noFileOrDirectory _ code wording | .noSuchThing _ code wording
  | .permissionDenied _ code wording | .resourceExhausted _ code wording
  | .hardwareFault code wording | .illegalOperation code wording
  | .otherError code wording | .protocolError code wording
  | .resourceBusy code wording | .resourceVanished code wording
  | .timeExpired code wording | .unsatisfiedConstraints code wording
  | .unsupportedOperation code wording => some ⟨wording, code.toNat⟩
  | .unexpectedEof | .userError _ => none

/-- What is found at a path that could not be read for some other reason: the path may be
out of reach, or only what is there be closed. -/
def closedEntryAt (path : String) (fault : SystemFault) : IO Entry := do
  try
    let found ← (← IO.FS.realPath path).metadata
    return .unreadable (found.type matches .file) fault
  catch _ => return .absent (.outOfReach fault)

/-- What is found at a path. -/
def entryAt (path : String) : IO Entry := do
  if path.toList.contains '\x00' then return .absent .nulInPath
  try
    return .file (← (← IO.FS.Handle.mk path .read).readBinToEnd)
  catch e =>
    match systemFault? e with
    | none => throw e
    | some fault =>
      if fault.code = SystemFault.noSuchFile.code then return .absent .missing
      else if fault.code = SystemFault.notADirectory.code then return .absent .behindFile
      else if fault.code = SystemFault.nameTooLong.code then return .absent .tooLong
      else if fault.code = SystemFault.isADirectory.code then return .directory
      else closedEntryAt path fault

/-- What is found at a path, if it was looked at. -/
def lookIn (entries : List (String × Entry)) (path : String) : Entry :=
  (entries.lookup path).getD (.absent .missing)

/-- What is found at each of some paths. -/
def entriesAt (paths : List String) : IO (List (String × Entry)) :=
  paths.mapM fun path => return (path, ← entryAt path)

/-- The variables that are read by the program itself. -/
def variableNames : List String :=
  "HOME" :: Flag.settings.filterMap Flag.environmentName

/-- The variables that an environment file adds to those that are set. -/
def assignments (directory : Option String) : IO EnvironmentFile.Assignments := do
  let paths := Program.environmentPaths directory
  match Program.environmentFile? (lookIn (← entriesAt paths)) paths with
  | some content => EnvironmentFile.assignments (fun name => IO.getEnv name) content
  | none => return .ok []

/-- The variables that are set and that the program reads. -/
def givenVariables : IO Environment :=
  variableNames.filterMapM fun name => do
    return (← IO.getEnv name).map fun value => (name, value)

/-- The home directory; an empty name is that of none. -/
def home (environment : Environment) : Option String :=
  (environment.value? "HOME").filter fun path => !path.isEmpty

/-- The current directory; it may have been removed, or lie out of reach. -/
def directory? : IO (Option String) := do
  try
    return some (← IO.currentDir).toString
  catch _ => return none

/-- Carry out a run with its variables. -/
def runWith (directory : Option String) (environment : Environment) (args : List String) :
    IO Outcome := do
  match CommandLine.parse environment args with
  | .error halt => return Program.haltOutcome halt
  | .ok request =>
    let place : Host := ⟨home environment, directory, lookIn []⟩
    let entries ← entriesAt (Program.paths place request)
    return Program.outcome { place with entry := lookIn entries } request

/-- Carry out a run. -/
def run (args : List String) : IO Outcome := do
  let directory ← directory?
  match ← assignments directory with
  | .error name => return Program.unstorableOutcome name
  | .ok assigned => runWith directory ((← givenVariables) ++ assigned) args

end GraphFilter.Terminal

/-- Run the program, print its outcome and return its exit code. -/
def main (args : List String) : IO UInt32 := do
  let outcome ← GraphFilter.Terminal.run args
  IO.print outcome.output
  IO.eprint outcome.errors
  return outcome.code
