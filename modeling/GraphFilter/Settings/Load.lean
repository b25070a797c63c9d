import GraphFilter.Settings.File
import GraphFilter.Program.Error
import GraphFilter.Files.Path

/-!
# Loading settings

The settings of a run come from four layers: what was given with the command, a
settings file named with it or found in the current directory, the settings file of
the user's profile, and the defaults.  The alias that results must be a plain
identifier, since it is written into queries as it is.
-/

namespace GraphFilter

/-- Settings given with the command. -/
structure GivenSettings where
  /-- Path of a settings file to use in place of the one in the current directory. -/
  file : Option String
  layer : Layer

/-- A loading step: it may fail, and its warnings are kept even then. -/
abbrev Load := ExceptT RunError (StateM (List Warning))

namespace Settings

/-- The name of settings files. -/
def fileName : String :=
  "cypher-filter.json"

/-- The directory of the profile below the home directory. -/
def profileDirectory : String :=
  ".cypher-filter"

/-- The settings file of the profile, which lies below the home directory. -/
def profilePath (host : Host) : Option String :=
  host.underHome (profileDirectory ++ "/" ++ fileName)

/-- Load a settings file, shown in messages under a name of its own. -/
def loadFile (shown : String) (entry : Entry) : Load Layer :=
  match entry.text with
  | .error fault => throw (.settingsUnreadable shown fault)
  | .ok text =>
    match SettingsFile.parse text with
    | .error error => throw (.settingsMalformed shown error)
    | .ok file => do
      if !file.unknown.isEmpty then modify (· ++ [.unknownFields file.unknown])
      return file.layer.getD .blank

/-- The layer of the profile; its file may be missing, and so may the home directory. -/
def profileLayer (host : Host) : Load Layer :=
  match profilePath host with
  | none => return .blank
  | some path =>
    let entry := host.entry path
    if entry.isPresent then loadFile path entry else return .blank

/-- The path of the settings file above the profile. -/
def overlayPath (host : Host) : Option String → String
  | some given => host.expand given
  | none => host.underDirectory fileName

/-- The layer above the profile: the file that was named, which must exist, or the
one in the current directory, which may be missing. -/
def overlayLayer (host : Host) (given : Option String) : Load Layer :=
  let path := overlayPath host given
  let entry := host.entry path
  if given.isSome then
    if entry.isPresent then loadFile path entry else throw (.settingsNotFound path)
  else
    if entry.isPresent then loadFile fileName entry else return .blank

/-- The options of the combined layers. -/
def resolve (layer : Layer) : Load Options :=
  let options := layer.options
  if Cypher.isPlainName options.nodeAlias then return options
  else throw (.invalidAlias options.nodeAlias)

/-- Load the settings of a run. -/
def load (host : Host) (given : GivenSettings) : Load Options := do
  let profile ← profileLayer host
  let overlay ← overlayLayer host given.file
  resolve (given.layer.onto (overlay.onto profile))

/-- Load the settings of a run, with the warnings on the way. -/
def run (host : Host) (given : GivenSettings) : Except RunError Options × List Warning :=
  (load host given).run.run []

end Settings

end GraphFilter
