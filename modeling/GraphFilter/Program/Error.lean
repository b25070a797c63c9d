import GraphFilter.Filter.Error
import GraphFilter.Files.Entry

/-!
# Run errors

Why a run of the program ends without a query.  An error is worded as the chain of
its causes, from what was being done down to the first cause.
-/

namespace GraphFilter

/-- What was done with a filter when it was refused. -/
inductive Stage where
  | parseFilter
  | parseWhere
  | compileFilter
  | compileWhere
deriving DecidableEq

/-- Wording of a failed stage. -/
def Stage.message : Stage → String
  | parseFilter => "Failed to parse filter"
  | parseWhere => "Failed to parse where"
  | compileFilter => "Failed to compile filter"
  | compileWhere => "Failed to compile where"

/-- Why a run ends without a query. -/
inductive RunError where
  | settingsNotFound (path : String)
  | settingsUnreadable (path : String) (fault : FileFault)
  | settingsMalformed (path : String) (error : Json.Error)
  | invalidAlias (name : String)
  | inputUnreadable (path : String) (fault : FileFault)
  | refused (stage : Stage) (error : FilterError)

namespace RunError

/-- The messages of an error and its causes, outermost first. -/
def chain : RunError → List String
  | settingsNotFound path => ["Config file not found: " ++ path]
  | settingsUnreadable path fault => ["Failed to read config file: " ++ path, fault.message]
  | settingsMalformed path error => ["Failed to parse config file: " ++ path, error.message]
  | invalidAlias name =>
    ["Invalid node alias '" ++ name ++ "': expected a plain identifier such as 'n'"]
  | inputUnreadable path fault => ["Failed to read file: " ++ path, fault.message]
  | refused stage error => stage.message :: error.chain

/-- Wording of an error with all its causes. -/
def message (e : RunError) : String :=
  ": ".intercalate e.chain

end RunError

end GraphFilter
