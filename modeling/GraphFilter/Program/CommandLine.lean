import GraphFilter.Program.Command
import GraphFilter.Program.Environment
import GraphFilter.Settings.Load

/-!
# Command lines

Arguments and environment variables of a run.  The settings flags may stand on
either side of the verb, and an environment variable stands in for each of them;
the flags of the query stand behind the verb.
-/

namespace GraphFilter

/-! ## Flags -/

/-- The flags of a command line. -/
inductive Flag where
  | config
  | nodeAlias
  | strict
  | zeroPaging
  | model
  | input
  | inputFile
deriving DecidableEq

namespace Flag

/-- The flags that may stand on either side of the verb. -/
def settings : List Flag :=
  [config, nodeAlias, strict, zeroPaging]

/-- The flags of one side: in front of the verb, or behind it. -/
def allowed : Option Verb → List Flag
  | none => settings
  | some _ => settings ++ [model, input, inputFile]

/-- The long name of a flag. -/
def long (verb : Option Verb) : Flag → String
  | config => "config"
  | nodeAlias => "node-alias"
  | strict => "strict"
  | zeroPaging => "explicit-zero-paging"
  | model => "model"
  | input => if verb = some .count then "where" else "filter"
  | inputFile => if verb = some .count then "where-file" else "filter-file"

/-- The letter of a flag, if it has one. -/
def short : Flag → Option Char
  | config => some 'c'
  | model => some 'm'
  | inputFile => some 'f'
  | _ => none

/-- The environment variable that stands in for a flag. -/
def environmentName : Flag → Option String
  | config => some "CYPHER_FILTER_CONFIG"
  | nodeAlias => some "CYPHER_FILTER_NODE_ALIAS"
  | strict => some "CYPHER_FILTER_STRICT"
  | zeroPaging => some "CYPHER_FILTER_EXPLICIT_ZERO_PAGING"
  | _ => none

/-- The boolean of a value. -/
def boolean? (value : String) : Option Bool :=
  if value = "true" then some true else if value = "false" then some false else none

/-- Whether a flag takes a value: booleans are spelled out, and paths are not
empty. -/
def accepts (flag : Flag) (value : String) : Bool :=
  match flag with
  | strict => (boolean? value).isSome
  | zeroPaging => (boolean? value).isSome
  | config => !value.isEmpty
  | inputFile => !value.isEmpty
  | _ => true

end Flag

/-! ## One side of a command line -/

/-- Why a command line leads to no command. -/
inductive Halt where
  | usage
  | version
  | help
deriving DecidableEq

/-- Flags with their values. -/
abbrev Assigned := List (Flag × String)

/-- Give a flag its value; each flag may come once on a side. -/
def Assigned.assign (given : Assigned) (flag : Flag) (value : String) : Except Halt Assigned :=
  if flag.accepts value && (given.lookup flag).isNone then .ok ((flag, value) :: given)
  else .error .usage

namespace CommandLine

/-- The verb of a word. -/
def verb? (word : String) : Option Verb :=
  if word = "find" then some .find else if word = "count" then some .count else none

/-- What the word `help` leads to: it takes the name of one verb, or its own. -/
def helpHalt : List String → Halt
  | [] => .help
  | [word] => if word = "help" || (verb? word).isSome then .help else .usage
  | _ => .usage

/-- What an argument is. -/
inductive Argument where
  /-- A flag, and the value that is attached to it. -/
  | flag (flag : Flag) (attached : Option String)
  | halt (reason : Halt)
  /-- The mark behind which no flags come. -/
  | endOfFlags
  | word

/-- Split a text at its first equals sign. -/
def splitEquals (s : List Char) : String × Option String :=
  let name := String.ofList (s.takeWhile fun c => c != '=')
  match s.dropWhile fun c => c != '=' with
  | [] => (name, none)
  | _ :: value => (name, some (String.ofList value))

/-- What an argument with two hyphens is. -/
def longArgument (verb : Option Verb) (s : List Char) : Argument :=
  let (name, attached) := splitEquals s
  match (Flag.allowed verb).find? fun f => f.long verb == name with
  | some flag => .flag flag attached
  | none =>
    if attached.isSome then .halt .usage
    else if name = "help" then .halt .help
    else if name = "version" && verb.isNone then .halt .version
    else .halt .usage

/-- What an argument with one hyphen is: a letter, and the value that follows it
with or without an equals sign. -/
def shortArgument (verb : Option Verb) (letter : Char) (rest : List Char) : Argument :=
  let attached :=
    match rest with
    | [] => none
    | '=' :: value => some (String.ofList value)
    | value => some (String.ofList value)
  match (Flag.allowed verb).find? fun f => f.short == some letter with
  | some flag => .flag flag attached
  | none =>
    if letter = 'h' then .halt .help
    else if letter = 'V' && verb.isNone then .halt .version
    else .halt .usage

/-- What an argument is. -/
def classify (verb : Option Verb) (arg : String) : Argument :=
  match arg.toList with
  | ['-', '-'] => .endOfFlags
  | '-' :: '-' :: rest => longArgument verb rest
  | '-' :: letter :: rest => shortArgument verb letter rest
  | _ => .word

/-- Whether an argument of its own can be the value of a flag. -/
def isValue (verb : Option Verb) (arg : String) : Bool :=
  match classify verb arg with
  | .word => true
  | _ => false

/-- Read the flags of one side.  In front of the verb, reading ends at the verb; the
result then has it and the arguments behind it. -/
def readSide (verb : Option Verb) :
    List String → Assigned → Except Halt (Assigned × Option (Verb × List String))
  | [], given => .ok (given, none)
  | arg :: rest, given =>
    match classify verb arg with
    | .halt reason => .error reason
    | .endOfFlags => if rest.isEmpty then .ok (given, none) else .error .usage
    | .word =>
      match verb, verb? arg with
      | none, some v => .ok (given, some (v, rest))
      | none, none => .error (if arg = "help" then helpHalt rest else .usage)
      | some _, _ => .error .usage
    | .flag flag (some value) => do
      let given ← given.assign flag value
      readSide verb rest given
    | .flag flag none =>
      match rest with
      | [] => .error .usage
      | value :: rest =>
        if isValue verb value then do
          let given ← given.assign flag value
          readSide verb rest given
        else .error .usage

/-! ## Whole command lines -/

/-- What a command line asks for. -/
structure Request where
  settings : GivenSettings
  command : Command

/-- The value of a settings flag: the one behind the verb, else the one in front of
it, else the environment variable.  The variable counts on a side where the flag is
missing, and must be acceptable there. -/
def setting (environment : Environment) (front behind : Assigned) (flag : Flag) :
    Except Halt (Option String) :=
  let given := (behind.lookup flag).or (front.lookup flag)
  match flag.environmentName.bind environment.value? with
  | none => .ok given
  | some value =>
    if (behind.lookup flag).isSome && (front.lookup flag).isSome then .ok given
    else if flag.accepts value then .ok (given.or (some value))
    else .error .usage

/-- Read a command line. -/
def parse (environment : Environment) (args : List String) : Except Halt Request := do
  let (front, behind) ← readSide none args []
  match behind with
  | none => .error .usage
  | some (verb, args) =>
    let (behind, _) ← readSide (some verb) args []
    let config ← setting environment front behind .config
    let nodeAlias ← setting environment front behind .nodeAlias
    let strict ← setting environment front behind .strict
    let zeroPaging ← setting environment front behind .zeroPaging
    let text := behind.lookup .input
    let file := behind.lookup .inputFile
    match behind.lookup .model with
    | none => .error .usage
    | some model =>
      if text.isSome && file.isSome then .error .usage
      else
        return {
          settings := ⟨config, nodeAlias, strict.bind Flag.boolean?, zeroPaging.bind Flag.boolean?⟩
          command := ⟨verb, model, text, file⟩ }

end CommandLine

end GraphFilter
