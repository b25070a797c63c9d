import GraphFilter.Files.Entry
import GraphFilter.Text.Blank

/-!
# Paths

A path given by the user is absolute, relative to the current directory, or
relative to the home directory if it is `~` or begins with `~/`.  Where one of these
directories is not known, the path stays as it is.  Paths are kept as they are spelled:
dots and repeated slashes are not removed.
-/

namespace GraphFilter

/-- The surroundings of a run. -/
structure Host where
  /-- The home directory, if there is one. -/
  home : Option String
  /-- The current directory, if it can be told. -/
  directory : Option String
  /-- What is found at a path; one that is not absolute starts at the current
  directory. -/
  entry : String → Entry

namespace Path

/-- Whether a path starts at the root. -/
def isAbsolute (path : List Char) : Bool :=
  path.head? == some '/'

/-- Append a path to another one.  An absolute path replaces it. -/
def join (base path : List Char) : List Char :=
  if isAbsolute path then path
  else if base.isEmpty || base.getLast? == some '/' then base ++ path
  else base ++ '/' :: path

/-- An absolute path stands for itself wherever it is joined. -/
@[simp]
theorem join_of_isAbsolute {base path : List Char} (h : isAbsolute path = true) :
    join base path = path := by
  simp [join, h]

/-- Put a path below a directory, if this is known. -/
def joinTo (base : Option (List Char)) (path : List Char) : List Char :=
  match base with
  | none => path
  | some base => join base path

/-- Expand a leading `~`; without a home directory it is a name like any other. -/
def expandHome : Option (List Char) → List Char → List Char
  | some home, ['~'] => home
  | some home, '~' :: '/' :: rest => join home rest
  | _, path => path

@[simp]
theorem expandHome_none (path : List Char) : expandHome none path = path := by
  simp [expandHome]

/-- Expand a path given by the user, blanks around it aside.  The empty path stands for the
current directory. -/
def expandChars (home directory : Option (List Char)) (path : List Char) : List Char :=
  let path := Text.trim path
  if path.isEmpty then directory.getD ['.']
  else
    let path := expandHome home path
    if isAbsolute path then path else joinTo directory path

/-- The words between the slashes of a path. -/
def components : List Char → List (List Char)
  | [] => [[]]
  | c :: rest =>
    if c = '/' then [] :: components rest
    else
      match components rest with
      | [] => [[c]]
      | word :: words => (c :: word) :: words

end Path

namespace Host

/-- Expand a path given by the user. -/
def expand (host : Host) (path : String) : String :=
  String.ofList
    (Path.expandChars (host.home.map String.toList) (host.directory.map String.toList) path.toList)

/-- A path below the home directory, if there is one. -/
def underHome (host : Host) (path : String) : Option String :=
  host.home.map fun home => String.ofList (Path.join home.toList path.toList)

/-- A path below the current directory. -/
def underDirectory (host : Host) (path : String) : String :=
  String.ofList (Path.joinTo (host.directory.map String.toList) path.toList)

end Host

end GraphFilter
