import GraphFilter.Files.Path

/-!
# File trees

A tree of directories and files, and the walk along a path from its root.  Names
and paths are limited in size, as they are on file systems, and files and directories
may be closed to the program.
-/

namespace GraphFilter

/-- A file, or a directory with its entries. -/
inductive FileTree where
  | file (content : ByteArray)
  | directory (entries : List (String × FileTree))
  /-- A file that cannot be read. -/
  | closedFile (fault : SystemFault)
  /-- A directory that can neither be read nor searched. -/
  | closedDirectory (fault : SystemFault)
deriving Inhabited

namespace FileTree

/-- The directory without entries. -/
def empty : FileTree :=
  directory []

/-- What is found at a node. -/
def entry : FileTree → Entry
  | file content => .file content
  | directory _ => .directory
  | closedFile fault => .unreadable true fault
  | closedDirectory fault => .unreadable false fault

/-- Greatest size of a name, in bytes. -/
def nameLimit : Nat :=
  255

/-- Greatest size of a path, in bytes. -/
def pathLimit : Nat :=
  4095

/-- Walk along the words of a path.  `above` holds the directories that lead to the
present one, the nearest first; the root is above itself. -/
def walk : List FileTree → FileTree → List String → Entry
  | _, here, [] => here.entry
  | _, file _, _ :: _ => .absent .behindFile
  | _, closedFile _, _ :: _ => .absent .behindFile
  | above, closedDirectory fault, word :: words =>
    -- slashes behind its name do not leave the directory
    if word = "" then walk above (closedDirectory fault) words
    else .absent (.outOfReach fault)
  | above, directory entries, word :: words =>
    if word = "" || word = "." then walk above (directory entries) words
    else if word = ".." then
      match above with
      | [] => walk [] (directory entries) words
      | up :: higher => walk higher up words
    else if nameLimit < word.utf8ByteSize then .absent .tooLong
    else
      match entries.lookup word with
      | some node => walk (directory entries :: above) node words
      | none => .absent .missing

/-- What is found at a path, given the current directory. -/
def find (tree : FileTree) (current path : String) : Entry :=
  if path.toList.contains '\x00' then .absent .nulInPath
  else if pathLimit < path.utf8ByteSize then .absent .tooLong
  else
    let whole := Path.join current.toList path.toList
    walk [] tree ((Path.components whole).map String.ofList)

/-- The surroundings of a run on a tree. -/
def host (tree : FileTree) (home : Option String) (current : String) : Host :=
  ⟨home, some current, tree.find current⟩

/-- Replace the entry of a name, or add it at the end. -/
def setEntry (name : String) (node : FileTree) :
    List (String × FileTree) → List (String × FileTree)
  | [] => [(name, node)]
  | (n, t) :: rest => if n = name then (name, node) :: rest else (n, t) :: setEntry name node rest

/-- Put a node at the end of a row of names, making the directories on the way.  A
directory that is there already keeps its entries. -/
def put : FileTree → List String → FileTree → FileTree
  | directory entries, [], directory _ => directory entries
  | _, [], node => node
  | here, name :: names, node =>
    let entries :=
      match here with
      | directory entries => entries
      | file _ | closedFile _ | closedDirectory _ => []
    directory (setEntry name (((entries.lookup name).getD empty).put names node) entries)

end FileTree

end GraphFilter
