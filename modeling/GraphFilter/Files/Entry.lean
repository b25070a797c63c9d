/-!
# File system entries

What is found at a path, and why it cannot be read.
-/

namespace GraphFilter

/-- What the system reports when it refuses an operation. -/
structure SystemFault where
  wording : String
  code : Nat
deriving DecidableEq

namespace SystemFault

/-- Wording of a report. -/
def message (fault : SystemFault) : String :=
  fault.wording ++ " (os error " ++ toString fault.code ++ ")"

def noSuchFile : SystemFault :=
  ⟨"No such file or directory", 2⟩

def notADirectory : SystemFault :=
  ⟨"Not a directory", 20⟩

def isADirectory : SystemFault :=
  ⟨"Is a directory", 21⟩

def nameTooLong : SystemFault :=
  ⟨"File name too long", 36⟩

end SystemFault

/-- Why there is nothing at a path, as far as can be seen. -/
inductive Absence where
  /-- No entry has the name. -/
  | missing
  /-- The path leads through a file. -/
  | behindFile
  /-- The path or one of its names is longer than a file system takes. -/
  | tooLong
  /-- The path holds the character NUL. -/
  | nulInPath
  /-- The path cannot be followed to its end for another reason: a directory on the way
  may not be searched, or links lead in a circle. -/
  | outOfReach (fault : SystemFault)
deriving DecidableEq

/-- Why a file cannot be read. -/
inductive FileFault where
  | absent (why : Absence)
  | isADirectory
  | notText
  /-- What is there cannot be opened or read: it may be barred, or its device may fail. -/
  | unreadable (fault : SystemFault)
deriving DecidableEq

/-- Wording of an absence. -/
def Absence.message : Absence → String
  | missing => SystemFault.noSuchFile.message
  | behindFile => SystemFault.notADirectory.message
  | tooLong => SystemFault.nameTooLong.message
  | nulInPath => "file name contained an unexpected NUL byte"
  | outOfReach fault => fault.message

/-- Wording of a fault. -/
def FileFault.message : FileFault → String
  | absent why => why.message
  | isADirectory => SystemFault.isADirectory.message
  | notText => "stream did not contain valid UTF-8"
  | unreadable fault => fault.message

/-- What is found at a path. -/
inductive Entry where
  | absent (why : Absence)
  | directory
  | file (content : ByteArray)
  /-- Something that cannot be opened or read: a regular file, or anything else. -/
  | unreadable (regular : Bool) (fault : SystemFault)

namespace Entry

/-- Whether there is something at the path. -/
def isPresent : Entry → Bool
  | absent _ => false
  | directory => true
  | file _ => true
  | unreadable .. => true

/-- The text of a file. -/
def text : Entry → Except FileFault String
  | absent why => .error (.absent why)
  | directory => .error .isADirectory
  | file content =>
    match String.fromUTF8? content with
    | some s => .ok s
    | none => .error .notText
  | unreadable _ fault => .error (.unreadable fault)

end Entry

end GraphFilter
