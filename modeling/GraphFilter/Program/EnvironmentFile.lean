import GraphFilter.Program.Environment
import GraphFilter.Text.Blank
import GraphFilter.Text.Alphabetic
import GraphFilter.Text.Numeral

/-!
# Environment files

A file of assignments that stand in for environment variables which are not set.
Values may be quoted, hold escapes and refer to variables.  Reading stops at the
first malformed line; what was assigned before it stays.  A value that no variable
can hold spoils the whole file.
-/

namespace GraphFilter.EnvironmentFile

/-! ## Logical lines -/

/-- Where the reading of a logical line stands: a line goes on while a quotation
or an escape is open.  A blank matters, since a comment may begin behind it. -/
inductive LineState where
  | plain
  | blank
  | escape
  | single
  | singleEscape
  | double
  | doubleEscape
deriving DecidableEq

/-- The state behind a character outside quotations. -/
def LineState.begin (c : Char) : LineState :=
  if c = '\\' then escape
  else if c = '"' then double
  else if c = '\'' then single
  else plain

/-- The state behind a character that begins no comment. -/
def LineState.step (s : LineState) (c : Char) : LineState :=
  match s with
  | plain => if Text.isBlank c && c != '\n' && c != '\r' then blank else .begin c
  | blank => .begin c
  | escape => plain
  | single => if c = '\\' then singleEscape else if c = '\'' then plain else single
  | singleEscape => single
  | double => if c = '\\' then doubleEscape else if c = '"' then plain else double
  | doubleEscape => double

/-- Scan a line: the state at its end, or the part in front of its comment. -/
def scanLine : LineState → List Char → List Char → LineState ⊕ List Char
  | s, _, [] => .inl s
  | s, before, c :: rest =>
    if s = .blank && c == '#' then .inr before.reverse
    else scanLine (s.step c) (c :: before) rest

/-- Remove a line break at the end. -/
def dropLineBreak (line : List Char) : List Char :=
  match line.reverse with
  | '\n' :: '\r' :: rest => rest.reverse
  | '\n' :: rest => rest.reverse
  | _ => line

/-- Cut a text behind each line break. -/
def splitLines : List Char → List (List Char)
  | [] => []
  | c :: rest =>
    if c = '\n' then [c] :: splitLines rest
    else
      match splitLines rest with
      | [] => [[c]]
      | line :: lines => (c :: line) :: lines

/-- Put the lines of a text together to logical lines, without comments.  A logical
line that the text leaves open is dropped. -/
def logicalLines : LineState → List Char → List (List Char) → List (List Char)
  | _, _, [] => []
  | s, begun, line :: lines =>
    if (Text.trimStart (begun ++ line)).head? == some '#' then logicalLines .plain [] lines
    else
      match scanLine s [] line with
      | .inr part => (begun ++ part) :: logicalLines .plain [] lines
      | .inl .plain => dropLineBreak (begun ++ line) :: logicalLines .plain [] lines
      | .inl unfinished => logicalLines unfinished (begun ++ line) lines

/-! ## Values -/

/-- A quotation mark that is open. -/
inductive Quotation where
  | none
  | single
  | double
deriving DecidableEq

/-- What the next character of a value belongs to. -/
inductive Phase where
  | text
  | escape
  | name (taken : List Char)
  | braced (taken : List Char)
  | ended

variable {m : Type → Type} [Monad m]

/-- The characters of a variable; none if it is not set. -/
def valueOf (environment : String → m (Option String)) (name : List Char) : m (List Char) := do
  let value ← environment (String.ofList name.reverse)
  return (value.getD "").toList

/-- Read a value.  `taken` holds the characters read, the last one first. -/
def readValue (environment : String → m (Option String)) :
    Quotation → Phase → List Char → List Char → m (Option (List Char))
  | quotation, phase, taken, [] =>
    match phase with
    | .braced _ => return none
    | .name name => do
      let value ← valueOf environment name
      return if quotation = .none then some (taken.reverse ++ value) else none
    | _ => return if quotation = .none then some taken.reverse else none
  | quotation, .ended, taken, c :: rest =>
    if c == ' ' || c == '\t' then readValue environment quotation .ended taken rest
    else if c == '#' then return some taken.reverse
    else return none
  | quotation, .escape, taken, c :: rest =>
    if c == '\\' || c == '\'' || c == '"' || c == '$' || c == ' ' then
      readValue environment quotation .text (c :: taken) rest
    else if c == 'n' then readValue environment quotation .text ('\n' :: taken) rest
    else return none
  | quotation, .name name, taken, c :: rest => do
    if Text.isAlphabetic c || Text.isNumeral c then
      readValue environment quotation (.name (c :: name)) taken rest
    else if c == '\x7b' && name.isEmpty then readValue environment quotation (.braced []) taken rest
    else
      let value ← valueOf environment name
      let taken := value.reverse ++ taken
      if c == '$' then readValue environment quotation (.name []) taken rest
      else readValue environment quotation .text (c :: taken) rest
  | quotation, .braced name, taken, c :: rest => do
    if c == '\x7d' then
      let value ← valueOf environment name
      readValue environment quotation .text (value.reverse ++ taken) rest
    else readValue environment quotation (.braced (c :: name)) taken rest
  | .single, .text, taken, c :: rest =>
    if c == '\'' then readValue environment .none .text taken rest
    else readValue environment .single .text (c :: taken) rest
  | .double, .text, taken, c :: rest =>
    if c == '$' then readValue environment .double (.name []) taken rest
    else if c == '"' then readValue environment .none .text taken rest
    else if c == '\\' then readValue environment .double .escape taken rest
    else readValue environment .double .text (c :: taken) rest
  | .none, .text, taken, c :: rest =>
    if c == '$' then readValue environment .none (.name []) taken rest
    else if c == '\'' then readValue environment .single .text taken rest
    else if c == '"' then readValue environment .double .text taken rest
    else if c == '\\' then readValue environment .none .escape taken rest
    else if c == ' ' || c == '\t' then readValue environment .none .ended taken rest
    else readValue environment .none .text (c :: taken) rest

/-! ## Assignments -/

/-- Whether a character may begin a name. -/
def isNameStart (c : Char) : Bool :=
  c.isAlpha || c == '_'

/-- Whether a character may continue a name. -/
def isNameChar (c : Char) : Bool :=
  c.isAlphanum || c == '_' || c == '.'

/-- Read a name and the blanks behind it. -/
def readName (s : List Char) : Option (List Char × List Char) :=
  match s with
  | [] => none
  | c :: _ =>
    if isNameStart c then some (s.takeWhile isNameChar, Text.trimStart (s.dropWhile isNameChar))
    else none

/-- Read a name and the equals sign behind it; the word `export` may stand in
front. -/
def readTarget (s : List Char) : Option (List Char × List Char) := do
  let (name, rest) ← readName s
  match rest with
  | '=' :: value => return (name, value)
  | _ =>
    if name = ['e', 'x', 'p', 'o', 'r', 't'] then
      let (name, rest) ← readName rest
      match rest with
      | '=' :: value => return (name, value)
      | _ => none
    else none

/-- What a logical line says. -/
inductive Line where
  | nothing
  | malformed
  | assigns (name value : String)

/-- Whether nothing but a comment is left. -/
def isComment (s : List Char) : Bool :=
  s.isEmpty || s.head? == some '#'

/-- Read a logical line. -/
def readLine (environment : String → m (Option String)) (line : List Char) : m Line := do
  let line := Text.trim line
  if isComment line then return .nothing
  else
    match readTarget line with
    | none => return .malformed
    | some (name, value) =>
      let value := Text.trimStart value
      if isComment value then return .assigns (String.ofList name) ""
      else
        match ← readValue environment .none .text [] value with
        | some value => return .assigns (String.ofList name) (String.ofList value)
        | none => return .malformed

/-! ## Files -/

/-- A variable as it is seen behind some assignments. -/
def lookup (outer : String → m (Option String)) (assigned : Environment) (name : String) :
    m (Option String) := do
  match ← outer name with
  | some value => return some value
  | none => return assigned.value? name

/-- Whether a variable can hold a value: its text ends at the character NUL. -/
def isStorable (value : String) : Bool :=
  !value.toList.contains '\x00'

/-- Assignments, or the name of a variable that cannot hold its value. -/
abbrev Assignments := Except String Environment

/-- Carry out logical lines up to the first malformed one. -/
def assignLines (outer : String → m (Option String)) :
    Environment → List (List Char) → m Assignments
  | assigned, [] => return .ok assigned
  | assigned, line :: lines => do
    match ← readLine (lookup outer assigned) line with
    | .malformed => return .ok assigned
    | .nothing => assignLines outer assigned lines
    | .assigns name value =>
      match ← lookup outer assigned name with
      | some _ => assignLines outer assigned lines
      | none =>
        if isStorable value then assignLines outer (assigned ++ [(name, value)]) lines
        else return .error name

/-- The lines of a file up to the first one that is no text; a mark of the byte
order at the front is left out. -/
def textLines (content : ByteArray) : List (List Char) :=
  let whole := content.toList
  let whole := if whole.take 3 == [0xEF, 0xBB, 0xBF] then whole.drop 3 else whole
  decode (splitBytes whole)
where
  /-- Cut behind each line break. -/
  splitBytes : List UInt8 → List (List UInt8)
    | [] => []
    | b :: rest =>
      if b = 10 then [b] :: splitBytes rest
      else
        match splitBytes rest with
        | [] => [[b]]
        | line :: lines => (b :: line) :: lines
  /-- Decode lines while they are text. -/
  decode : List (List UInt8) → List (List Char)
    | [] => []
    | line :: lines =>
      match String.fromUTF8? ⟨line.toArray⟩ with
      | some s => s.toList :: decode lines
      | none => []

/-- The assignments of a file, given the variables that are set. -/
def assignments (outer : String → m (Option String)) (content : ByteArray) : m Assignments :=
  assignLines outer [] (logicalLines .plain [] (textLines content))

end GraphFilter.EnvironmentFile
