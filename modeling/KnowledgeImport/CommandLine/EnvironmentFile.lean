import KnowledgeImport.CommandLine.Environment
import KnowledgeImport.FileTree.Lookup
import KnowledgeImport.Text.Alphanumeric
import KnowledgeImport.Text.Blank

/-!
# Environment files

A file named `.env` adds variables to the environment, one assignment `NAME=value` a line. Quotes
keep blanks, `\` and `$NAME` work as in a shell as long as the text is not in single quotes, and a
comment may follow a blank. A line that cannot be read ends the file.
-/

namespace KnowledgeImport

open Text

/-! ### Values -/

/-- What the characters of a value mean. -/
inductive ValueMode where
  /-- They stand for themselves, most of them. -/
  | plain
  /-- A backslash stands before the next one. -/
  | escaped
  /-- They are in single quotes and stand for themselves. -/
  | quoted
  /-- They name a variable, after `$`. -/
  | variable (name : List Char)
  /-- They name a variable, in braces. -/
  | braced (name : List Char)
  /-- The value has ended; blanks or a comment may follow. -/
  | ended
  /-- They are a comment. -/
  | comment
  deriving DecidableEq, Repr

/-- What is known after some characters of a value. -/
structure ValueReading where
  value : List Char := []
  doubleQuoted : Bool := false
  mode : ValueMode := .plain
  deriving DecidableEq, Repr

namespace ValueReading

/-- Adds a character to the value. -/
def push (r : ValueReading) (c : Char) : ValueReading :=
  { r with value := r.value ++ [c] }

/-- Adds the value of a variable; a variable that is not set has none. -/
def pushVariable (r : ValueReading) (e : Environment) (name : List Char) : ValueReading :=
  { r with value := r.value ++ ((e.value? (String.ofList name)).getD "").toList }

/-- A character that is not in single quotes, not escaped and not part of a name. -/
def plainStep (r : ValueReading) (c : Char) : ValueReading :=
  if c = '$' then { r with mode := .variable [] }
  else if c = '"' then { r with doubleQuoted := !r.doubleQuoted }
  else if c = '\\' then { r with mode := .escaped }
  else if r.doubleQuoted then r.push c
  else if c = '\'' then { r with mode := .quoted }
  else if c = ' ' ∨ c = '\t' then { r with mode := .ended }
  else r.push c

/-- The next character, or `none` if it cannot stand there. After the name of a variable a character
stands for itself, a quote or a blank as well. -/
def step (e : Environment) (r : ValueReading) (c : Char) : Option ValueReading :=
  match r.mode with
  | .plain => some (r.plainStep c)
  | .escaped =>
    let r := { r with mode := .plain }
    if c = 'n' then some (r.push '\n')
    else if ['\\', '\'', '"', '$', ' '].contains c then some (r.push c)
    else none
  | .quoted => some (if c = '\'' then { r with mode := .plain } else r.push c)
  | .variable name =>
    if isAlphanumeric c then some { r with mode := .variable (name ++ [c]) }
    else if c = '{' ∧ name = [] then some { r with mode := .braced [] }
    else
      let r := r.pushVariable e name
      some (if c = '$' then { r with mode := .variable [] }
        else { r with mode := .plain }.push c)
  | .braced name =>
    some (if c = '}' then { r.pushVariable e name with mode := .plain }
      else { r with mode := .braced (name ++ [c]) })
  | .ended =>
    if c = ' ' ∨ c = '\t' then some r
    else if c = '#' then some { r with mode := .comment }
    else none
  | .comment => some r

/-- The value at the end of its line, unless a quote or a brace is open. -/
def finish? (e : Environment) (r : ValueReading) : Option (List Char) :=
  if r.doubleQuoted then none
  else match r.mode with
    | .quoted | .braced _ => none
    | .variable name => some (r.pushVariable e name).value
    | _ => some r.value

end ValueReading

/-- The value that characters spell. -/
def readValue? (e : Environment) (cs : List Char) : Option String := do
  String.ofList <$> (← cs.foldlM (ValueReading.step e) {}).finish? e

/-! ### Lines -/

/-- What a line of an environment file says. -/
inductive EnvironmentLine where
  /-- Nothing: it is blank or a comment. -/
  | nothing
  | assignment (name value : String)
  | unreadable
  deriving DecidableEq, Repr

namespace EnvironmentLine

/-- The characters from the first that is not blank. -/
def skipBlank (cs : List Char) : List Char :=
  cs.dropWhile isBlank

/-- The rest of a line is empty or a comment. -/
def isOver (cs : List Char) : Bool :=
  cs.head?.all (· = '#')

/-- A name and what follows it and the blanks after it. -/
def readName? (cs : List Char) : Option (List Char × List Char) :=
  let inName (c : Char) : Bool := c.isAlphanum || c = '_' || c = '.'
  if cs.head?.any fun c => c.isAlpha || c = '_' then
    some (cs.takeWhile inName, skipBlank (cs.dropWhile inName))
  else none

/-- What stands before and after the equals sign: a name, perhaps after the word `export`, and the
rest of the line. -/
def readTarget? (cs : List Char) : Option (List Char × List Char) := do
  match ← readName? cs with
  | (name, '=' :: rest) => return (name, rest)
  | (name, rest) =>
    if name = "export".toList then
      match ← readName? rest with
      | (name, '=' :: rest) => return (name, rest)
      | _ => none
    else none

/-- Reads a line. -/
def ofString (e : Environment) (line : String) : EnvironmentLine :=
  let cs := skipBlank (dropTrailing isBlank line.toList)
  if isOver cs then .nothing
  else
    match readTarget? cs with
    | none => .unreadable
    | some (name, rest) =>
      let rest := skipBlank rest
      let value := if isOver rest then some "" else readValue? e rest
      match value with
      | some value => .assignment (String.ofList name) value
      | none => .unreadable

end EnvironmentLine

/-! ### Files -/

namespace Environment

/-- Adds the variables of some lines, up to one that cannot be read. -/
def addLines (e : Environment) : List (List Octet) → Environment
  | [] => e
  | line :: lines =>
    match (decode? line).map (EnvironmentLine.ofString e) with
    | some .nothing => e.addLines lines
    | some (.assignment name value) => (e.add name value).addLines lines
    | some .unreadable | none => e

/-- The name of an environment file. -/
def fileName : Name := encode ".env"

/-- What the environment file of the nearest directory holds, from the working directory up. Only
where there is no file of that name is the search carried on above. -/
def nearestFile (fs : FileSystem) : (directories : List (List Name)) → Option Content
  | [] => none
  | directory :: above =>
    match fs.node (Path.ofNames (directory ++ [fileName])) with
    | .ok (.file content) => some content
    | .ok _ | .error .notFound => nearestFile fs above
    | .error _ => none

/-- The directories from the working directory up to the root. -/
def searchedDirectories (fs : FileSystem) : List (List Name) :=
  let names := fs.cwd.names
  (List.range (names.length + 1)).reverse.map names.take

/-- The environment with the variables of the nearest environment file. -/
def withFile (e : Environment) (fs : FileSystem) : Environment :=
  match nearestFile fs (searchedDirectories fs) with
  | some content => e.addLines (content.toOctets.splitOn 0x0A)
  | none => e

end Environment

end KnowledgeImport
