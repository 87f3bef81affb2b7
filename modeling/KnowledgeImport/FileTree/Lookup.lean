import KnowledgeImport.FileTree.Basic

/-!
# Following paths

How a path leads to a node: step by step from the root directory or from the working directory,
through symbolic links, at most forty of them. What can go wrong on the way is an `OsError`.
-/

namespace KnowledgeImport

open Text

/-- Why the system refuses a path. -/
inductive OsError where
  | notFound
  | notDirectory
  | isDirectory
  | nameTooLong
  | tooManyLinks
  | nulInPath
  deriving DecidableEq, Repr

/-- The system's words for an error. -/
def OsError.message : OsError → String
  | .notFound => "No such file or directory (os error 2)"
  | .notDirectory => "Not a directory (os error 20)"
  | .isDirectory => "Is a directory (os error 21)"
  | .nameTooLong => "File name too long (os error 36)"
  | .tooManyLinks => "Too many levels of symbolic links (os error 40)"
  | .nulInPath => "file name contained an unexpected NUL byte"

/-- The longest name of an entry, in octets. -/
def longestName : Nat := 255

/-- A path has to be shorter than this, in octets. -/
def pathLimit : Nat := 4096

/-- How many links one path may lead through. -/
def linkLimit : Nat := 40

/-- A way down from the root directory: the names and nodes passed, the last one first. -/
abbrev Trail := List (Name × Node)

/-- The node that a trail ends at. -/
def Trail.node (root : Node) : Trail → Node
  | [] => root
  | (_, node) :: _ => node

/-- The absolute path of a trail. -/
def Trail.path (t : Trail) : Path :=
  Path.ofNames (t.reverse.map (·.1))

/-- Follows the remaining steps from the end of a trail; `links` is how many links may still be
passed. A link's target is followed from where the link stands, or from the root if absolute. -/
def follow (root : Node) (links : Nat) (here : Trail) (todo : List Path.Component) :
    Except OsError Trail :=
  match todo with
  | [] => .ok here
  | step :: todo =>
    match Trail.node root here with
    | .directory entries =>
      match step with
      | .current => follow root links here todo
      | .parent => follow root links here.tail todo
      | .entry name =>
        if name.length > longestName then .error .nameTooLong
        else match entries.find? name with
          | none => .error .notFound
          | some (.link target) =>
            match links with
            | 0 => .error .tooManyLinks
            | links + 1 =>
              follow root links (if target.isAbsolute then [] else here)
                (target.components ++ todo)
          | some node => follow root links ((name, node) :: here) todo
    | _ => .error .notDirectory
termination_by (links, todo.length)

/-- The files of a machine and the directory that relative paths start from. -/
structure FileSystem where
  /-- The directory `/`. -/
  root : Node
  /-- The working directory, as an absolute path. -/
  cwd : Path := Path.ofString "/"

namespace FileSystem

/-- The trail that a path leads to. -/
def resolve (fs : FileSystem) (p : Path) : Except OsError Trail := do
  if p.octets.isEmpty then throw .notFound
  if p.octets.contains 0 then throw .nulInPath
  if p.octets.length ≥ pathLimit then throw .nameTooLong
  let start ← if p.isAbsolute then pure [] else follow fs.root linkLimit [] fs.cwd.components
  follow fs.root linkLimit start p.components

/-- The node that a path leads to. -/
def node (fs : FileSystem) (p : Path) : Except OsError Node := do
  return Trail.node fs.root (← fs.resolve p)

/-- The path leads to something. -/
def exists? (fs : FileSystem) (p : Path) : Bool :=
  match fs.node p with
  | .ok _ => true
  | .error _ => false

/-- The path without links, `.` and `..` that leads to the same node. -/
def canonical (fs : FileSystem) (p : Path) : Except OsError Path := do
  return (← fs.resolve p).path

/-- What the file at a path holds. -/
def readFile (fs : FileSystem) (p : Path) : Except OsError Content := do
  match ← fs.node p with
  | .file content => return content
  | _ => throw .isDirectory

/-- The names that one more step leads to: through links where the step can be followed, as written
where nothing stands there yet. -/
def place (fs : FileSystem) (names : List Name) (step : Path.Component) : List Name :=
  match follow fs.root linkLimit [] (names.map .entry ++ [step]) with
  | .ok trail => trail.reverse.map (·.1)
  | .error _ =>
    match step with
    | .entry n => names ++ [n]
    | .parent => names.dropLast
    | .current => names

/-- Puts a node at an absolute path. Directories on the way are made as needed; where a part of the
path is there already, links in it are followed. -/
def put (fs : FileSystem) (p : Path) (node : Node) : FileSystem :=
  { fs with
    root := .directory (fs.root.entries.insert (p.components.foldl fs.place []) node) }

end FileSystem

end KnowledgeImport
