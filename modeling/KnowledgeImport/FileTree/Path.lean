import KnowledgeImport.Text.Utf8
import KnowledgeImport.Text.Ascii

/-!
# Paths

A path is a sequence of octets in which slashes separate names; most paths spell a text, but none
has to. Here are the parts of a path, what joins them, and the extension of a name.
-/

namespace KnowledgeImport

open Text

/-- The name of an entry of a directory: octets other than the slash. -/
abbrev Name := List Octet

/-- A path as the user or the system wrote it. -/
structure Path where
  octets : List Octet
  deriving DecidableEq, Repr

namespace Path

/-- The octet that separates names. -/
def separator : Octet := 0x2F

def ofString (s : String) : Path :=
  ⟨Text.encode s⟩

/-- The path as a text, with U+FFFD for what is not UTF-8. -/
def display (p : Path) : String :=
  decodeLossy p.octets

/-- The text that the path spells, if it is UTF-8. -/
def text? (p : Path) : Option String :=
  decode? p.octets

/-- The path starts at the root directory. -/
def isAbsolute (p : Path) : Bool :=
  p.octets.head? == some separator

/-- The path followed by `child`: below it, or instead of it if `child` is absolute. -/
def join (p child : Path) : Path :=
  if child.isAbsolute || p.octets.isEmpty then child
  else if p.octets.getLast? == some separator then ⟨p.octets ++ child.octets⟩
  else ⟨p.octets ++ separator :: child.octets⟩

/-- The names between the slashes, empty ones left out. -/
def names (p : Path) : List Name :=
  (p.octets.splitOn separator).filter (!·.isEmpty)

/-- The absolute path of a list of names. -/
def ofNames (ns : List Name) : Path :=
  if ns.isEmpty then ⟨[separator]⟩ else ⟨ns.flatMap (separator :: ·)⟩

/-- One step of following a path. -/
inductive Component where
  /-- `.`: stay. -/
  | current
  /-- `..`: to the directory above. -/
  | parent
  /-- To the entry of that name. -/
  | entry (n : Name)
  deriving DecidableEq, Repr

/-- The step that a name between slashes asks for. -/
def Component.ofName (n : Name) : Component :=
  if n = [0x2E] then .current
  else if n = [0x2E, 0x2E] then .parent
  else .entry n

/-- The steps of a path. A slash at the end asks for a directory, as `.` does. -/
def components (p : Path) : List Component :=
  p.names.map Component.ofName
    ++ (if p.octets.getLast? == some separator then [.current] else [])

/-- The name at the end of the path, unless the path ends in `..` or has no name at all. -/
def fileName? (p : Path) : Option Name :=
  match (p.names.filter (· ≠ [0x2E])).getLast? with
  | some n => if n = [0x2E, 0x2E] then none else some n
  | none => none

end Path

namespace Name

/-- What follows the last dot of a name, unless that dot is its first octet. -/
def extension? (n : Name) : Option Name :=
  let tail := (n.reverse.takeWhile (· ≠ 0x2E)).reverse
  if tail.length + 1 < n.length ∧ n ≠ [0x2E, 0x2E] then some tail else none

/-- The name as a text, with U+FFFD for what is not UTF-8. -/
def display (n : Name) : String :=
  decodeLossy n

end Name

end KnowledgeImport
