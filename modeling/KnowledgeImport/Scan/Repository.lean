import KnowledgeImport.FileTree.Lookup
import KnowledgeImport.Scan.Rules
import KnowledgeImport.Scan.Walk

/-!
# Scanning a tree

A scan walks the tree below its root and lists every file that the rules give a class.
-/

namespace KnowledgeImport

/-- Why a tree cannot be scanned. -/
inductive ScanError where
  | pathNotFound (root : Path)
  | notDirectory (root : Path)
  deriving DecidableEq, Repr

/-- The words for an error. -/
def ScanError.message : ScanError → String
  | .pathNotFound root => "Path not found: " ++ root.display
  | .notDirectory root => "Not a directory: " ++ root.display

/-- The path of a file that has the given names below the root. -/
def Path.below (root : Path) (names : List Name) : Path :=
  names.foldl (fun p n => p.join ⟨n⟩) root

namespace ScanRules

/-- The result with the file in the list of its class, if it has one. -/
def listFile (rules : ScanRules) (root : Path) (r : ScanResult) (f : FoundFile) : ScanResult :=
  match rules.classify f.names with
  | some c => r.add c (root.below f.names) f.content.size
  | none => r

/-- The classified files of a directory. -/
def scanEntries (rules : ScanRules) (root : Path) (entries : Forest) : ScanResult :=
  (entries.files rules.enters []).foldl (rules.listFile root) {}

/-- Scans the tree at `root`, which may be reached through links. -/
def scan (rules : ScanRules) (fs : FileSystem) (root : Path) : Except ScanError ScanResult :=
  match fs.node root with
  | .ok (.directory entries) => .ok (rules.scanEntries root entries)
  | .ok _ => .error (.notDirectory root)
  | .error _ => .error (.pathNotFound root)

end ScanRules

end KnowledgeImport
