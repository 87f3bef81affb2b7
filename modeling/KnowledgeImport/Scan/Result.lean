import KnowledgeImport.FileTree.Path
import KnowledgeImport.Decimal.Binary64

/-!
# Results of a scan

The files that a scan found, by class, and their size.
-/

namespace KnowledgeImport

/-- What a file is imported as. -/
inductive FileClass where
  | readme
  | documentation
  | code
  deriving DecidableEq, Repr

/-- The classified files of a tree. -/
structure ScanResult where
  readmeFiles : List Path := []
  documentation : List Path := []
  codeFiles : List Path := []
  /-- The sizes of all classified files together, in octets. -/
  totalSize : Nat := 0
  deriving DecidableEq, Repr

namespace ScanResult

/-- One more file at the end of the list of its class. -/
def add (r : ScanResult) (c : FileClass) (path : Path) (size : Nat) : ScanResult :=
  let r := { r with totalSize := r.totalSize + size }
  match c with
  | .readme => { r with readmeFiles := r.readmeFiles ++ [path] }
  | .documentation => { r with documentation := r.documentation ++ [path] }
  | .code => { r with codeFiles := r.codeFiles ++ [path] }

/-- All that is uploaded as a document: the readmes first. -/
def documentationFiles (r : ScanResult) : List Path :=
  r.readmeFiles ++ r.documentation

/-- How many documents there are. -/
def documentationCount (r : ScanResult) : Nat :=
  r.readmeFiles.length + r.documentation.length

/-- The size in units of 2^20 octets. -/
def megabytes (r : ScanResult) : Binary64 :=
  Binary64.ofFraction false r.totalSize (Nat.pow 2 20)

end ScanResult

end KnowledgeImport
