import KnowledgeImport.FileTree.Basic

/-!
# Walking a tree

The regular files below a directory, in the order of a walk that takes the entries of a directory
by name and goes into each directory where it stands. Links are neither followed nor listed.
-/

namespace KnowledgeImport

/-- A regular file found by a walk: its names below the root, and what it holds. -/
structure FoundFile where
  names : List Name
  content : Content

mutual

/-- The files at a node that has the given names; directories that `enters` refuses are skipped. -/
def Node.files (enters : List Name → Bool) (names : List Name) : Node → List FoundFile
  | .file content => [⟨names, content⟩]
  | .link _ => []
  | .directory entries => if enters names then entries.files enters names else []

/-- The files of the entries of a directory that has the given names. -/
def Forest.files (enters : List Name → Bool) (names : List Name) : Forest → List FoundFile
  | .nil => []
  | .cons name node rest => node.files enters (names ++ [name]) ++ rest.files enters names

end

end KnowledgeImport
