import KnowledgeImport.Glob.PatternSet
import KnowledgeImport.Import.Config
import KnowledgeImport.Scan.Result

/-!
# Rules of classification

What class a file belongs to, judged by its path below the root of the scan. Patterns are compared
with the path and with all that is left of it after a slash, so that a pattern finds what it names
at any depth.
-/

namespace KnowledgeImport

open Text Glob

/-! ### Candidates of a path -/

/-- What follows each slash. -/
def afterSlashes : List Char → List (List Char)
  | [] => []
  | c :: cs => if c = '/' then cs :: afterSlashes cs else afterSlashes cs

/-- The path and what follows each of its slashes. -/
def candidates (cs : List Char) : List (List Char) :=
  cs :: afterSlashes cs

/-- The set matches some candidate of the path. -/
def matchesAny (set : PatternSet) (cs : List Char) : Bool :=
  (candidates cs).any fun c => set.isMatch (c.flatMap String.utf8EncodeChar)

/-- The text of a path below the root: the names with a slash between them. -/
def relativeText (names : List Name) : List Char :=
  ['/'].intercalate (names.map fun n => n.display.toList)

/-! ### Rules -/

/-- What decides the class of a file. -/
structure ScanRules where
  documentation : PatternSet
  excluded : PatternSet
  /-- Directories that are not entered. -/
  prunedDirectories : PatternSet
  /-- Extensions of source files, in lower case. -/
  codeExtensions : List String

/-- The directories that an exclude pattern covers with all they hold: the pattern without the
`/**` at its end. -/
def prunedPattern? (pattern : String) : Option String :=
  let cs := pattern.toList
  if ['/', '*', '*'].isSuffixOf cs then some (String.ofList (cs.take (cs.length - 3))) else none

namespace ScanRules

/-- The rules of a configuration. The patterns of documentation are read before those to exclude. -/
def ofConfig (config : ImportConfig) : Except SetError ScanRules := do
  return {
    documentation := ← PatternSet.ofStrings config.docPatterns
    excluded := ← PatternSet.ofStrings config.excludePatterns
    prunedDirectories := ← PatternSet.ofStrings (config.excludePatterns.filterMap prunedPattern?)
    codeExtensions := config.codeExtensions.map asciiLower }

/-- The directory with these names below the root is entered. -/
def enters (rules : ScanRules) (names : List Name) : Bool :=
  !matchesAny rules.prunedDirectories (relativeText names)

/-- A file of that name is source code. -/
def isCode (rules : ScanRules) (name : Name) : Bool :=
  match name.extension?.bind decode? with
  | some e => rules.codeExtensions.contains (asciiLower e)
  | none => false

/-- The name starts with `readme`, in whatever case. -/
def startsReadme (name : Name) : Bool :=
  "README".toList.isPrefixOf (asciiUpper name.display).toList

/-- The class of the file with these names below the root. Exclusion comes first; a readme that is
source code is not a readme. -/
def classify (rules : ScanRules) (names : List Name) : Option FileClass :=
  let text := relativeText names
  let name := names.getLastD []
  if matchesAny rules.excluded text then none
  else if !rules.isCode name && startsReadme name then some .readme
  else if matchesAny rules.documentation text then some .documentation
  else if rules.isCode name then some .code
  else none

end ScanRules

end KnowledgeImport
