import KnowledgeImport.FileTree.Path

/-!
# Configuration of an import

What one import works with: the tree, the backend and the project, two switches and three lists of
patterns. Every list starts with a baseline that settings extend and never shorten.
-/

namespace KnowledgeImport

open Text

/-- Where the backend is found if nobody says otherwise. -/
def defaultBackendUrl : String := "http://localhost:8181"

/-! ### Baseline lists -/

/-- Patterns of documentation that every import looks for. -/
def baselineDocPatterns : List String :=
  ["*.md", "*.rst", "*.txt", "docs/**/*", "documentation/**/*", "README*", "CONTRIBUTING*",
    "CHANGELOG*"]

/-- Build output, dependencies, version control, minified files and virtual environments. -/
def baselineExcludePatterns : List String :=
  ["node_modules/**", ".git/**", "*.min.js", "*.min.css", "dist/**", "build/**", "__pycache__/**",
    ".venv/**", "venv/**", ".claude/**"]

/-- Extensions of source files. -/
def baselineCodeExtensions : List String :=
  ["rs", "py", "js", "jsx", "ts", "tsx", "go", "java", "kt", "rb", "c", "h", "cpp", "hpp", "cs",
    "swift", "php", "scala", "sh"]

/-! ### Configuration -/

/-- What the caller asks for in one run. -/
structure ImportOptions where
  projectId : String
  backendUrl : String
  root : Path
  includeCodeExamples : Bool
  dryRun : Bool
  deriving DecidableEq, Repr

/-- Entries to add to the baseline lists. -/
structure PatternExtensions where
  docPatterns : List String := []
  excludePatterns : List String := []
  codeExtensions : List String := []
  deriving DecidableEq, Repr

/-- The configuration of one run. -/
structure ImportConfig where
  root : Path
  backendUrl : String
  projectId : String
  includeCodeExamples : Bool
  dryRun : Bool
  docPatterns : List String
  excludePatterns : List String
  codeExtensions : List String
  deriving DecidableEq, Repr

/-- The list with an entry at its end, unless it has that entry already. -/
def addNew (entries : List String) (entry : String) : List String :=
  if entries.contains entry then entries else entries ++ [entry]

/-- The baseline followed by the entries that are new, each once, in their order. -/
def extend (baseline extra : List String) : List String :=
  extra.foldl addNew baseline

/-- An extension as files are compared with it: no leading dots, ASCII letters in lower case. -/
def normalExtension (e : String) : String :=
  asciiLower (String.ofList (e.toList.dropWhile (· = '.')))

namespace ImportConfig

/-- The configuration for a caller's options and extensions of the baseline lists. -/
def assemble (options : ImportOptions) (extensions : PatternExtensions) : ImportConfig where
  root := options.root
  backendUrl := options.backendUrl
  projectId := options.projectId
  includeCodeExamples := options.includeCodeExamples
  dryRun := options.dryRun
  docPatterns := extend baselineDocPatterns extensions.docPatterns
  excludePatterns := extend baselineExcludePatterns extensions.excludePatterns
  codeExtensions := extend baselineCodeExtensions (extensions.codeExtensions.map normalExtension)

/-- Where a person finds the project. -/
def projectUrl (config : ImportConfig) : String :=
  config.backendUrl ++ "/projects/" ++ config.projectId

end ImportConfig

end KnowledgeImport
