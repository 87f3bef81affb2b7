import KnowledgeImport.Import.Config
import KnowledgeImport.Text.Similarity

/-!
# Parameters of the command line

Ten parameters: four take a value, four are switches, and two ask for information. Each has a long
name, and the last two have a letter as well.
-/

namespace KnowledgeImport

/-- What can be said on the command line. -/
inductive Parameter where
  | projectId
  | backendUrl
  | includeCodeExamples
  | noCodeExamples
  | dryRun
  | path
  | config
  | json
  | help
  | version
  deriving DecidableEq, Repr

namespace Parameter

/-- All parameters in the order in which the help lists them. -/
def all : List Parameter :=
  [.projectId, .backendUrl, .includeCodeExamples, .noCodeExamples, .dryRun, .path, .config, .json,
    .help, .version]

/-- The long name. -/
def name : Parameter → String
  | .projectId => "project-id"
  | .backendUrl => "archon-url"
  | .includeCodeExamples => "include-code-examples"
  | .noCodeExamples => "no-code-examples"
  | .dryRun => "dry-run"
  | .path => "path"
  | .config => "config"
  | .json => "json"
  | .help => "help"
  | .version => "version"

/-- The letter that stands for the parameter. -/
def letter? : Parameter → Option Char
  | .help => some 'h'
  | .version => some 'V'
  | _ => none

/-- What stands for the value in a usage line; switches have no value. -/
def placeholder? : Parameter → Option String
  | .projectId => some "<PROJECT_ID>"
  | .backendUrl => some "<ARCHON_URL>"
  | .path => some "<PATH>"
  | .config => some "<CONFIG>"
  | _ => none

/-- What the parameter is for. -/
def purpose : Parameter → String
  | .projectId => "Existing Archon project ID to import into"
  | .backendUrl => "Archon backend URL"
  | .includeCodeExamples => "Extract code examples (default)"
  | .noCodeExamples => "Skip code example extraction"
  | .dryRun => "Preview what would be imported without uploading anything"
  | .path => "Root of the tree to import (defaults to the current directory)"
  | .config => "YAML settings file with extra patterns and upload tuning"
  | .json => "Print the final result as JSON on stdout"
  | .help => "Print help"
  | .version => "Print version"

/-- The parameter takes a value. -/
def takesValue (p : Parameter) : Bool :=
  p.placeholder?.isSome

/-- The value is a path, and a path is never empty. -/
def isPath : Parameter → Bool
  | .path | .config => true
  | _ => false

/-- The parameter that this one takes back. -/
def opposite? : Parameter → Option Parameter
  | .includeCodeExamples => some .noCodeExamples
  | .noCodeExamples => some .includeCodeExamples
  | _ => none

/-- The option as it is written. -/
def option (p : Parameter) : String :=
  "--" ++ p.name

/-- The option and the placeholder of its value. -/
def shown (p : Parameter) : String :=
  match p.placeholder? with
  | some placeholder => p.option ++ " " ++ placeholder
  | none => p.option

/-- The parameter of a long name. -/
def ofName? (name : String) : Option Parameter :=
  all.find? (·.name = name)

/-- The parameter of a letter. -/
def ofLetter? (c : Char) : Option Parameter :=
  all.find? (·.letter? = some c)

/-- The parameters with one more at their end, unless it is among them. -/
def addTo (p : Parameter) (ps : List Parameter) : List Parameter :=
  if ps.contains p then ps else ps ++ [p]

/-- Names have to be more similar than this to be taken for a slip. -/
def slipThreshold : Rat := 7 / 10

/-- The parameter whose name is most similar to a wrong one, if it is similar enough. Of several,
the last. -/
def nearest? (name : String) : Option Parameter :=
  let score (p : Parameter) : Rat := Text.similarity name.toList p.name.toList
  all.foldl (fun best p =>
    if score p ≤ slipThreshold then best
    else match best with
      | some b => if score b ≤ score p then some p else best
      | none => some p) none

end Parameter

end KnowledgeImport
