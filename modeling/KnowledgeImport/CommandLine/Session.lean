import KnowledgeImport.Backend.Collaborators
import KnowledgeImport.CommandLine.Console
import KnowledgeImport.CommandLine.EnvironmentFile
import KnowledgeImport.CommandLine.Invocation
import KnowledgeImport.Import.Encoding
import KnowledgeImport.Import.Report
import KnowledgeImport.Settings.File

/-!
# Sessions

A session sets an import up as an invocation says, runs it, and prints what happens: on one stream
for a person, or with the record alone on the output for a program.
-/

namespace KnowledgeImport

/-! ### Setting up -/

/-- Why an import cannot be set up. -/
inductive SetupError where
  | settings (cause : SettingsFileError)
  | client (cause : ClientError)
  | patterns (cause : Glob.SetError)
  deriving Repr

/-- The words for an error and its causes. -/
def SetupError.message : SetupError → String
  | .settings cause => cause.message
  | .client cause => "Failed to construct Archon client: " ++ cause.message
  | .patterns cause => "Invalid scan patterns: " ++ cause.message ++ ": " ++ cause.reason

/-- An import that is ready to run. -/
structure Setup where
  config : ImportConfig
  client : Client
  rules : ScanRules

namespace Invocation

/-- The settings of an invocation. -/
def settings (i : Invocation) (fs : FileSystem) : Except SettingsFileError Settings :=
  match i.config with
  | some path => Settings.load fs (Path.ofString path)
  | none => .ok {}

/-- The directory to import, without links where it can be followed. -/
def root (i : Invocation) (fs : FileSystem) : Path :=
  let root := (i.path.map Path.ofString).getD fs.cwd
  (fs.canonical root).toOption.getD root

/-- The configuration of an invocation with its settings. -/
def importConfig (i : Invocation) (fs : FileSystem) (settings : Settings) : ImportConfig :=
  ImportConfig.assemble
    { projectId := i.projectId
      backendUrl := i.backendUrl
      root := i.root fs
      includeCodeExamples := i.codeExamplesEnabled
      dryRun := i.dryRun }
    settings.patternExtensions

/-- Sets an import up: the settings first, then the client, then the patterns. -/
def setUp (i : Invocation) (fs : FileSystem) : Except SetupError Setup := do
  let settings ← (i.settings fs).mapError .settings
  let config := i.importConfig fs settings
  let client ← (Client.ofConfig
    { baseUrl := config.backendUrl
      projectId := config.projectId
      concurrency := settings.uploadConcurrency
      knowledgeType := settings.knowledgeType
      tags := settings.tags }).mapError .client
  let rules ← (ScanRules.ofConfig config).mapError .patterns
  return { config, client, rules }

end Invocation

/-! ### Running -/

/-- What a session leaves behind. -/
structure Session (σ : Type) where
  console : Console
  outcome : Except SetupError ImportResult
  /-- The state of the backend and what was sent to it. -/
  link : Link σ

/-- The record of an import that could not be set up. -/
def ImportResult.setupFailed (projectId : String) (e : SetupError) : ImportResult :=
  ((ImportResult.start projectId).pushError e.message).finish .failed

/-- Prints a record for a program. -/
def Console.printRecord (c : Console) (r : ImportResult) : Console :=
  c.print .output r.toJson.pretty

namespace Invocation

variable {σ : Type}

/-- The stream on which a person follows the import. -/
def progressStream (i : Invocation) : Stream :=
  if i.json then .error else .output

/-- Runs an import that is set up. -/
def runSetup (i : Invocation) (fs : FileSystem) (server : Server σ) (state : σ) (s : Setup) :
    Session σ :=
  let team := s.client.collaborators server fs s.rules s.config.root
  let run := s.config.runImport team { state }
  let console :=
    (Console.print {} i.progressStream s.config.banner).printEvents i.progressStream run.events
  { console :=
      if i.json then console.printRecord run.result
      else console.print .output (run.result.summary s.config)
    outcome := .ok run.result
    link := run.world }

/-- Runs an import as an invocation says. -/
def run (i : Invocation) (fs : FileSystem) (server : Server σ) (state : σ) : Session σ :=
  match i.setUp fs with
  | .ok setup => i.runSetup fs server state setup
  | .error e =>
    { console := if i.json then Console.printRecord {} (.setupFailed i.projectId e) else {}
      outcome := .error e
      link := { state } }

end Invocation

/-! ### The program -/

/-- What the program leaves behind when it ends. -/
structure Termination (σ : Type) where
  exitCode : Nat
  console : Console
  link : Link σ

namespace Session

variable {σ : Type}

/-- The end of the program after a session. -/
def terminate (s : Session σ) : Termination σ :=
  match s.outcome with
  | .ok result => { exitCode := result.status.exitCode, console := s.console, link := s.link }
  | .error e =>
    { exitCode := 1
      console := s.console.print .error ("[ERROR] Import failed: " ++ e.message)
      link := s.link }

end Session

/-- The program: reads the environment file and the arguments, and runs the import. -/
def runProgram {σ : Type} (fs : FileSystem) (server : Server σ) (state : σ)
    (environment : Environment) (arguments : List String) : Termination σ :=
  let url := (environment.withFile fs).value? UsageReply.urlVariable
  match Invocation.ofArguments url arguments with
  | .ok i => (i.run fs server state).terminate
  | .error reply =>
    { exitCode := reply.exitCode
      console := Console.write {} (if reply.isError then .error else .output) (reply.text url)
      link := { state } }

end KnowledgeImport
