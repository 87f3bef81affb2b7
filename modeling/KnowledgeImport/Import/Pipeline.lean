import KnowledgeImport.Import.Config
import KnowledgeImport.Import.Event
import KnowledgeImport.Import.Record
import KnowledgeImport.Scan.Result

/-!
# The import pipeline

An import validates the backend, scans the tree, and then either announces a plan (dry run) or
uploads the documents and submits the code files. Every stage calls one collaborator and decides
what comes next; the record, the events and the calls are kept in one `ImportRun`. A collaborator
that fails ends the import; single files that fail do not.
-/

namespace KnowledgeImport

/-- What the backend says about itself. -/
structure ValidationReport where
  backendReachable : Bool
  embeddingProviderConfigured : Bool
  deriving DecidableEq, Repr

/-- The backend can take an import. -/
def ValidationReport.isReady (r : ValidationReport) : Bool :=
  r.backendReachable && r.embeddingProviderConfigured

/-- Those who do the work of an import. Each answers or fails with a text, and may change the world
that they share. -/
structure Collaborators (σ : Type) where
  validate : σ → Except String ValidationReport × σ
  scan : σ → Except String ScanResult × σ
  uploadDocuments : List Path → σ → Except String UploadOutcome × σ
  extractCodeExamples : List Path → σ → Except String UploadOutcome × σ

/-- A call to a collaborator. -/
inductive Call where
  | validate
  | scan
  | uploadDocuments (paths : List Path)
  | extractCodeExamples (paths : List Path)
  deriving DecidableEq, Repr

/-- What an import does that can be seen: it announces events and calls collaborators. -/
inductive Action where
  | event (e : ProgressEvent)
  | call (c : Call)
  deriving DecidableEq, Repr

/-- An import on its way: the world, what was done so far in order, and the record. -/
structure ImportRun (σ : Type) where
  world : σ
  actions : List Action
  result : ImportResult

namespace ImportRun

variable {σ : Type}

/-- The events in order. -/
def events (run : ImportRun σ) : List ProgressEvent :=
  run.actions.filterMap fun
    | .event e => some e
    | .call _ => none

/-- The calls in order. -/
def calls (run : ImportRun σ) : List Call :=
  run.actions.filterMap fun
    | .event _ => none
    | .call c => some c

/-- Announces an event. -/
def notify (run : ImportRun σ) (e : ProgressEvent) : ImportRun σ :=
  { run with actions := run.actions ++ [.event e] }

/-- Calls a collaborator; the answer comes with the run after the call. -/
def ask {α : Type} (run : ImportRun σ) (c : Call) (f : σ → Except String α × σ) :
    Except String α × ImportRun σ :=
  let (answer, world) := f run.world
  (answer, { run with world, actions := run.actions ++ [.call c] })

/-- Ends the import. -/
def done (run : ImportRun σ) (status : ImportStatus) : ImportRun σ :=
  { run with result := run.result.finish status }

/-- Ends the import with a message, without an event of its own. -/
def refuse (run : ImportRun σ) (message : String) : ImportRun σ :=
  { run with result := run.result.pushError message }.done .failed

/-- Ends the import because a collaborator failed. -/
def fail (run : ImportRun σ) (message : String) : ImportRun σ :=
  (run.notify (.failed message)).refuse message

end ImportRun

namespace ImportConfig

variable {σ : Type}

/-- The number of code files as far as it is announced. -/
def codeFileCount (config : ImportConfig) (scan : ScanResult) : Option Nat :=
  if config.includeCodeExamples then some scan.codeFiles.length else none

/-- The last stage: submits the code files, if there are any. -/
def extractStage (team : Collaborators σ) (codeFiles : List Path) (run : ImportRun σ) :
    ImportRun σ :=
  if codeFiles.isEmpty then run.done .success
  else
    let run := run.notify (.extractionStarted codeFiles.length)
    match run.ask (.extractCodeExamples codeFiles) (team.extractCodeExamples codeFiles) with
    | (.error message, run) => run.fail message
    | (.ok outcome, run) =>
      let run := run.notify (.extractionCompleted outcome.successful outcome.failed)
      { run with result := run.result.recordExtraction outcome }.done .success

/-- Uploads the documents. -/
def uploadStage (config : ImportConfig) (team : Collaborators σ) (scan : ScanResult)
    (run : ImportRun σ) : ImportRun σ :=
  let documents := scan.documentationFiles
  let run := run.notify (.uploadStarted documents.length)
  match run.ask (.uploadDocuments documents) (team.uploadDocuments documents) with
  | (.error message, run) => run.fail message
  | (.ok outcome, run) =>
    let run := run.notify (.uploadCompleted outcome.successful outcome.failed)
    extractStage team (if config.includeCodeExamples then scan.codeFiles else [])
      { run with result := run.result.recordUpload outcome }

/-- Announces what would be imported. -/
def previewStage (config : ImportConfig) (scan : ScanResult) (run : ImportRun σ) : ImportRun σ :=
  (run.notify (.dryRunPlan scan.documentationCount (config.codeFileCount scan))).done
    .successDryRun

/-- Scans the tree. Without documents there is nothing to import, dry run or not. -/
def scanStage (config : ImportConfig) (team : Collaborators σ) (run : ImportRun σ) :
    ImportRun σ :=
  let run := run.notify .scanStarted
  match run.ask .scan team.scan with
  | (.error message, run) => run.fail message
  | (.ok scan, run) =>
    let run := run.notify (.scanCompleted scan.readmeFiles.length scan.documentation.length
      (config.codeFileCount scan) scan.megabytes)
    if scan.documentationCount = 0 then (run.notify .nothingToImport).done .success
    else if config.dryRun then config.previewStage scan run
    else config.uploadStage team scan run

/-- Asks whether the backend is ready. -/
def validateStage (config : ImportConfig) (team : Collaborators σ) (run : ImportRun σ) :
    ImportRun σ :=
  let run := run.notify .validationStarted
  match run.ask .validate team.validate with
  | (.error message, run) => run.fail message
  | (.ok report, run) =>
    if !report.backendReachable then
      (run.notify .backendUnreachable).refuse "Backend not reachable"
    else
      let run := run.notify .backendReachable
      if !report.embeddingProviderConfigured then
        (run.notify .embeddingProviderMissing).refuse "Embedding provider required"
      else config.scanStage team (run.notify .embeddingProviderConfigured)

/-- Runs an import from its start to its end. -/
def runImport (config : ImportConfig) (team : Collaborators σ) (world : σ) : ImportRun σ :=
  config.validateStage team
    { world, actions := [], result := ImportResult.start config.projectId }

end ImportConfig

end KnowledgeImport
