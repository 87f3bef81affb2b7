import KnowledgeImport.Import.Outcome

/-!
# The record of an import

An import keeps one record, which only grows: counts are added to, messages are put at the end, and
the status changes once, from running to a final one.
-/

namespace KnowledgeImport

/-- How far an import has come. -/
inductive ImportStatus where
  | running
  | failed
  | success
  | successDryRun
  deriving DecidableEq, Repr

namespace ImportStatus

/-- All statuses. -/
def all : List ImportStatus :=
  [.running, .failed, .success, .successDryRun]

/-- The name of a status in reports. -/
def name : ImportStatus → String
  | .running => "running"
  | .failed => "failed"
  | .success => "success"
  | .successDryRun => "success_dry_run"

/-- The status of a name. -/
def ofName? (s : String) : Option ImportStatus :=
  all.find? (·.name = s)

/-- The import did what was asked, be it a dry run. -/
def isSuccess : ImportStatus → Bool
  | .success | .successDryRun => true
  | .running | .failed => false

/-- What the program tells the shell. -/
def exitCode (s : ImportStatus) : Nat :=
  if s.isSuccess then 0 else 1

/-- The name at the right of a column of sixteen. -/
def padded (s : ImportStatus) : String :=
  String.ofList (List.replicate (16 - s.name.length) ' ') ++ s.name

end ImportStatus

/-- The record of an import. -/
structure ImportResult where
  projectId : String
  status : ImportStatus
  documentsUploaded : Nat
  documentsFailed : Nat
  codeExamples : Nat
  codeExamplesFailed : Nat
  errors : List String
  deriving DecidableEq, Repr

namespace ImportResult

/-- The record at the start. -/
def start (projectId : String) : ImportResult where
  projectId := projectId
  status := .running
  documentsUploaded := 0
  documentsFailed := 0
  codeExamples := 0
  codeExamplesFailed := 0
  errors := []

/-- Adds the outcome of an upload. -/
def recordUpload (r : ImportResult) (o : UploadOutcome) : ImportResult :=
  { r with
    documentsUploaded := r.documentsUploaded + o.successful
    documentsFailed := r.documentsFailed + o.failed
    errors := r.errors ++ o.errors }

/-- Adds the outcome of an extraction. -/
def recordExtraction (r : ImportResult) (o : UploadOutcome) : ImportResult :=
  { r with
    codeExamples := r.codeExamples + o.successful
    codeExamplesFailed := r.codeExamplesFailed + o.failed
    errors := r.errors ++ o.errors }

/-- Adds a message. -/
def pushError (r : ImportResult) (message : String) : ImportResult :=
  { r with errors := r.errors ++ [message] }

/-- Settles the status, unless it is settled already. -/
def finish (r : ImportResult) (status : ImportStatus) : ImportResult :=
  if r.status = .running then { r with status } else r

end ImportResult

end KnowledgeImport
