import KnowledgeImport.Import.Config
import KnowledgeImport.Import.Event
import KnowledgeImport.Import.Record

/-!
# Reports for people

The banner at the start of an import and the summary at its end.
-/

namespace KnowledgeImport

/-- What is shown before an import. -/
def ImportConfig.banner (config : ImportConfig) : String :=
  "Importing to existing Archon project\n   Source: " ++ config.root.display
    ++ "\n   Project ID: " ++ config.projectId ++ "\n"

namespace ImportResult

/-- The lines of the summary of an import that did what was asked. -/
def successLines (r : ImportResult) (headline : String) (config : ImportConfig) : List String :=
  [headline, "   Project: " ++ config.projectUrl,
    "   Uploaded: " ++ toString r.documentsUploaded ++ " documents"]
  ++ (if r.codeExamples > 0 then
      ["   Extracted: " ++ toString r.codeExamples ++ " code examples"] else [])
  ++ (if r.errors.isEmpty then []
      else ("   Warnings (" ++ toString r.errors.length ++ "):")
        :: r.errors.map ("     - " ++ ·))

/-- The lines of the summary of an import that failed. -/
def failureLines (r : ImportResult) : List String :=
  ("\nImport failed (status: " ++ r.status.name ++ ")") :: r.errors.map ("   - " ++ ·)

/-- What is shown after an import. -/
def summary (r : ImportResult) (config : ImportConfig) : String :=
  ProgressEvent.joinLines <|
    match r.status with
    | .success => r.successLines "\nImport completed successfully!" config
    | .successDryRun => r.successLines "\nDry run finished, nothing was uploaded." config
    | .failed | .running => r.failureLines

end ImportResult

end KnowledgeImport
