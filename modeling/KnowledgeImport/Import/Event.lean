import KnowledgeImport.Decimal.Fixed

/-!
# Progress events

What an import announces on its way, and the text that is shown for it.
-/

namespace KnowledgeImport

/-- A step of an import that is announced. Counts of code files are `none` where code examples are
switched off. -/
inductive ProgressEvent where
  | validationStarted
  | backendReachable
  | backendUnreachable
  | embeddingProviderConfigured
  | embeddingProviderMissing
  | scanStarted
  | scanCompleted (readmeFiles documentation : Nat) (codeFiles : Option Nat) (megabytes : Binary64)
  | nothingToImport
  | dryRunPlan (documents : Nat) (codeFiles : Option Nat)
  | uploadStarted (documents : Nat)
  | uploadCompleted (successful failed : Nat)
  | extractionStarted (codeFiles : Nat)
  | extractionCompleted (successful failed : Nat)
  | failed (error : String)
  deriving DecidableEq, Repr

namespace ProgressEvent

/-- The lines with line feeds between them. -/
def joinLines (lines : List String) : String :=
  "\n".intercalate lines

/-- A second line, if something failed. -/
def failureLine (failed : Nat) (what : String) : List String :=
  if failed > 0 then ["  ! Failed: " ++ toString failed ++ " " ++ what] else []

/-- The text of an event. -/
def render : ProgressEvent → String
  | .validationStarted => "Validating Archon connection..."
  | .backendReachable => "  ✓ Archon backend reachable"
  | .backendUnreachable => "  ✗ Cannot reach Archon backend"
  | .embeddingProviderConfigured => "  ✓ Embedding provider configured"
  | .embeddingProviderMissing => "  ✗ Embedding provider not configured"
  | .scanStarted => "\nScanning repository..."
  | .scanCompleted readmes documents code megabytes =>
    joinLines <|
      ["  ✓ Found " ++ toString readmes ++ " README files",
        "  ✓ Found " ++ toString documents ++ " documentation files"]
      ++ code.toList.map (fun n => "  ✓ Found " ++ toString n ++ " code files")
      ++ ["  ✓ Estimated size: " ++ megabytes.fixed 2 ++ " MB"]
  | .nothingToImport => "\n  ! No documentation files found to import"
  | .dryRunPlan documents code =>
    joinLines <|
      ["\nDry run completed - would import:",
        "   - " ++ toString documents ++ " documentation files"]
      ++ code.toList.map (fun n => "   - " ++ toString n ++ " code files")
  | .uploadStarted documents =>
    "\nUploading " ++ toString documents ++ " documentation files..."
  | .uploadCompleted taken lost =>
    joinLines <|
      ("  ✓ Uploaded " ++ toString taken ++ " files") :: failureLine lost "files"
  | .extractionStarted code =>
    "\nExtracting code examples from " ++ toString code ++ " files..."
  | .extractionCompleted taken lost =>
    joinLines <|
      ("  ✓ Extracted " ++ toString taken ++ " code examples")
        :: failureLine lost "code files"
  | .failed error => "\n  ✗ Stage failed: " ++ error

end ProgressEvent

end KnowledgeImport
