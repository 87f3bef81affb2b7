import KnowledgeImport.Import.Config
import KnowledgeImport.Import.Record
import KnowledgeImport.Json.Record
import KnowledgeImport.Json.Value

/-!
# Records as JSON

How the record of an import, its configuration and extensions of the pattern lists are written as
JSON and read back.
-/

namespace KnowledgeImport

open Json

namespace ImportStatus

/-- A status is written by its name. -/
def toJson (s : ImportStatus) : Value :=
  .text s.name

def ofDraft : Reading ImportStatus :=
  Draft.readVariant (all.map name) ofName?

end ImportStatus

namespace ImportResult

def toJson (r : ImportResult) : Value :=
  .object [
    ("project_id", .text r.projectId),
    ("status", r.status.toJson),
    ("documents_uploaded", .nat r.documentsUploaded),
    ("documents_failed", .nat r.documentsFailed),
    ("code_examples", .nat r.codeExamples),
    ("code_examples_failed", .nat r.codeExamplesFailed),
    ("errors", .texts r.errors)]

/-- The fields in the order in which they are written. -/
def fields : List (RecordField ImportResult) := [
  .of "project_id" Draft.readText fun r x => { r with projectId := x },
  .of "status" ImportStatus.ofDraft fun r x => { r with status := x },
  .of "documents_uploaded" Draft.readCount fun r x => { r with documentsUploaded := x },
  .of "documents_failed" Draft.readCount fun r x => { r with documentsFailed := x },
  .of "code_examples" Draft.readCount fun r x => { r with codeExamples := x },
  .of "code_examples_failed" Draft.readCount fun r x => { r with codeExamplesFailed := x },
  .of "errors" (Draft.readList Draft.readText) fun r x => { r with errors := x }]

def ofDraft : Reading ImportResult :=
  RecordField.readRecord "struct ImportResult" fields (start "")

end ImportResult

namespace PatternExtensions

def toJson (e : PatternExtensions) : Value :=
  .object [
    ("doc_patterns", .texts e.docPatterns),
    ("exclude_patterns", .texts e.excludePatterns),
    ("code_extensions", .texts e.codeExtensions)]

/-- The fields in the order in which they are written; each may be absent. -/
def fields : List (RecordField PatternExtensions) :=
  let texts := Draft.readList Draft.readText
  [.of "doc_patterns" texts (fun e x => { e with docPatterns := x }) false,
    .of "exclude_patterns" texts (fun e x => { e with excludePatterns := x }) false,
    .of "code_extensions" texts (fun e x => { e with codeExtensions := x }) false]

def ofDraft : Reading PatternExtensions :=
  RecordField.readRecord "struct PatternExtensions" fields {}

end PatternExtensions

namespace ImportConfig

/-- The configuration, if its root is a text. -/
def toJson? (c : ImportConfig) : Option Value := do
  let root ← c.root.text?
  return .object [
    ("root", .text root),
    ("archon_url", .text c.backendUrl),
    ("project_id", .text c.projectId),
    ("include_code_examples", .bool c.includeCodeExamples),
    ("dry_run", .bool c.dryRun),
    ("doc_patterns", .texts c.docPatterns),
    ("exclude_patterns", .texts c.excludePatterns),
    ("code_extensions", .texts c.codeExtensions)]

/-- The configuration before any field is read. -/
def blank : ImportConfig where
  root := ⟨[]⟩
  backendUrl := ""
  projectId := ""
  includeCodeExamples := false
  dryRun := false
  docPatterns := []
  excludePatterns := []
  codeExtensions := []

/-- The fields in the order in which they are written. -/
def fields : List (RecordField ImportConfig) :=
  let texts := Draft.readList Draft.readText
  [.of "root" (Draft.readText "path string") fun c x => { c with root := Path.ofString x },
    .of "archon_url" Draft.readText fun c x => { c with backendUrl := x },
    .of "project_id" Draft.readText fun c x => { c with projectId := x },
    .of "include_code_examples" Draft.readBool fun c x => { c with includeCodeExamples := x },
    .of "dry_run" Draft.readBool fun c x => { c with dryRun := x },
    .of "doc_patterns" texts fun c x => { c with docPatterns := x },
    .of "exclude_patterns" texts fun c x => { c with excludePatterns := x },
    .of "code_extensions" texts fun c x => { c with codeExtensions := x }]

def ofDraft : Reading ImportConfig :=
  RecordField.readRecord "struct ImportConfig" fields blank

end ImportConfig

end KnowledgeImport
