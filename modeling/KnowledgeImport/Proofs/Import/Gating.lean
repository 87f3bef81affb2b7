import KnowledgeImport.Proofs.Import.Course
import Mathlib.Data.List.Basic

/-!
# Which collaborators are called

An import calls its collaborators in the order of a plan, each at most once, and stops somewhere on
the way (`ImportConfig.calls_gated`).  Whether it goes on to the next call depends on the answers so
far and on two switches; for each call there is a lemma that says when it is made.
-/

namespace KnowledgeImport

variable {σ : Type}

theorem ScanResult.documentationCount_ne_zero_iff (s : ScanResult) :
    s.documentationCount ≠ 0 ↔ s.readmeFiles ≠ [] ∨ s.documentation ≠ [] := by
  rw [documentationCount, ne_eq, Nat.add_eq_zero_iff, List.length_eq_zero_iff,
    List.length_eq_zero_iff, not_and_or]

namespace Collaborators

variable (team : Collaborators σ) (world : σ)

/-- All calls that an import can make, in order. -/
def plan : List Call :=
  [.validate, .scan] ++
    match team.findings world with
    | .ok scan => [.uploadDocuments (scan.readmeFiles ++ scan.documentation),
        .extractCodeExamples scan.codeFiles]
    | .error _ => []

theorem plan_of_findings {scan : ScanResult} (h : team.findings world = .ok scan) :
    team.plan world = [.validate, .scan, .uploadDocuments scan.documentationFiles,
      .extractCodeExamples scan.codeFiles] := by
  rw [plan, h]
  rfl

theorem nodup_plan : (team.plan world).Nodup := by
  rw [plan]
  cases team.findings world <;> simp

end Collaborators

namespace Course.Taken

variable {config : ImportConfig} {team : Collaborators σ} {world : σ} {course : Course}

/-- The calls of a course are the first ones of the plan. -/
theorem calls_prefix_plan (h : course.Taken config team world) :
    course.calls <+: team.plan world := by
  cases h with
  -- these calls are the first ones of every plan
  | validatorFailed | unreachable | unconfigured | scanFailed =>
    exact ⟨_, rfl⟩
  | nothingFound hscan | previewed hscan =>
    rw [team.plan_of_findings world hscan.found]
    exact ⟨_, rfl⟩
  | uploadFailed hdue | uploaded hdue | extractionFailed hdue | extracted hdue =>
    rw [team.plan_of_findings world hdue.found]
    exact ⟨_, rfl⟩

/-- The tree is scanned iff the backend is there and has a provider. -/
theorem scan_mem_calls_iff (h : course.Taken config team world) :
    Call.scan ∈ course.calls ↔ team.Ready world := by
  cases h with
  | validatorFailed h | unreachable h | unconfigured h =>
    simp_all [Collaborators.Ready]
  | scanFailed hready => simp [hready]
  | nothingFound hscan | previewed hscan => simp [hscan.ready]
  | uploadFailed hdue | uploaded hdue | extractionFailed hdue | extracted hdue =>
    simp [hdue.ready]

/-- Documents are uploaded iff a scan found some and the import is no dry run. -/
theorem uploadDocuments_mem_calls_iff (h : course.Taken config team world) (paths : List Path) :
    Call.uploadDocuments paths ∈ course.calls ↔ team.Ready world ∧
      ∃ scan, team.findings world = .ok scan ∧ scan.documentationCount ≠ 0 ∧
        config.dryRun = false ∧ paths = scan.documentationFiles := by
  rw [← h.scan_mem_calls_iff]
  cases h with
  | validatorFailed | unreachable | unconfigured => simp
  | scanFailed _ hscan => simp [hscan]
  | nothingFound hscan hcount => simp [hscan.found, hcount]
  | previewed hscan _ hdry => simp [hscan.found, hdry]
  | uploadFailed hdue | uploaded hdue | extractionFailed hdue | extracted hdue =>
    simp [hdue.found, hdue.documents, hdue.noDryRun]

/-- Code files are submitted iff the documents were uploaded and there are such files to submit. -/
theorem extractCodeExamples_mem_calls_iff (h : course.Taken config team world)
    (paths : List Path) :
    Call.extractCodeExamples paths ∈ course.calls ↔
      ∃ scan documents, team.findings world = .ok scan ∧
        Call.uploadDocuments scan.documentationFiles ∈ course.calls ∧
        team.upload world scan = .ok documents ∧ config.codeFilesOf scan ≠ [] ∧
        paths = scan.codeFiles := by
  cases h with
  | validatorFailed | unreachable | unconfigured | scanFailed | nothingFound | previewed => simp
  | uploadFailed hdue hupload => simp [hdue.found, hupload]
  | uploaded hdue hupload hcode | extractionFailed hdue hupload hcode
  | extracted hdue hupload hcode => simp [hdue.found, hupload, hcode]

end Course.Taken

namespace ImportConfig

/-- An import comes to an end, and its calls are the first ones of the plan: the validation; the
scan, iff the backend is there and has a provider; the upload, iff also the scan found documents and
the import is no dry run; the extraction, iff also the upload was answered with an outcome, code
examples are switched on and the scan found code files. -/
theorem calls_gated (config : ImportConfig) (team : Collaborators σ) (world : σ) :
    let run := config.runImport team world
    run.result.status ≠ .running ∧
    run.calls <+: team.plan world ∧
    run.calls.Nodup ∧
    Call.validate ∈ run.calls ∧
    (Call.scan ∈ run.calls ↔
      ∃ report, team.validation world = .ok report ∧ report.backendReachable = true ∧
        report.embeddingProviderConfigured = true) ∧
    (∀ paths, Call.uploadDocuments paths ∈ run.calls ↔
      Call.scan ∈ run.calls ∧
        ∃ scan, team.findings world = .ok scan ∧
          (scan.readmeFiles ≠ [] ∨ scan.documentation ≠ []) ∧ config.dryRun = false ∧
          paths = scan.readmeFiles ++ scan.documentation) ∧
    (∀ paths, Call.extractCodeExamples paths ∈ run.calls ↔
      ∃ scan documents, team.findings world = .ok scan ∧
        Call.uploadDocuments scan.documentationFiles ∈ run.calls ∧
        team.upload world scan = .ok documents ∧ config.includeCodeExamples = true ∧
        scan.codeFiles ≠ [] ∧ paths = scan.codeFiles) := by
  intro run
  obtain ⟨course, htaken, hactions, hrecord⟩ := config.runImport_takes team world
  have hcalls : run.calls = course.calls := ImportRun.calls_eq_of_actions hactions
  have hstatus : run.result.status = course.status := congrArg ImportResult.status hrecord
  have hprefix := htaken.calls_prefix_plan
  rw [hcalls, hstatus]
  refine ⟨?_, hprefix, hprefix.sublist.nodup (team.nodup_plan world), ?_,
    htaken.scan_mem_calls_iff, ?_, ?_⟩
  · cases course <;> simp
  · cases course <;> simp
  · intro paths
    rw [htaken.uploadDocuments_mem_calls_iff, htaken.scan_mem_calls_iff]
    simp only [ScanResult.documentationCount_ne_zero_iff, ScanResult.documentationFiles]
  · intro paths
    rw [htaken.extractCodeExamples_mem_calls_iff]
    simp only [config.codeFilesOf_ne_nil_iff, and_assoc]

end ImportConfig

end KnowledgeImport
