import KnowledgeImport.Proofs.Import.Gating

/-!
# What a dry run announces

An import and its dry run get the same answers up to the scan, so they do the same up to its news
(`throughScan`).  Where there is nothing to upload they do not differ at all: the course of the one
is also that of the other (`Course.Taken.of_nothingDue`).  Else the dry run announces a plan and
ends, and the plan has the numbers of the files that the import submits
(`ImportConfig.preview_agrees`).
-/

namespace KnowledgeImport

variable {σ : Type}

/-- The action is the news of the scan. -/
def Action.isScanNews : Action → Bool
  | .event (.scanCompleted ..) => true
  | .event _ | .call _ => false

/-- What is done up to and including the news of the scan: everything, if there is no such news. -/
def throughScan (actions : List Action) : List Action :=
  actions.take (actions.findIdx Action.isScanNews + 1)

theorem throughScan_actionsScanned_append (config : ImportConfig) (scan : ScanResult)
    (rest : List Action) :
    throughScan (Course.actionsScanned config scan ++ rest) = Course.actionsScanned config scan :=
  rfl

/-! ### Switching the dry run on and off -/

namespace Course

theorem actions_withDryRun (course : Course) (config : ImportConfig) (dryRun : Bool) :
    course.actions { config with dryRun } = course.actions config := by
  cases course <;> rfl

theorem record_withDryRun (course : Course) (config : ImportConfig) (dryRun : Bool) :
    course.record { config with dryRun } = course.record config :=
  rfl

namespace Taken

variable {config : ImportConfig} {team : Collaborators σ} {world : σ} {course : Course}
  {scan : ScanResult}

/-- Where no scan finds documents, it does not matter whether the import is a dry run. -/
theorem of_nothingDue (h : course.Taken config team world)
    (hnothing : ∀ scan, team.Scanned world scan → scan.documentationCount = 0) (dryRun : Bool) :
    course.Taken { config with dryRun } team world := by
  cases h with
  | validatorFailed h => exact .validatorFailed h
  | unreachable h hreachable => exact .unreachable h hreachable
  | unconfigured h hreachable hprovider => exact .unconfigured h hreachable hprovider
  | scanFailed hready hscan => exact .scanFailed hready hscan
  | nothingFound hscan hcount => exact .nothingFound hscan hcount
  | previewed hscan hcount => exact absurd (hnothing _ hscan) hcount
  | uploadFailed hdue | uploaded hdue | extractionFailed hdue | extracted hdue =>
    exact absurd (hnothing _ hdue.toScanned) hdue.documents

/-- After a scan every course goes on from its news. -/
theorem actions_eq_append (h : course.Taken config team world) (hscan : team.Scanned world scan) :
    ∃ rest, course.actions config = actionsScanned config scan ++ rest := by
  obtain ⟨report, hreport, hreachable, hprovider⟩ := hscan.ready
  have hfound := hscan.found
  cases h with
  | validatorFailed h => rw [hreport] at h; cases h
  | unreachable h hreachable' | unconfigured h _ hreachable' => simp_all
  | scanFailed _ h => rw [hfound] at h; cases h
  | nothingFound hscan' | previewed hscan' =>
    obtain rfl := Except.ok.inj (hfound.symm.trans hscan'.found)
    exact ⟨_, rfl⟩
  | uploadFailed hdue | uploaded hdue | extractionFailed hdue | extracted hdue =>
    obtain rfl := Except.ok.inj (hfound.symm.trans hdue.found)
    exact ⟨_, rfl⟩

end Taken

end Course

namespace ImportConfig

variable {team : Collaborators σ} {world : σ}

/-- A run does what its course says up to the news of the scan. -/
theorem throughScan_runImport (config : ImportConfig) {scan : ScanResult}
    (hscan : team.Scanned world scan) :
    throughScan (config.runImport team world).actions = Course.actionsScanned config scan := by
  obtain ⟨course, htaken, hactions, -⟩ := config.runImport_takes team world
  obtain ⟨rest, hrest⟩ := htaken.actions_eq_append hscan
  rw [hactions, hrest, throughScan_actionsScanned_append]

/-- Where no scan finds documents, an import and its dry run are the same. -/
theorem runImport_eq_of_nothingDue (config : ImportConfig)
    (hnothing : ∀ scan, team.Scanned world scan → scan.documentationCount = 0) :
    (runImport { config with dryRun := true } team world).actions
        = (runImport { config with dryRun := false } team world).actions ∧
      (runImport { config with dryRun := true } team world).result
        = (runImport { config with dryRun := false } team world).result := by
  obtain ⟨course, htaken, hactions, hrecord⟩ :=
    runImport_takes { config with dryRun := true } team world
  obtain ⟨hactions', hrecord'⟩ := (htaken.of_nothingDue hnothing false).runImport_eq
  rw [hactions, hrecord, hactions', hrecord']
  simp only [Course.actions_withDryRun, Course.record_withDryRun, and_self]

/-- An import and its dry run do the same up to the news of the scan. If the backend is not ready,
the scan fails or finds no documents, they do the same and leave the same record. Else the dry run
ends with its plan, without an upload or an extraction, as a success that counts nothing; and the
plan has the number of documents that the import uploads and, unless code examples are switched off,
the number of code files that it submits after an upload that was answered with an outcome, zero
where it submits none. -/
theorem preview_agrees (config : ImportConfig) (team : Collaborators σ) (world : σ) :
    let dry := runImport { config with dryRun := true } team world
    let real := runImport { config with dryRun := false } team world
    throughScan dry.actions = throughScan real.actions ∧
    ((¬ team.Ready world ∨ (∃ message, team.findings world = .error message) ∨
        ∃ scan, team.findings world = .ok scan ∧ scan.readmeFiles = [] ∧ scan.documentation = []) →
      dry.actions = real.actions ∧ dry.result = real.result) ∧
    ∀ scan, team.Ready world → team.findings world = .ok scan →
      (scan.readmeFiles ≠ [] ∨ scan.documentation ≠ []) →
      (∀ paths, Call.uploadDocuments paths ∉ dry.calls ∧
        Call.extractCodeExamples paths ∉ dry.calls) ∧
      dry.result = {
        projectId := config.projectId
        status := .successDryRun
        documentsUploaded := 0
        documentsFailed := 0
        codeExamples := 0
        codeExamplesFailed := 0
        errors := [] } ∧
      ∃ documents codeFiles?,
        dry.actions
          = throughScan real.actions ++ [.event (.dryRunPlan documents codeFiles?)] ∧
        (∃ paths, Call.uploadDocuments paths ∈ real.calls) ∧
        (∀ paths, Call.uploadDocuments paths ∈ real.calls → paths.length = documents) ∧
        (codeFiles? = none ↔ config.includeCodeExamples = false) ∧
        ∀ n outcome, codeFiles? = some n → team.upload world scan = .ok outcome →
          (n = 0 ↔ ∀ paths, Call.extractCodeExamples paths ∉ real.calls) ∧
          ∀ paths, Call.extractCodeExamples paths ∈ real.calls → paths.length = n := by
  intro dry real
  have hsame : (∀ scan, team.Scanned world scan → scan.documentationCount = 0) →
      dry.actions = real.actions ∧ dry.result = real.result := config.runImport_eq_of_nothingDue
  refine ⟨?_, ?_, ?_⟩
  · by_cases hscan : ∃ scan, team.Scanned world scan
    · obtain ⟨scan, hscan⟩ := hscan
      rw [throughScan_runImport _ hscan, throughScan_runImport _ hscan]
      rfl
    · rw [(hsame fun scan h => absurd ⟨scan, h⟩ hscan).1]
  · rintro (hready | ⟨message, hfailed⟩ | ⟨scan, hfound, hreadme, hdocs⟩) <;>
      refine hsame fun scan' hscan => ?_
    · exact absurd hscan.ready hready
    · rw [hscan.found] at hfailed
      cases hfailed
    · obtain rfl := Except.ok.inj (hscan.found.symm.trans hfound)
      rw [ScanResult.documentationCount, hreadme, hdocs]
      rfl
  · intro scan hready hfound hdocs
    have hscan : team.Scanned world scan := ⟨hready, hfound⟩
    have hcount := scan.documentationCount_ne_zero_iff.mpr hdocs
    -- the dry run ends with its plan
    have hpreviewed : Course.Taken { config with dryRun := true } team world (.previewed scan) :=
      .previewed hscan hcount rfl
    obtain ⟨hactions, hrecord⟩ := hpreviewed.runImport_eq
    have hcalls : dry.calls = [.validate, .scan] := ImportRun.calls_eq_of_actions hactions
    -- the import goes on with what the scan found
    obtain ⟨course, htaken, hactions', -⟩ :=
      runImport_takes { config with dryRun := false } team world
    have hcalls' : real.calls = course.calls := ImportRun.calls_eq_of_actions hactions'
    have hupload (paths : List Path) : Call.uploadDocuments paths ∈ real.calls ↔
        paths = scan.documentationFiles := by
      rw [hcalls', htaken.uploadDocuments_mem_calls_iff]
      simp [hready, hfound, hcount]
    have hextract (paths : List Path) : Call.extractCodeExamples paths ∈ real.calls ↔
        (∃ outcome, team.upload world scan = .ok outcome) ∧ config.codeFilesOf scan ≠ [] ∧
          paths = scan.codeFiles := by
      rw [hcalls', htaken.extractCodeExamples_mem_calls_iff, ← hcalls']
      simp [hfound, hupload, codeFilesOf]
    refine ⟨?_, hrecord, scan.documentationCount, config.codeFileCount scan, ?_,
      ⟨_, (hupload _).mpr rfl⟩, ?_, ?_, ?_⟩
    · intro paths
      simp [hcalls]
    · rw [throughScan_runImport _ hscan]
      exact hactions
    · intro paths hpaths
      rw [(hupload paths).mp hpaths]
      exact scan.length_documentationFiles
    · simp [codeFileCount]
    · intro n outcome hn houtcome
      obtain ⟨hinclude, rfl⟩ : config.includeCodeExamples = true ∧ scan.codeFiles.length = n := by
        simpa [codeFileCount] using hn
      simp [hextract, houtcome, codeFilesOf, hinclude]

end ImportConfig

end KnowledgeImport
