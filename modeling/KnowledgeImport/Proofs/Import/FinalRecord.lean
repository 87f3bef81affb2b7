import KnowledgeImport.Proofs.Import.Gating

/-!
# The record that an import leaves

The record is made of the outcomes of the calls that were answered with one, and of the message
about what ended the import early, if anything did (`ImportConfig.result_eq_of_answers`).  Failures
of single files are counted and never end an import.
-/

namespace KnowledgeImport

variable {σ : Type}

namespace ImportConfig

section Answers

variable (config : ImportConfig) (team : Collaborators σ) (world : σ)

/-- The upload was called and answered with this outcome. -/
def Uploads (documents : UploadOutcome) : Prop :=
  ∃ scan, team.findings world = .ok scan ∧
    Call.uploadDocuments scan.documentationFiles ∈ (config.runImport team world).calls ∧
    team.upload world scan = .ok documents

/-- The extraction was called and answered with this outcome. -/
def Extracts (code : UploadOutcome) : Prop :=
  ∃ scan, team.findings world = .ok scan ∧
    Call.extractCodeExamples scan.codeFiles ∈ (config.runImport team world).calls ∧
    team.extraction world scan = .ok code

/-- What ends the import early, in words: the validation was answered with an error or with a flag
that is not set, or a later call that was made was answered with an error. -/
def FailsWith (message : String) : Prop :=
  team.validation world = .error message ∨
  (∃ report, team.validation world = .ok report ∧ report.backendReachable = false ∧
    message = "Backend not reachable") ∨
  (∃ report, team.validation world = .ok report ∧ report.backendReachable = true ∧
    report.embeddingProviderConfigured = false ∧ message = "Embedding provider required") ∨
  (Call.scan ∈ (config.runImport team world).calls ∧ team.findings world = .error message) ∨
  (∃ scan, team.findings world = .ok scan ∧
    Call.uploadDocuments scan.documentationFiles ∈ (config.runImport team world).calls ∧
    team.upload world scan = .error message) ∨
  (∃ scan, team.findings world = .ok scan ∧
    Call.extractCodeExamples scan.codeFiles ∈ (config.runImport team world).calls ∧
    team.extraction world scan = .error message)

/-- The import only says what it would do. -/
def Previews : Prop :=
  team.Ready world ∧ ∃ scan, team.findings world = .ok scan ∧
    (scan.readmeFiles ≠ [] ∨ scan.documentation ≠ []) ∧ config.dryRun = true

end Answers

variable {config : ImportConfig} {team : Collaborators σ} {world : σ} {course : Course}

/-- The outcome of the upload is that of the course. -/
theorem uploads_iff (htaken : course.Taken config team world)
    (hcalls : (config.runImport team world).calls = course.calls) (documents : UploadOutcome) :
    config.Uploads team world documents ↔ course.documents? = some documents := by
  rw [Uploads, hcalls]
  cases htaken with
  | validatorFailed | unreachable | unconfigured | scanFailed | nothingFound | previewed => simp
  | uploadFailed hdue hupload | uploaded hdue hupload | extractionFailed hdue hupload
  | extracted hdue hupload => simp [hdue.found, hupload]

/-- The outcome of the extraction is that of the course. -/
theorem extracts_iff (htaken : course.Taken config team world)
    (hcalls : (config.runImport team world).calls = course.calls) (code : UploadOutcome) :
    config.Extracts team world code ↔ course.code? = some code := by
  rw [Extracts, hcalls]
  cases htaken with
  | validatorFailed | unreachable | unconfigured | scanFailed | nothingFound | previewed
  | uploadFailed | uploaded => simp
  | extractionFailed hdue _ _ hextract | extracted hdue _ _ hextract =>
    simp [hdue.found, hextract]

/-- What ends the import early is what ends the course early. -/
theorem failsWith_iff (htaken : course.Taken config team world)
    (hcalls : (config.runImport team world).calls = course.calls) (message : String) :
    config.FailsWith team world message ↔ course.failure? = some message := by
  rw [FailsWith, hcalls]
  cases htaken with
  | validatorFailed h => simp [h]
  | unreachable h hreachable =>
    have hcomm (word : String) : message = word ↔ word = message := eq_comm
    simpa [h, hreachable] using hcomm "Backend not reachable"
  | unconfigured h hreachable hprovider =>
    have hcomm (word : String) : message = word ↔ word = message := eq_comm
    simpa [h, hreachable, hprovider] using hcomm "Embedding provider required"
  | scanFailed hready hscan =>
    obtain ⟨report, hreport, hreachable, hprovider⟩ := hready
    simp [hreport, hreachable, hprovider, hscan]
  | nothingFound hscan | previewed hscan =>
    obtain ⟨report, hreport, hreachable, hprovider⟩ := hscan.ready
    simp [hreport, hreachable, hprovider, hscan.found]
  | uploadFailed hdue hupload | uploaded hdue hupload =>
    obtain ⟨report, hreport, hreachable, hprovider⟩ := hdue.ready
    simp [hreport, hreachable, hprovider, hdue.found, hupload]
  | extractionFailed hdue hupload _ hextract | extracted hdue hupload _ hextract =>
    obtain ⟨report, hreport, hreachable, hprovider⟩ := hdue.ready
    simp [hreport, hreachable, hprovider, hdue.found, hupload, hextract]

/-- An import only says what it would do iff its course ends there. -/
theorem previews_iff (htaken : course.Taken config team world) :
    config.Previews team world ↔ course.status = .successDryRun := by
  simp only [Previews, ← ScanResult.documentationCount_ne_zero_iff]
  cases htaken with
  | validatorFailed h | unreachable h | unconfigured h => simp_all [Collaborators.Ready]
  | scanFailed _ hscan => simp [hscan]
  | nothingFound hscan hcount => simp [hscan.found, hcount]
  | previewed hscan hcount hdry => simp [hscan.ready, hscan.found, hcount, hdry]
  | uploadFailed hdue | uploaded hdue | extractionFailed hdue | extracted hdue =>
    simp [hdue.noDryRun]

/-- An import fails iff something ends it early, is a dry run iff it only says what it would do, and
else succeeds. Its record holds the counts of the outcomes that it got, zero for those that it did
not get, their messages in this order, and after them the message about what ended it early. -/
theorem result_eq_of_answers (config : ImportConfig) (team : Collaborators σ) (world : σ) :
    let result := (config.runImport team world).result
    result.projectId = config.projectId ∧
    result.status ≠ .running ∧
    (result.status = .failed ↔ ∃ message, config.FailsWith team world message) ∧
    (result.status = .successDryRun ↔ config.Previews team world) ∧
    (result.status = .success ↔
      (∀ message, ¬ config.FailsWith team world message) ∧ ¬ config.Previews team world) ∧
    ∃ (documents? code? : Option UploadOutcome) (failure? : Option String),
      (∀ o, documents? = some o ↔ config.Uploads team world o) ∧
      (∀ o, code? = some o ↔ config.Extracts team world o) ∧
      (∀ message, failure? = some message ↔ config.FailsWith team world message) ∧
      result.documentsUploaded = (documents?.map (·.successful)).getD 0 ∧
      result.documentsFailed = (documents?.map (·.failed)).getD 0 ∧
      result.codeExamples = (code?.map (·.successful)).getD 0 ∧
      result.codeExamplesFailed = (code?.map (·.failed)).getD 0 ∧
      result.errors = (documents?.map (·.errors)).getD [] ++ (code?.map (·.errors)).getD []
        ++ failure?.toList := by
  intro result
  obtain ⟨course, htaken, hactions, hrecord⟩ := config.runImport_takes team world
  have hcalls := ImportRun.calls_eq_of_actions hactions
  have huploads := uploads_iff htaken hcalls
  have hextracts := extracts_iff htaken hcalls
  have hfails := failsWith_iff htaken hcalls
  rw [show result = course.record config from hrecord]
  refine ⟨rfl, ?_, ?_, (previews_iff htaken).symm, ?_, course.documents?, course.code?,
    course.failure?, fun o => (huploads o).symm, fun o => (hextracts o).symm,
    fun m => (hfails m).symm, ?_⟩
  · cases course <;> simp
  · simp only [hfails]
    cases course <;> simp
  · simp only [hfails, previews_iff htaken]
    cases course <;> simp
  · cases course <;> simp

end ImportConfig

end KnowledgeImport
