import KnowledgeImport.Backend.Collaborators
import KnowledgeImport.Proofs.Backend.Batch
import KnowledgeImport.Proofs.Backend.Requests
import KnowledgeImport.Proofs.Import.Course

/-!
# Every file is accounted for

An uploader is accountable if a batch that it finishes counts every file once and comes with a
message for every failure (`Collaborators.Accountable`).  The client of a backend is, whatever the
backend does.  So the record of an import with it has as many messages as it has failures, that of
the import included, and its counts add up to the files that the scan found, or are zero where the
stage did not come to its end (`Client.accounting_conserved`).
-/

namespace KnowledgeImport

variable {σ : Type}

/-- The uploader counts every file of a batch that it finishes, and has a message for every
failure. -/
structure Collaborators.Accountable (team : Collaborators σ) : Prop where
  upload {paths : List Path} {world : σ} {o : UploadOutcome}
    (h : (team.uploadDocuments paths world).1 = .ok o) : o.total = paths.length ∧ o.Balanced
  extraction {paths : List Path} {world : σ} {o : UploadOutcome}
    (h : (team.extractCodeExamples paths world).1 = .ok o) : o.total = paths.length ∧ o.Balanced

theorem Client.accountable_collaborators (client : Client) (server : Server σ) (fs : FileSystem)
    (rules : ScanRules) (root : Path) :
    (client.collaborators server fs rules root).Accountable where
  upload h := client.uploadBatch_spec server fs .documents h
  extraction h := client.uploadBatch_spec server fs .codeExamples h

namespace Course.Taken

variable {config : ImportConfig} {team : Collaborators σ} {world : σ} {course : Course}

/-- The outcome of an upload counts the documents that the scan found. -/
theorem documents_spec (hteam : team.Accountable) (h : course.Taken config team world)
    {documents : UploadOutcome} (hdocuments : course.documents? = some documents) :
    documents.Balanced ∧ ∃ scan, team.findings world = .ok scan ∧
      documents.total = scan.readmeFiles.length + scan.documentation.length := by
  cases h with
  | validatorFailed | unreachable | unconfigured | scanFailed | nothingFound | previewed
  | uploadFailed => cases hdocuments
  | uploaded hdue hupload | extractionFailed hdue hupload | extracted hdue hupload =>
    obtain rfl := Option.some.inj hdocuments
    obtain ⟨htotal, hbalanced⟩ := hteam.upload hupload
    exact ⟨hbalanced, _, hdue.found, htotal.trans (ScanResult.length_documentationFiles _)⟩

/-- The outcome of an extraction counts the code files that the scan found. -/
theorem code_spec (hteam : team.Accountable) (h : course.Taken config team world)
    {code : UploadOutcome} (hcode : course.code? = some code) :
    code.Balanced ∧ config.includeCodeExamples = true ∧
      ∃ scan, team.findings world = .ok scan ∧ code.total = scan.codeFiles.length := by
  cases h with
  | validatorFailed | unreachable | unconfigured | scanFailed | nothingFound | previewed
  | uploadFailed | uploaded | extractionFailed => cases hcode
  | extracted hdue _ hfiles hextract =>
    obtain rfl := Option.some.inj hcode
    obtain ⟨htotal, hbalanced⟩ := hteam.extraction hextract
    exact ⟨hbalanced, ((config.codeFilesOf_ne_nil_iff _).mp hfiles).1, _, hdue.found, htotal⟩

/-- There are as many messages as failures, that of the import included. -/
theorem length_errors (hteam : team.Accountable) (h : course.Taken config team world) :
    (course.record config).errors.length
      = (course.record config).documentsFailed + (course.record config).codeExamplesFailed
        + (if course.status = .failed then 1 else 0) := by
  -- an outcome that was not got is empty, and so balanced
  have hdocuments : (course.documents?.getD {}).Balanced := by
    cases hd : course.documents? with
    | none => exact UploadOutcome.balanced_empty
    | some documents => exact (h.documents_spec hteam hd).1
  have hcode : (course.code?.getD {}).Balanced := by
    cases hc : course.code? with
    | none => exact UploadOutcome.balanced_empty
    | some code => exact (h.code_spec hteam hc).1
  have hfailure : course.failure?.toList.length = if course.status = .failed then 1 else 0 := by
    cases course <;> rfl
  rw [record, List.length_append, List.length_append, hdocuments, hcode, hfailure]

/-- After a success with an upload the counts add up to what the scan found. -/
theorem counts_of_success (hteam : team.Accountable) (h : course.Taken config team world)
    (hsuccess : course.status = .success)
    (hcall : ∃ paths, Call.uploadDocuments paths ∈ course.calls) :
    ∃ scan, team.findings world = .ok scan ∧
      (course.record config).documentsUploaded + (course.record config).documentsFailed
        = scan.readmeFiles.length + scan.documentation.length ∧
      (course.record config).codeExamples + (course.record config).codeExamplesFailed
        = if config.includeCodeExamples then scan.codeFiles.length else 0 := by
  have htaken := h
  cases h with
  | validatorFailed | unreachable | unconfigured | scanFailed | previewed | uploadFailed
  | extractionFailed => cases hsuccess
  | nothingFound => simp at hcall
  | uploaded hdue _ hcode =>
    obtain ⟨-, scan, hscan, htotal⟩ := htaken.documents_spec hteam rfl
    obtain rfl := Except.ok.inj (hdue.found.symm.trans hscan)
    refine ⟨_, hscan, htotal, ?_⟩
    rw [← config.length_codeFilesOf, hcode]
    rfl
  | extracted =>
    obtain ⟨-, scan, hscan, htotal⟩ := htaken.documents_spec hteam rfl
    obtain ⟨-, hinclude, scan', hscan', hcode⟩ := htaken.code_spec hteam rfl
    obtain rfl := Except.ok.inj (hscan.symm.trans hscan')
    refine ⟨scan, hscan, htotal, ?_⟩
    rw [if_pos hinclude]
    exact hcode

/-- Where the extraction was answered with an error, only the documents count. -/
theorem counts_of_extraction_failed (hteam : team.Accountable) (h : course.Taken config team world)
    (hfailed : course.status = .failed)
    (hcall : ∃ paths, Call.extractCodeExamples paths ∈ course.calls) :
    ∃ scan, team.findings world = .ok scan ∧
      (course.record config).documentsUploaded + (course.record config).documentsFailed
        = scan.readmeFiles.length + scan.documentation.length ∧
      (course.record config).codeExamples = 0 ∧ (course.record config).codeExamplesFailed = 0 := by
  have htaken := h
  cases h with
  | validatorFailed | unreachable | unconfigured | scanFailed | nothingFound | previewed
  | uploadFailed | uploaded => simp at hcall
  | extracted => cases hfailed
  | extractionFailed =>
    obtain ⟨-, scan, hscan, htotal⟩ := htaken.documents_spec hteam rfl
    exact ⟨scan, hscan, htotal, rfl, rfl⟩

/-- An outcome of an upload comes of a call that a dry run does not make, and is announced. -/
theorem of_documents? (h : course.Taken config team world) {documents : UploadOutcome}
    (hdocuments : course.documents? = some documents) :
    config.dryRun = false ∧ (∃ paths, Call.uploadDocuments paths ∈ course.calls) ∧
      .event (.uploadCompleted documents.successful documents.failed) ∈ course.actions config := by
  cases h with
  | validatorFailed | unreachable | unconfigured | scanFailed | nothingFound | previewed
  | uploadFailed => cases hdocuments
  | uploaded hdue | extractionFailed hdue | extracted hdue =>
    obtain rfl := Option.some.inj hdocuments
    exact ⟨hdue.noDryRun, by simp, by simp [actions, actionsToExtraction]⟩

/-- A dry run, a success without an upload and a failure before the news of the upload have no
outcome of an upload. -/
theorem documents?_eq_none (h : course.Taken config team world)
    (hearly : config.dryRun = true ∨
      (course.status = .success ∧ ∀ paths, Call.uploadDocuments paths ∉ course.calls) ∨
      (course.status = .failed ∧
        ∀ taken lost, .event (.uploadCompleted taken lost) ∉ course.actions config)) :
    course.documents? = none := by
  cases hdocuments : course.documents? with
  | none => rfl
  | some documents =>
    obtain ⟨hdry, ⟨paths, hcall⟩, hevent⟩ := h.of_documents? hdocuments
    rcases hearly with hdry' | ⟨-, hno⟩ | ⟨-, hno⟩
    · rw [hdry] at hdry'
      cases hdry'
    · exact absurd hcall (hno paths)
    · exact absurd hevent (hno _ _)

/-- Without an outcome of an upload nothing is counted. -/
theorem counts_eq_zero (h : course.documents? = none) :
    (course.record config).documentsUploaded = 0 ∧ (course.record config).documentsFailed = 0 ∧
      (course.record config).codeExamples = 0 ∧ (course.record config).codeExamplesFailed = 0 := by
  cases course with
  | uploaded | extractionFailed | extracted => cases h
  | _ => exact ⟨rfl, rfl, rfl, rfl⟩

/-- No more files are counted than the scan found. -/
theorem counts_le (hteam : team.Accountable) (h : course.Taken config team world) :
    (course.record config).documentsUploaded + (course.record config).documentsFailed
        ≤ ((team.findings world).toOption.getD {}).documentationCount ∧
      (course.record config).codeExamples + (course.record config).codeExamplesFailed
        ≤ ((team.findings world).toOption.getD {}).codeFiles.length := by
  constructor
  · cases hdocuments : course.documents? with
    | none =>
      rw [record, hdocuments]
      exact Nat.zero_le _
    | some documents =>
      obtain ⟨-, scan, hscan, htotal⟩ := h.documents_spec hteam hdocuments
      rw [hscan, record, hdocuments]
      exact Nat.le_of_eq htotal
  · cases hcode : course.code? with
    | none =>
      rw [record, hcode]
      exact Nat.zero_le _
    | some code =>
      obtain ⟨-, -, scan, hscan, htotal⟩ := h.code_spec hteam hcode
      rw [hscan, record, hcode]
      exact Nat.le_of_eq htotal

end Course.Taken

/-! ### An import with the client of a backend -/

namespace Client

/-- Whatever the server does: there are as many messages as failures, that of the import included.
After a success with an upload the counts add up to the documents and, if code examples are switched
on, the code files that the scan found. In a dry run, in a success without an upload and in a
failure before the end of the upload nothing is counted. Where the extraction fails, only the
documents are. -/
theorem accounting_conserved (client : Client) (server : Server σ) (fs : FileSystem)
    (rules : ScanRules) (config : ImportConfig) (link : Link σ) :
    let run := config.runImport (client.collaborators server fs rules config.root) link
    run.result.errors.length
      = run.result.documentsFailed + run.result.codeExamplesFailed
        + (if run.result.status = .failed then 1 else 0) ∧
    (run.result.status = .success → (∃ paths, Call.uploadDocuments paths ∈ run.calls) →
      ∃ scan, rules.scan fs config.root = .ok scan ∧
        run.result.documentsUploaded + run.result.documentsFailed
          = scan.readmeFiles.length + scan.documentation.length ∧
        run.result.codeExamples + run.result.codeExamplesFailed
          = if config.includeCodeExamples then scan.codeFiles.length else 0) ∧
    ((config.dryRun = true ∨
        (run.result.status = .success ∧ ∀ paths, Call.uploadDocuments paths ∉ run.calls) ∨
        (run.result.status = .failed ∧
          ∀ taken lost, ProgressEvent.uploadCompleted taken lost ∉ run.events)) →
      run.result.documentsUploaded = 0 ∧ run.result.documentsFailed = 0 ∧
        run.result.codeExamples = 0 ∧ run.result.codeExamplesFailed = 0) ∧
    (run.result.status = .failed → (∃ paths, Call.extractCodeExamples paths ∈ run.calls) →
      ∃ scan, rules.scan fs config.root = .ok scan ∧
        run.result.documentsUploaded + run.result.documentsFailed
          = scan.readmeFiles.length + scan.documentation.length ∧
        run.result.codeExamples = 0 ∧ run.result.codeExamplesFailed = 0) := by
  intro run
  have hteam := client.accountable_collaborators server fs rules config.root
  obtain ⟨course, htaken, hactions, hrecord⟩ :=
    config.runImport_takes (client.collaborators server fs rules config.root) link
  have hcalls : run.calls = course.calls := ImportRun.calls_eq_of_actions hactions
  have hstatus : run.result.status = course.status := congrArg ImportResult.status hrecord
  have hevents : ∀ e, e ∈ run.events ↔ .event e ∈ course.actions config := by
    intro e
    rw [ImportRun.mem_events_iff]
    exact iff_of_eq (congrArg (Action.event e ∈ ·) hactions)
  simp only [hcalls, hstatus, hevents,
    ← client.findings_collaborators_iff server fs rules config.root link]
  rw [show run.result = course.record config from hrecord]
  exact ⟨htaken.length_errors hteam, htaken.counts_of_success hteam,
    fun hearly => Course.Taken.counts_eq_zero (htaken.documents?_eq_none hearly),
    htaken.counts_of_extraction_failed hteam⟩

end Client

end KnowledgeImport
