import KnowledgeImport.Import.Pipeline

/-!
# Courses of an import

An import can go ten ways (`Course`), and the answers of its collaborators fix which one it takes
(`Course.Taken`).  What it announces and calls, and the record it leaves, are then determined
(`Course.actions`, `Course.record`).  `ImportConfig.runImport_takes` says that every import goes one
of these ways; what holds of all imports is shown by going through them.  Only one course can be
taken (`Course.Taken.eq_course`), so the answers say what an import does
(`Course.Taken.runImport_eq`).
-/

namespace KnowledgeImport

variable {σ : Type}

/-! ### The answers of the collaborators -/

namespace Collaborators

variable (team : Collaborators σ) (world : σ)

/-- What the backend says about itself at the start. -/
def validation : Except String ValidationReport :=
  (team.validate world).1

/-- What is found in the tree after the validation. -/
def findings : Except String ScanResult :=
  (team.scan (team.validate world).2).1

/-- The world after the scan. -/
def worldScanned : σ :=
  (team.scan (team.validate world).2).2

/-- What comes of uploading the documents of a scan. -/
def upload (scan : ScanResult) : Except String UploadOutcome :=
  (team.uploadDocuments scan.documentationFiles (team.worldScanned world)).1

/-- The world after the upload. -/
def worldUploaded (scan : ScanResult) : σ :=
  (team.uploadDocuments scan.documentationFiles (team.worldScanned world)).2

/-- What comes of submitting the code files of a scan after the upload of its documents. -/
def extraction (scan : ScanResult) : Except String UploadOutcome :=
  (team.extractCodeExamples scan.codeFiles (team.worldUploaded world scan)).1

/-- The backend is there and has a provider. -/
def Ready : Prop :=
  ∃ report, team.validation world = .ok report ∧ report.backendReachable = true ∧
    report.embeddingProviderConfigured = true

end Collaborators

/-! ### The courses -/

/-- How an import goes, and with what answers. -/
inductive Course where
  | validatorFailed (message : String)
  | unreachable
  | unconfigured
  | scanFailed (message : String)
  | nothingFound (scan : ScanResult)
  | previewed (scan : ScanResult)
  | uploadFailed (scan : ScanResult) (message : String)
  /-- The documents are uploaded and no code files submitted. -/
  | uploaded (scan : ScanResult) (documents : UploadOutcome)
  | extractionFailed (scan : ScanResult) (documents : UploadOutcome) (message : String)
  | extracted (scan : ScanResult) (documents code : UploadOutcome)
  deriving Repr

theorem ScanResult.length_documentationFiles (s : ScanResult) :
    s.documentationFiles.length = s.readmeFiles.length + s.documentation.length :=
  List.length_append ..

/-- The code files that an import submits. -/
def ImportConfig.codeFilesOf (config : ImportConfig) (scan : ScanResult) : List Path :=
  if config.includeCodeExamples then scan.codeFiles else []

theorem ImportConfig.codeFilesOf_ne_nil_iff (config : ImportConfig) (scan : ScanResult) :
    config.codeFilesOf scan ≠ [] ↔ config.includeCodeExamples = true ∧ scan.codeFiles ≠ [] := by
  rw [codeFilesOf]
  by_cases h : config.includeCodeExamples = true <;> simp [h]

theorem ImportConfig.codeFilesOf_of_ne_nil {config : ImportConfig} {scan : ScanResult}
    (h : config.codeFilesOf scan ≠ []) : config.codeFilesOf scan = scan.codeFiles :=
  if_pos ((config.codeFilesOf_ne_nil_iff scan).mp h).1

theorem ImportConfig.length_codeFilesOf (config : ImportConfig) (scan : ScanResult) :
    (config.codeFilesOf scan).length
      = if config.includeCodeExamples then scan.codeFiles.length else 0 := by
  rw [codeFilesOf, apply_ite List.length]
  rfl

/-- The backend is ready, and the scan found this. -/
structure Collaborators.Scanned (team : Collaborators σ) (world : σ) (scan : ScanResult) :
    Prop where
  ready : team.Ready world
  found : team.findings world = .ok scan

/-- The scan found documents, and the import is to upload them. -/
structure ImportConfig.UploadDue (config : ImportConfig) (team : Collaborators σ) (world : σ)
    (scan : ScanResult) : Prop extends team.Scanned world scan where
  documents : scan.documentationCount ≠ 0
  noDryRun : config.dryRun = false

/-- With these answers an import takes the course. -/
inductive Course.Taken (config : ImportConfig) (team : Collaborators σ) (world : σ) : Course → Prop
  | validatorFailed {message : String} (h : team.validation world = .error message) :
      Taken config team world (.validatorFailed message)
  | unreachable {report : ValidationReport} (h : team.validation world = .ok report)
      (hreachable : report.backendReachable = false) : Taken config team world .unreachable
  | unconfigured {report : ValidationReport} (h : team.validation world = .ok report)
      (hreachable : report.backendReachable = true)
      (hprovider : report.embeddingProviderConfigured = false) :
      Taken config team world .unconfigured
  | scanFailed {message : String} (hready : team.Ready world)
      (h : team.findings world = .error message) : Taken config team world (.scanFailed message)
  | nothingFound {scan : ScanResult} (hscan : team.Scanned world scan)
      (hcount : scan.documentationCount = 0) : Taken config team world (.nothingFound scan)
  | previewed {scan : ScanResult} (hscan : team.Scanned world scan)
      (hcount : scan.documentationCount ≠ 0) (hdry : config.dryRun = true) :
      Taken config team world (.previewed scan)
  | uploadFailed {scan : ScanResult} {message : String} (hdue : config.UploadDue team world scan)
      (h : team.upload world scan = .error message) :
      Taken config team world (.uploadFailed scan message)
  | uploaded {scan : ScanResult} {documents : UploadOutcome}
      (hdue : config.UploadDue team world scan) (hupload : team.upload world scan = .ok documents)
      (hcode : config.codeFilesOf scan = []) : Taken config team world (.uploaded scan documents)
  | extractionFailed {scan : ScanResult} {documents : UploadOutcome} {message : String}
      (hdue : config.UploadDue team world scan) (hupload : team.upload world scan = .ok documents)
      (hcode : config.codeFilesOf scan ≠ []) (h : team.extraction world scan = .error message) :
      Taken config team world (.extractionFailed scan documents message)
  | extracted {scan : ScanResult} {documents code : UploadOutcome}
      (hdue : config.UploadDue team world scan) (hupload : team.upload world scan = .ok documents)
      (hcode : config.codeFilesOf scan ≠ []) (h : team.extraction world scan = .ok code) :
      Taken config team world (.extracted scan documents code)

namespace Course

/-- What an import announces and calls up to the call of the scan. -/
def actionsToScan : List Action :=
  [.event .validationStarted, .call .validate, .event .backendReachable,
    .event .embeddingProviderConfigured, .event .scanStarted, .call .scan]

/-- What an import announces and calls up to the news of the scan. -/
def actionsScanned (config : ImportConfig) (scan : ScanResult) : List Action :=
  actionsToScan ++ [.event (.scanCompleted scan.readmeFiles.length scan.documentation.length
    (config.codeFileCount scan) scan.megabytes)]

/-- What an import announces and calls up to the call of the upload. -/
def actionsToUpload (config : ImportConfig) (scan : ScanResult) : List Action :=
  actionsScanned config scan ++ [.event (.uploadStarted scan.documentationFiles.length),
    .call (.uploadDocuments scan.documentationFiles)]

/-- What an import announces and calls up to the call of the extraction. -/
def actionsToExtraction (config : ImportConfig) (scan : ScanResult) (documents : UploadOutcome) :
    List Action :=
  actionsToUpload config scan ++ [.event (.uploadCompleted documents.successful documents.failed),
    .event (.extractionStarted scan.codeFiles.length), .call (.extractCodeExamples scan.codeFiles)]

/-- What an import announces and calls. -/
def actions (config : ImportConfig) : Course → List Action
  | .validatorFailed message =>
    [.event .validationStarted, .call .validate, .event (.failed message)]
  | .unreachable => [.event .validationStarted, .call .validate, .event .backendUnreachable]
  | .unconfigured =>
    [.event .validationStarted, .call .validate, .event .backendReachable,
      .event .embeddingProviderMissing]
  | .scanFailed message => actionsToScan ++ [.event (.failed message)]
  | .nothingFound scan => actionsScanned config scan ++ [.event .nothingToImport]
  | .previewed scan =>
    actionsScanned config scan
      ++ [.event (.dryRunPlan scan.documentationCount (config.codeFileCount scan))]
  | .uploadFailed scan message => actionsToUpload config scan ++ [.event (.failed message)]
  | .uploaded scan documents =>
    actionsToUpload config scan
      ++ [.event (.uploadCompleted documents.successful documents.failed)]
  | .extractionFailed scan documents message =>
    actionsToExtraction config scan documents ++ [.event (.failed message)]
  | .extracted scan documents code =>
    actionsToExtraction config scan documents
      ++ [.event (.extractionCompleted code.successful code.failed)]

/-- The calls of an import. -/
@[simp] def calls : Course → List Call
  | .validatorFailed _ | .unreachable | .unconfigured => [.validate]
  | .scanFailed _ | .nothingFound _ | .previewed _ => [.validate, .scan]
  | .uploadFailed scan _ | .uploaded scan _ =>
    [.validate, .scan, .uploadDocuments scan.documentationFiles]
  | .extractionFailed scan .. | .extracted scan .. =>
    [.validate, .scan, .uploadDocuments scan.documentationFiles,
      .extractCodeExamples scan.codeFiles]

/-- The status that an import ends with. -/
@[simp] def status : Course → ImportStatus
  | .validatorFailed _ | .unreachable | .unconfigured | .scanFailed _ | .uploadFailed ..
  | .extractionFailed .. => .failed
  | .previewed _ => .successDryRun
  | .nothingFound _ | .uploaded .. | .extracted .. => .success

/-- The outcome of the upload, if it was made. -/
@[simp] def documents? : Course → Option UploadOutcome
  | .uploaded _ documents | .extractionFailed _ documents _ | .extracted _ documents _ =>
    some documents
  | _ => none

/-- The outcome of the extraction, if it was made. -/
@[simp] def code? : Course → Option UploadOutcome
  | .extracted _ _ code => some code
  | _ => none

/-- The message about what ended the import early. -/
@[simp] def failure? : Course → Option String
  | .validatorFailed message | .scanFailed message | .uploadFailed _ message
  | .extractionFailed _ _ message => some message
  | .unreachable => some "Backend not reachable"
  | .unconfigured => some "Embedding provider required"
  | .nothingFound _ | .previewed _ | .uploaded .. | .extracted .. => none

/-- The record that an import leaves: the counts and messages of the outcomes, and after them the
message about what ended it early. -/
@[simp] def record (config : ImportConfig) (course : Course) : ImportResult where
  projectId := config.projectId
  status := course.status
  documentsUploaded := (course.documents?.getD {}).successful
  documentsFailed := (course.documents?.getD {}).failed
  codeExamples := (course.code?.getD {}).successful
  codeExamplesFailed := (course.code?.getD {}).failed
  errors := (course.documents?.getD {}).errors ++ (course.code?.getD {}).errors
    ++ course.failure?.toList

end Course

/-! ### Every import takes one of the courses -/

/-- A call answers by what the collaborator returns, and is the last action so far. -/
theorem ImportRun.ask_eq {α : Type} (run : ImportRun σ) (c : Call)
    (f : σ → Except String α × σ) :
    run.ask c f = ((f run.world).1, ⟨(f run.world).2, run.actions ++ [.call c], run.result⟩) :=
  rfl

theorem ImportRun.mem_events_iff (run : ImportRun σ) (e : ProgressEvent) :
    e ∈ run.events ↔ .event e ∈ run.actions := by
  rw [ImportRun.events, List.mem_filterMap]
  constructor
  · rintro ⟨action, hmem, he⟩
    cases action with
    | event e' =>
      obtain rfl := Option.some.inj he
      exact hmem
    | call c => cases he
  · intro h
    exact ⟨_, h, rfl⟩

/-- The run did and left what belongs to a course that is taken. -/
def ImportRun.Takes (config : ImportConfig) (team : Collaborators σ) (world : σ)
    (run : ImportRun σ) : Prop :=
  ∃ course : Course, course.Taken config team world ∧ run.actions = course.actions config ∧
    run.result = course.record config

theorem ImportRun.calls_eq_of_actions {config : ImportConfig} {run : ImportRun σ} {course : Course}
    (h : run.actions = course.actions config) : run.calls = course.calls := by
  rw [ImportRun.calls, h]
  cases course <;> rfl

namespace ImportConfig

variable {config : ImportConfig} {team : Collaborators σ} {world : σ} {scan : ScanResult}

/-- The last stage, on the run that the upload hands it, ends a course. -/
theorem extractStage_takes {documents : UploadOutcome} (hdue : config.UploadDue team world scan)
    (hupload : team.upload world scan = .ok documents) :
    (extractStage team (config.codeFilesOf scan) ⟨team.worldUploaded world scan,
      Course.actionsToUpload config scan
        ++ [.event (.uploadCompleted documents.successful documents.failed)],
      (ImportResult.start config.projectId).recordUpload documents⟩).Takes config team world := by
  rw [extractStage]
  by_cases hcode : config.codeFilesOf scan = []
  · -- nothing to submit, so the outcome of the upload is all there is
    rw [hcode, List.isEmpty_nil, if_pos rfl]
    refine ⟨.uploaded scan documents, .uploaded hdue hupload hcode, rfl, ?_⟩
    simp [ImportRun.done, ImportResult.finish, ImportResult.recordUpload, ImportResult.start]
  · rw [if_neg (by simpa using hcode), codeFilesOf_of_ne_nil hcode]
    simp only [ImportRun.ask_eq, ImportRun.notify]
    have hanswer : (team.extractCodeExamples scan.codeFiles (team.worldUploaded world scan)).1
        = team.extraction world scan := rfl
    rw [hanswer]
    cases hextract : team.extraction world scan with
    | error message =>
      refine ⟨.extractionFailed scan documents message,
        .extractionFailed hdue hupload hcode hextract, rfl, ?_⟩
      simp [ImportRun.fail, ImportRun.refuse, ImportRun.notify, ImportRun.done,
        ImportResult.finish, ImportResult.pushError, ImportResult.recordUpload, ImportResult.start]
    | ok code =>
      refine ⟨.extracted scan documents code, .extracted hdue hupload hcode hextract, rfl, ?_⟩
      simp [ImportRun.done, ImportResult.finish, ImportResult.recordUpload,
        ImportResult.recordExtraction, ImportResult.start]

/-- The upload stage, on the run that the scan stage hands it, ends a course. -/
theorem uploadStage_takes (hdue : config.UploadDue team world scan) :
    (config.uploadStage team scan ⟨team.worldScanned world, Course.actionsScanned config scan,
      .start config.projectId⟩).Takes config team world := by
  simp only [uploadStage, ImportRun.ask_eq, ImportRun.notify]
  have hanswer : (team.uploadDocuments scan.documentationFiles (team.worldScanned world)).1
      = team.upload world scan := rfl
  rw [hanswer]
  cases hupload : team.upload world scan with
  | error message =>
    exact ⟨.uploadFailed scan message, .uploadFailed hdue hupload, rfl, rfl⟩
  | ok documents =>
    exact extractStage_takes hdue hupload

/-- The scan stage, on the run that the validation hands it, ends a course. -/
theorem scanStage_takes (hready : team.Ready world) :
    (config.scanStage team ⟨(team.validate world).2, [.event .validationStarted, .call .validate,
      .event .backendReachable, .event .embeddingProviderConfigured],
      .start config.projectId⟩).Takes config team world := by
  simp only [scanStage, ImportRun.ask_eq, ImportRun.notify]
  have hanswer : (team.scan (team.validate world).2).1 = team.findings world := rfl
  rw [hanswer]
  cases hscan : team.findings world with
  | error message =>
    exact ⟨.scanFailed message, .scanFailed hready hscan, rfl, rfl⟩
  | ok scan =>
    have hscanned : team.Scanned world scan := ⟨hready, hscan⟩
    by_cases hcount : scan.documentationCount = 0
    · simp only [hcount, if_true]
      exact ⟨.nothingFound scan, .nothingFound hscanned hcount, rfl, rfl⟩
    · simp only [hcount, if_false]
      by_cases hdry : config.dryRun = true
      · rw [if_pos hdry]
        exact ⟨.previewed scan, .previewed hscanned hcount hdry, rfl, rfl⟩
      · rw [if_neg hdry]
        rw [Bool.not_eq_true] at hdry
        exact uploadStage_takes ⟨hscanned, hcount, hdry⟩

/-- Every import takes one of the courses. -/
theorem runImport_takes (config : ImportConfig) (team : Collaborators σ) (world : σ) :
    (config.runImport team world).Takes config team world := by
  simp only [runImport, validateStage, ImportRun.ask_eq, ImportRun.notify]
  have hanswer : (team.validate world).1 = team.validation world := rfl
  rw [hanswer]
  -- the stages after the validation are only reached with both flags set
  cases hvalid : team.validation world with
  | error message => exact ⟨.validatorFailed message, .validatorFailed hvalid, rfl, rfl⟩
  | ok report =>
    cases hreachable : report.backendReachable with
    | false =>
      simp only [hreachable, Bool.not_false, if_true]
      exact ⟨.unreachable, .unreachable hvalid hreachable, rfl, rfl⟩
    | true =>
      simp only [hreachable, Bool.not_true, Bool.false_eq_true, if_false]
      cases hprovider : report.embeddingProviderConfigured with
      | false =>
        simp only [Bool.not_false, if_true]
        exact ⟨.unconfigured, .unconfigured hvalid hreachable hprovider, rfl, rfl⟩
      | true =>
        simp only [Bool.not_true, Bool.false_eq_true, if_false]
        exact scanStage_takes ⟨report, hvalid, hreachable, hprovider⟩

/-! ### The course that the answers fix -/

/-- The course of an import that is to upload documents, read off the answers to come. -/
def uploadCourse (config : ImportConfig) (team : Collaborators σ) (world : σ) (scan : ScanResult) :
    Course :=
  match team.upload world scan with
  | .error message => .uploadFailed scan message
  | .ok documents =>
    if config.codeFilesOf scan = [] then .uploaded scan documents
    else match team.extraction world scan with
      | .error message => .extractionFailed scan documents message
      | .ok code => .extracted scan documents code

/-- The course of an import, read off the answers one after the other. -/
def course (config : ImportConfig) (team : Collaborators σ) (world : σ) : Course :=
  match team.validation world with
  | .error message => .validatorFailed message
  | .ok report =>
    if report.backendReachable = false then .unreachable
    else if report.embeddingProviderConfigured = false then .unconfigured
    else match team.findings world with
      | .error message => .scanFailed message
      | .ok scan =>
        if scan.documentationCount = 0 then .nothingFound scan
        else if config.dryRun then .previewed scan
        else config.uploadCourse team world scan

theorem course_of_due (hdue : config.UploadDue team world scan) :
    config.course team world = config.uploadCourse team world scan := by
  obtain ⟨report, hreport, hreachable, hprovider⟩ := hdue.ready
  simp [course, hreport, hreachable, hprovider, hdue.found, hdue.documents, hdue.noDryRun]

end ImportConfig

/-- Only one course can be taken. -/
theorem Course.Taken.eq_course {config : ImportConfig} {team : Collaborators σ} {world : σ}
    {course : Course} (h : course.Taken config team world) : course = config.course team world := by
  cases h with
  | validatorFailed h => simp [ImportConfig.course, h]
  | unreachable h hreachable => simp [ImportConfig.course, h, hreachable]
  | unconfigured h hreachable hprovider =>
    simp [ImportConfig.course, h, hreachable, hprovider]
  | scanFailed hready hscan =>
    obtain ⟨report, hreport, hreachable, hprovider⟩ := hready
    simp [ImportConfig.course, hreport, hreachable, hprovider, hscan]
  | nothingFound hscan hcount =>
    obtain ⟨report, hreport, hreachable, hprovider⟩ := hscan.ready
    simp [ImportConfig.course, hreport, hreachable, hprovider, hscan.found, hcount]
  | previewed hscan hcount hdry =>
    obtain ⟨report, hreport, hreachable, hprovider⟩ := hscan.ready
    simp [ImportConfig.course, hreport, hreachable, hprovider, hscan.found, hcount, hdry]
  | uploadFailed hdue hupload =>
    simp [ImportConfig.course_of_due hdue, ImportConfig.uploadCourse, hupload]
  | uploaded hdue hupload hcode =>
    simp [ImportConfig.course_of_due hdue, ImportConfig.uploadCourse, hupload, hcode]
  | extractionFailed hdue hupload hcode hextract | extracted hdue hupload hcode hextract =>
    simp [ImportConfig.course_of_due hdue, ImportConfig.uploadCourse, hupload, hcode, hextract]

/-- What an import does and leaves is fixed by the course that is taken. -/
theorem Course.Taken.runImport_eq {config : ImportConfig} {team : Collaborators σ} {world : σ}
    {course : Course} (h : course.Taken config team world) :
    (config.runImport team world).actions = course.actions config ∧
      (config.runImport team world).result = course.record config := by
  obtain ⟨other, hother, hactions, hrecord⟩ := config.runImport_takes team world
  obtain rfl : other = course := hother.eq_course.trans h.eq_course.symm
  exact ⟨hactions, hrecord⟩

end KnowledgeImport
