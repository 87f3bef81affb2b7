import KnowledgeImport.Proofs.Import.Gating

/-!
# The switch for code examples

An import with code examples and the same import without them get the same answers up to the upload,
and only the stage behind it knows the difference.  The course of the one with the extraction taken
away (`Course.withoutExtraction`) is the course of the other (`Course.Taken.withoutExtraction`), so
the two can be compared course by course (`ImportConfig.codeExamples_confined`).
-/

namespace KnowledgeImport

variable {σ : Type}

namespace ProgressEvent

/-- The event without the number of code files, as it is announced where these do not count. -/
def withoutCodeFiles : ProgressEvent → ProgressEvent
  | .scanCompleted readmes documents _ megabytes =>
    .scanCompleted readmes documents none megabytes
  | .dryRunPlan documents _ => .dryRunPlan documents none
  | e => e

/-- The extraction starts, is completed or fails. -/
def IsOfExtraction : ProgressEvent → Prop
  | .extractionStarted _ | .extractionCompleted .. | .failed _ => True
  | _ => False

end ProgressEvent

namespace Course

/-- The course without its extraction: it ends with the upload. -/
def withoutExtraction : Course → Course
  | .extractionFailed scan documents _ | .extracted scan documents _ => .uploaded scan documents
  | course => course

/-- What a course calls after the upload. -/
def callsOfExtraction : Course → List Call
  | .extractionFailed scan .. | .extracted scan .. => [.extractCodeExamples scan.codeFiles]
  | _ => []

/-- What a course announces after the news of the upload. -/
def eventsOfExtraction : Course → List ProgressEvent
  | .extractionFailed scan _ message =>
    [.extractionStarted scan.codeFiles.length, .failed message]
  | .extracted scan _ code =>
    [.extractionStarted scan.codeFiles.length, .extractionCompleted code.successful code.failed]
  | _ => []

theorem documents?_withoutExtraction (course : Course) :
    course.withoutExtraction.documents? = course.documents? := by
  cases course <;> rfl

theorem code?_withoutExtraction (course : Course) : course.withoutExtraction.code? = none := by
  cases course <;> rfl

/-- The messages without the extraction come first. -/
theorem errors_withoutExtraction_prefix (course : Course) (config : ImportConfig) :
    (course.withoutExtraction.record config).errors <+: (course.record config).errors := by
  cases course with
  | extractionFailed | extracted => simp [withoutExtraction]
  | validatorFailed | unreachable | unconfigured | scanFailed | nothingFound | previewed
  | uploadFailed | uploaded => exact List.prefix_rfl

theorem calls_eq_append (course : Course) :
    course.calls = course.withoutExtraction.calls ++ course.callsOfExtraction := by
  cases course <;> rfl

/-- But for the numbers of code files, an import announces what it announces without code examples,
and then the news of the extraction. -/
theorem map_events_eq_append {config config' : ImportConfig} {run run' : ImportRun σ}
    {course : Course} (h : run.actions = course.actions config)
    (h' : run'.actions = course.withoutExtraction.actions config') :
    run.events.map ProgressEvent.withoutCodeFiles
      = run'.events.map ProgressEvent.withoutCodeFiles ++ course.eventsOfExtraction := by
  unfold ImportRun.events
  rw [h, h']
  cases course <;> rfl

namespace Taken

variable {config : ImportConfig} {team : Collaborators σ} {world : σ} {course : Course}

/-- With the same answers, an import without code examples takes the course without the
extraction. -/
theorem withoutExtraction (h : course.Taken config team world) :
    course.withoutExtraction.Taken { config with includeCodeExamples := false } team world := by
  -- what an import that is due finds does not depend on the switch
  have hdue {scan : ScanResult} (h : config.UploadDue team world scan) :
      ImportConfig.UploadDue { config with includeCodeExamples := false } team world scan :=
    ⟨h.toScanned, h.documents, h.noDryRun⟩
  cases h with
  | validatorFailed h => exact .validatorFailed h
  | unreachable h hreachable => exact .unreachable h hreachable
  | unconfigured h hreachable hprovider => exact .unconfigured h hreachable hprovider
  | scanFailed hready hscan => exact .scanFailed hready hscan
  | nothingFound hscan hcount => exact .nothingFound hscan hcount
  | previewed hscan hcount hdry => exact .previewed hscan hcount hdry
  | uploadFailed h hupload => exact .uploadFailed (hdue h) hupload
  | uploaded h hupload | extractionFailed h hupload | extracted h hupload =>
    -- there are no files to submit
    exact .uploaded (hdue h) hupload rfl

/-- An import ends otherwise without code examples iff its extraction is answered with an error. -/
theorem status_ne_iff (h : course.Taken config team world) :
    course.withoutExtraction.status ≠ course.status ↔
      ∃ scan message, team.findings world = .ok scan ∧
        Call.extractCodeExamples scan.codeFiles ∈ course.calls ∧
        team.extraction world scan = .error message := by
  cases h with
  | validatorFailed | unreachable | unconfigured | scanFailed | nothingFound | previewed
  | uploadFailed | uploaded => simp [Course.withoutExtraction]
  | extractionFailed hdue _ _ hextract | extracted hdue _ _ hextract =>
    simp [Course.withoutExtraction, hdue.found, hextract]

end Taken

end Course

namespace ImportConfig

/-- An import makes the calls that it makes without code examples, and then at most the extraction,
which is never called without them. The two leave records of the same project with the same counts
of documents; without code examples both counts of code files are zero, and the messages are the
first ones of the other record. The imports end differently iff the extraction is called and
answered with an error, the one without it as a success and the other as a failure. But for the
numbers of code files they announce the same, and then at most the news of the extraction. -/
theorem codeExamples_confined (config : ImportConfig) (team : Collaborators σ) (world : σ) :
    let on := runImport { config with includeCodeExamples := true } team world
    let off := runImport { config with includeCodeExamples := false } team world
    (on.calls = off.calls ∨ ∃ paths, on.calls = off.calls ++ [.extractCodeExamples paths]) ∧
    (∀ paths, Call.extractCodeExamples paths ∉ off.calls) ∧
    off.result.projectId = on.result.projectId ∧
    off.result.documentsUploaded = on.result.documentsUploaded ∧
    off.result.documentsFailed = on.result.documentsFailed ∧
    off.result.codeExamples = 0 ∧ off.result.codeExamplesFailed = 0 ∧
    off.result.errors <+: on.result.errors ∧
    (off.result.status ≠ on.result.status ↔
      ∃ scan message, team.findings world = .ok scan ∧
        Call.extractCodeExamples scan.codeFiles ∈ on.calls ∧
        team.extraction world scan = .error message) ∧
    (off.result.status ≠ on.result.status →
      off.result.status = .success ∧ on.result.status = .failed) ∧
    ∃ trailing, on.events.map ProgressEvent.withoutCodeFiles
        = off.events.map ProgressEvent.withoutCodeFiles ++ trailing ∧
      ∀ e ∈ trailing, e.IsOfExtraction := by
  intro on off
  obtain ⟨course, htaken, hactions, hrecord⟩ :=
    runImport_takes { config with includeCodeExamples := true } team world
  obtain ⟨hactions', hrecord'⟩ := htaken.withoutExtraction.runImport_eq
  have hon : on.calls = course.calls := ImportRun.calls_eq_of_actions hactions
  have hoff : off.calls = course.withoutExtraction.calls := ImportRun.calls_eq_of_actions hactions'
  have hresult : on.result = course.record config := hrecord
  have hresult' : off.result = course.withoutExtraction.record config := hrecord'
  have hevents := Course.map_events_eq_append hactions hactions'
  have hdocuments := course.documents?_withoutExtraction
  have hcode := course.code?_withoutExtraction
  rw [hresult, hresult', hon, hoff]
  refine ⟨?_, ?_, rfl, ?_, ?_, ?_, ?_, course.errors_withoutExtraction_prefix config,
    htaken.status_ne_iff, ?_, course.eventsOfExtraction, hevents, ?_⟩
  · rw [course.calls_eq_append]
    cases course with
    | extractionFailed scan | extracted scan => exact Or.inr ⟨scan.codeFiles, rfl⟩
    | validatorFailed | unreachable | unconfigured | scanFailed | nothingFound | previewed
    | uploadFailed | uploaded => exact Or.inl (List.append_nil _)
  · cases course <;> simp [Course.withoutExtraction]
  · rw [Course.record, Course.record, hdocuments]
  · rw [Course.record, Course.record, hdocuments]
  · rw [Course.record, hcode]
    rfl
  · rw [Course.record, hcode]
    rfl
  · cases course <;> simp [Course.withoutExtraction]
  · cases course <;> simp [Course.eventsOfExtraction, ProgressEvent.IsOfExtraction]

end ImportConfig

end KnowledgeImport
