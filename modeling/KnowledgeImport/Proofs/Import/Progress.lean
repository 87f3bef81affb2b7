import KnowledgeImport.Proofs.Import.FinalRecord

/-!
# What an import announces

Events, calls and the record of an import agree (`ImportConfig.events_agree`).  What an import does
is a sequence of news and of calls, each call right behind its announcement (`InStep`); this holds
of every course (`Course.inStep_actions`), so the announcements are those of the calls, in their
order (`InStep.filter_announcements`).  What the news say is shown course by course.
-/

namespace KnowledgeImport

variable {σ : Type}

/-! ### Announcements -/

/-- The calls without their arguments. -/
inductive CallKind where
  | validation
  | scan
  | upload
  | extraction
  deriving DecidableEq, Repr

/-- What a call is for. -/
def Call.kind : Call → CallKind
  | .validate => .validation
  | .scan => .scan
  | .uploadDocuments _ => .upload
  | .extractCodeExamples _ => .extraction

/-- The event that says that a call is about to be made. -/
def Call.announcement : Call → ProgressEvent
  | .validate => .validationStarted
  | .scan => .scanStarted
  | .uploadDocuments paths => .uploadStarted paths.length
  | .extractCodeExamples paths => .extractionStarted paths.length

/-- The kind of call that an event announces; other events are news. -/
def ProgressEvent.announces? : ProgressEvent → Option CallKind
  | .validationStarted => some .validation
  | .scanStarted => some .scan
  | .uploadStarted _ => some .upload
  | .extractionStarted _ => some .extraction
  | _ => none

theorem Call.announces?_announcement (c : Call) : c.announcement.announces? = some c.kind := by
  cases c <;> rfl

/-- Actions made of news and of calls, each call right behind its announcement. -/
inductive InStep : List Action → Prop
  | nil : InStep []
  | news {e : ProgressEvent} {actions : List Action} (he : e.announces? = none)
      (h : InStep actions) : InStep (.event e :: actions)
  | call (c : Call) {actions : List Action} (h : InStep actions) :
      InStep (.event c.announcement :: .call c :: actions)

namespace InStep

variable {actions : List Action}

theorem append {more : List Action} (h : InStep actions) (hmore : InStep more) :
    InStep (actions ++ more) := by
  induction h with
  | nil => exact hmore
  | news he _ ih => exact ih.news he
  | call c _ ih => exact ih.call c

/-- Behind an announcement comes its call. -/
theorem head?_of_announcement (h : InStep actions) {before after : List Action} {e : ProgressEvent}
    (he : e.announces? ≠ none) (hsplit : actions = before ++ .event e :: after) :
    ∃ c, c.announcement = e ∧ after.head? = some (.call c) := by
  induction h generalizing before with
  | nil => simp at hsplit
  | news he' _ ih =>
    rcases List.cons_eq_append_iff.mp hsplit with ⟨rfl, heq⟩ | ⟨before, rfl, heq⟩
    · obtain ⟨hevent, -⟩ := List.cons.inj heq
      obtain rfl := Action.event.inj hevent
      exact absurd he' he
    · exact ih heq
  | call c _ ih =>
    rcases List.cons_eq_append_iff.mp hsplit with ⟨rfl, heq⟩ | ⟨before, rfl, heq⟩
    · obtain ⟨hevent, rfl⟩ := List.cons.inj heq
      exact ⟨c, (Action.event.inj hevent).symm, rfl⟩
    · -- the call itself is no event, so the event stands among the further actions
      rcases List.cons_eq_append_iff.mp heq with ⟨rfl, hcall⟩ | ⟨before, rfl, hrest⟩
      · cases hcall
      · exact ih hrest

/-- In front of a call stands its announcement. -/
theorem getLast?_of_call (h : InStep actions) {before after : List Action} {c : Call}
    (hsplit : actions = before ++ .call c :: after) :
    before.getLast? = some (.event c.announcement) := by
  induction h generalizing before with
  | nil => simp at hsplit
  | news _ h ih =>
    rcases List.cons_eq_append_iff.mp hsplit with ⟨rfl, heq⟩ | ⟨before, rfl, heq⟩
    · cases heq
    · rw [List.getLast?_cons, ih heq]
      rfl
  | call c' _ ih =>
    rcases List.cons_eq_append_iff.mp hsplit with ⟨rfl, heq⟩ | ⟨before, rfl, heq⟩
    · cases heq
    · rcases List.cons_eq_append_iff.mp heq with ⟨rfl, hcall⟩ | ⟨before, rfl, hrest⟩
      · obtain ⟨hcall, -⟩ := List.cons.inj hcall
        obtain rfl := Action.call.inj hcall
        rfl
      · rw [List.getLast?_cons, List.getLast?_cons, ih hrest]
        rfl

/-- The announcements are those of the calls that are made, in their order. -/
theorem filter_announcements {run : ImportRun σ} (h : InStep run.actions) :
    run.events.filter (·.announces?.isSome) = run.calls.map Call.announcement := by
  obtain ⟨world, actions, result⟩ := run
  replace h : InStep actions := h
  induction h with
  | nil => rfl
  | news he _ ih =>
    simp only [ImportRun.events, ImportRun.calls] at ih
    simp [ImportRun.events, ImportRun.calls, he, ih]
  | call c _ ih =>
    simp only [ImportRun.events, ImportRun.calls] at ih
    simp [ImportRun.events, ImportRun.calls, c.announces?_announcement, ih]

/-- The kinds of calls that are announced are those of the calls that are made. -/
theorem filterMap_announces? {run : ImportRun σ} (h : InStep run.actions) :
    run.events.filterMap ProgressEvent.announces? = run.calls.map Call.kind := by
  have hnews (e : ProgressEvent) : (if e.announces?.isSome then e.announces? else none)
      = e.announces? := by
    cases e.announces? <;> rfl
  calc run.events.filterMap ProgressEvent.announces?
      = (run.events.filter (·.announces?.isSome)).filterMap ProgressEvent.announces? := by
        simp only [List.filterMap_filter, hnews]
    _ = (run.calls.map Call.announcement).filterMap ProgressEvent.announces? := by
        rw [h.filter_announcements]
    _ = run.calls.map Call.kind := by
        rw [List.filterMap_map, ← List.filterMap_eq_map]
        exact List.filterMap_congr fun c _ => c.announces?_announcement

end InStep

/-! ### The events of a course -/

namespace Course

/-- Whatever an import does, its calls stand right behind their announcements. -/
theorem inStep_actions (course : Course) (config : ImportConfig) :
    InStep (course.actions config) := by
  have htoScan : InStep actionsToScan := .call .validate (.news rfl (.news rfl (.call .scan .nil)))
  have hscanned (scan : ScanResult) : InStep (actionsScanned config scan) :=
    htoScan.append (.news rfl .nil)
  have htoUpload (scan : ScanResult) : InStep (actionsToUpload config scan) :=
    (hscanned scan).append (.call (.uploadDocuments scan.documentationFiles) .nil)
  have htoExtraction (scan : ScanResult) (documents : UploadOutcome) :
      InStep (actionsToExtraction config scan documents) :=
    (htoUpload scan).append (.news rfl (.call (.extractCodeExamples scan.codeFiles) .nil))
  cases course with
  | validatorFailed message => exact .call .validate (.news rfl .nil)
  | unreachable => exact .call .validate (.news rfl .nil)
  | unconfigured => exact .call .validate (.news rfl (.news rfl .nil))
  | scanFailed message => exact htoScan.append (.news rfl .nil)
  | nothingFound scan => exact (hscanned scan).append (.news rfl .nil)
  | previewed scan => exact (hscanned scan).append (.news rfl .nil)
  | uploadFailed scan message => exact (htoUpload scan).append (.news rfl .nil)
  | uploaded scan documents => exact (htoUpload scan).append (.news rfl .nil)
  | extractionFailed scan documents message =>
    exact (htoExtraction scan documents).append (.news rfl .nil)
  | extracted scan documents code =>
    exact (htoExtraction scan documents).append (.news rfl .nil)

/-- The calls are made in this order, each at most once. -/
theorem map_kind_calls_prefix (course : Course) :
    course.calls.map Call.kind <+: [.validation, .scan, .upload, .extraction] := by
  cases course <;> exact ⟨_, rfl⟩

/-- The last event of an import. -/
@[simp] def lastEvent (config : ImportConfig) : Course → ProgressEvent
  | .validatorFailed message | .scanFailed message | .uploadFailed _ message
  | .extractionFailed _ _ message => .failed message
  | .unreachable => .backendUnreachable
  | .unconfigured => .embeddingProviderMissing
  | .nothingFound _ => .nothingToImport
  | .previewed scan => .dryRunPlan scan.documentationCount (config.codeFileCount scan)
  | .uploaded _ documents => .uploadCompleted documents.successful documents.failed
  | .extracted _ _ code => .extractionCompleted code.successful code.failed

/-- An import ends with an event. -/
theorem getLast?_actions (course : Course) (config : ImportConfig) :
    (course.actions config).getLast? = some (.event (course.lastEvent config)) := by
  cases course <;> rfl

/-- The call that was answered with an error, and the error. -/
@[simp] def failedCall? : Course → Option (Call × String)
  | .validatorFailed message => some (.validate, message)
  | .scanFailed message => some (.scan, message)
  | .uploadFailed scan message => some (.uploadDocuments scan.documentationFiles, message)
  | .extractionFailed scan _ message => some (.extractCodeExamples scan.codeFiles, message)
  | .unreachable | .unconfigured | .nothingFound _ | .previewed _ | .uploaded .. | .extracted .. =>
    none

-- whether an event is among the actions of a course is read off the list of them
attribute [local simp] actions actionsToExtraction actionsToUpload actionsScanned actionsToScan

/-- Behind the call that was answered with an error comes the news of it, and nothing else. -/
theorem actions_of_failedCall? {course : Course} {c : Call} {message : String}
    (h : course.failedCall? = some (c, message)) (config : ImportConfig) :
    ∃ before, course.actions config = before ++ [.call c, .event (.failed message)] ∧
      ∀ message', .event (.failed message') ∉ before := by
  refine ⟨(course.actions config).dropLast.dropLast, ?_, ?_⟩
  · cases course with
    | unreachable | unconfigured | nothingFound | previewed | uploaded | extracted => cases h
    | validatorFailed | scanFailed | uploadFailed | extractionFailed =>
      obtain ⟨rfl, rfl⟩ := Prod.mk.inj (Option.some.inj h)
      rfl
  · intro message'
    cases course <;>
      simp

/-- The news of an error is that of the call that was answered with it. -/
theorem failed_mem_actions_iff (course : Course) (config : ImportConfig) (message : String) :
    .event (.failed message) ∈ course.actions config ↔
      ∃ c, course.failedCall? = some (c, message) := by
  cases course <;>
    simp [eq_comm]

/-- The message about the call that was answered with an error is the last of the record. -/
theorem getLast?_errors_of_failedCall? {course : Course} {c : Call} {message : String}
    (h : course.failedCall? = some (c, message)) (config : ImportConfig) :
    (course.record config).errors.getLast? = some message := by
  have hfailure : course.failure? = some message := by
    cases course <;> simp_all
  rw [record, hfailure, Option.toList_some, List.getLast?_append, List.getLast?_singleton]
  rfl

/-- The upload is announced as completed iff it was answered with an outcome. -/
theorem uploadCompleted_mem_actions_iff (course : Course) (config : ImportConfig)
    (taken lost : Nat) :
    .event (.uploadCompleted taken lost) ∈ course.actions config ↔
      ∃ o, course.documents? = some o ∧ o.successful = taken ∧ o.failed = lost := by
  cases course <;>
    simp [eq_comm]

/-- The extraction is announced as completed iff it was answered with an outcome. -/
theorem extractionCompleted_mem_actions_iff (course : Course) (config : ImportConfig)
    (taken lost : Nat) :
    .event (.extractionCompleted taken lost) ∈ course.actions config ↔
      ∃ o, course.code? = some o ∧ o.successful = taken ∧ o.failed = lost := by
  cases course <;>
    simp [eq_comm]

/-- What the scan found, if it was answered with something. -/
@[simp] def scan? : Course → Option ScanResult
  | .nothingFound scan | .previewed scan | .uploadFailed scan _ | .uploaded scan _
  | .extractionFailed scan .. | .extracted scan .. => some scan
  | .validatorFailed _ | .unreachable | .unconfigured | .scanFailed _ => none

/-- The scan is announced as completed iff it was answered with something. -/
theorem scanCompleted_mem_actions_iff (course : Course) (config : ImportConfig)
    (readmes documents : Nat) (code? : Option Nat) (megabytes : Binary64) :
    .event (.scanCompleted readmes documents code? megabytes) ∈ course.actions config ↔
      ∃ scan, course.scan? = some scan ∧ readmes = scan.readmeFiles.length ∧
        documents = scan.documentation.length ∧ code? = config.codeFileCount scan ∧
        megabytes = scan.megabytes := by
  cases course <;>
    simp

/-- An upload or a plan is announced with the number of documents that the scan found. -/
theorem count_of_mem_actions {course : Course} {config : ImportConfig} {n : Nat}
    (h : .event (.uploadStarted n) ∈ course.actions config ∨
      ∃ code?, .event (.dryRunPlan n code?) ∈ course.actions config) :
    ∃ scan, course.scan? = some scan ∧
      n = scan.readmeFiles.length + scan.documentation.length := by
  cases course <;>
    simp_all [ScanResult.length_documentationFiles, ScanResult.documentationCount]

end Course

/-! ### Events, calls and the record -/

/-- A call that an import makes is answered with an error. -/
inductive ImportConfig.CallFails (config : ImportConfig) (team : Collaborators σ) (world : σ) :
    Call → String → Prop
  | validation {message : String} (h : team.validation world = .error message) :
      CallFails config team world .validate message
  | scan {message : String} (hcall : Call.scan ∈ (config.runImport team world).calls)
      (h : team.findings world = .error message) : CallFails config team world .scan message
  | upload {scan : ScanResult} {message : String} (hfound : team.findings world = .ok scan)
      (hcall : .uploadDocuments scan.documentationFiles ∈ (config.runImport team world).calls)
      (h : team.upload world scan = .error message) :
      CallFails config team world (.uploadDocuments scan.documentationFiles) message
  | extraction {scan : ScanResult} {message : String} (hfound : team.findings world = .ok scan)
      (hcall : .extractCodeExamples scan.codeFiles ∈ (config.runImport team world).calls)
      (h : team.extraction world scan = .error message) :
      CallFails config team world (.extractCodeExamples scan.codeFiles) message

/-- The events of a run agree with its calls, their answers and the record. -/
structure ImportConfig.EventsAgree (config : ImportConfig) (team : Collaborators σ) (world : σ)
    (run : ImportRun σ) : Prop where
  /-- Each call is announced at most once, and in this order. -/
  announcements_prefix : run.events.filterMap ProgressEvent.announces?
    <+: [.validation, .scan, .upload, .extraction]
  /-- The announcements are those of the calls that are made. -/
  announcements_calls : run.events.filter (·.announces?.isSome) = run.calls.map Call.announcement
  /-- Right behind an announcement comes its call. -/
  call_behind {before after : List Action} {e : ProgressEvent} (he : e.announces? ≠ none)
    (h : run.actions = before ++ .event e :: after) :
    ∃ c, c.announcement = e ∧ after.head? = some (.call c)
  /-- Right in front of a call stands its announcement. -/
  announcement_before {before after : List Action} {c : Call}
    (h : run.actions = before ++ .call c :: after) :
    before.getLast? = some (.event c.announcement)
  /-- Behind a call that is answered with an error comes the one news of it, which ends the run; its
  text is the last message of the record. -/
  failed {c : Call} {message : String} (h : config.CallFails team world c message) :
    (∃ before, run.actions = before ++ [.call c, .event (.failed message)] ∧
      ∀ message', .event (.failed message') ∉ before) ∧
    run.events.getLast? = some (.failed message) ∧
    run.result.errors.getLast? = some message
  /-- There is no other news of an error. -/
  failed_only {message : String} (h : .failed message ∈ run.events) :
    ∃ c, config.CallFails team world c message
  /-- The upload is announced as completed iff it was answered with an outcome, with its counts. -/
  uploadCompleted_iff (taken lost : Nat) : .uploadCompleted taken lost ∈ run.events ↔
    ∃ o, config.Uploads team world o ∧ o.successful = taken ∧ o.failed = lost
  /-- The counts announced for the upload are those of the record. -/
  uploadCompleted_record {taken lost : Nat} (h : .uploadCompleted taken lost ∈ run.events) :
    run.result.documentsUploaded = taken ∧ run.result.documentsFailed = lost
  /-- The extraction is announced as completed iff it was answered with an outcome, with its
  counts. -/
  extractionCompleted_iff (taken lost : Nat) : .extractionCompleted taken lost ∈ run.events ↔
    ∃ o, config.Extracts team world o ∧ o.successful = taken ∧ o.failed = lost
  /-- The counts announced for the extraction are those of the record. -/
  extractionCompleted_record {taken lost : Nat}
    (h : .extractionCompleted taken lost ∈ run.events) :
    run.result.codeExamples = taken ∧ run.result.codeExamplesFailed = lost
  /-- The scan is announced as completed iff it was made and found something, with the lengths of
  its lists; that of the code files is left out iff code examples are switched off. -/
  scanCompleted_iff (readmes documents : Nat) (code? : Option Nat) (megabytes : Binary64) :
    .scanCompleted readmes documents code? megabytes ∈ run.events ↔
      Call.scan ∈ run.calls ∧ ∃ scan, team.findings world = .ok scan ∧
        readmes = scan.readmeFiles.length ∧ documents = scan.documentation.length ∧
        code? = (if config.includeCodeExamples then some scan.codeFiles.length else none) ∧
        megabytes = scan.megabytes
  /-- An upload or a plan is announced with the number of documents that the scan announced. -/
  documents_eq {n : Nat} (h : .uploadStarted n ∈ run.events ∨
      ∃ code?, .dryRunPlan n code? ∈ run.events) :
    ∃ readmes documents code? megabytes,
      .scanCompleted readmes documents code? megabytes ∈ run.events ∧ n = readmes + documents
  /-- A run ends with the news that there is nothing to import iff the scan announced no
  documents. -/
  nothingToImport_iff : run.events.getLast? = some .nothingToImport ↔
    ∃ readmes documents code? megabytes,
      .scanCompleted readmes documents code? megabytes ∈ run.events ∧ readmes + documents = 0
  /-- A run ends with a plan iff it was a dry run that succeeded. -/
  dryRunPlan_iff : (∃ n code?, run.events.getLast? = some (.dryRunPlan n code?)) ↔
    run.result.status = .successDryRun

namespace ImportConfig

variable {config : ImportConfig} {team : Collaborators σ} {world : σ} {course : Course}

/-- The call that is answered with an error is that of the course. -/
theorem callFails_iff (htaken : course.Taken config team world)
    (hcalls : (config.runImport team world).calls = course.calls) (c : Call) (message : String) :
    config.CallFails team world c message ↔ course.failedCall? = some (c, message) := by
  -- only one course can be taken, so it is the one that these answers lead to
  have hunique {other : Course} (h : other.Taken config team world) : course = other :=
    htaken.eq_course.trans h.eq_course.symm
  have hmade {scan : ScanResult} (hfound : team.findings world = .ok scan)
      (hcall : .uploadDocuments scan.documentationFiles ∈ course.calls) :
      config.UploadDue team world scan := by
    obtain ⟨hready, scan', hfound', hcount, hdry, -⟩ :=
      (htaken.uploadDocuments_mem_calls_iff _).mp hcall
    obtain rfl := Except.ok.inj (hfound.symm.trans hfound')
    exact ⟨⟨hready, hfound⟩, hcount, hdry⟩
  constructor
  · intro h
    cases h with
    | validation h => rw [hunique (.validatorFailed h), Course.failedCall?]
    | scan hcall h =>
      rw [hcalls] at hcall
      rw [hunique (.scanFailed (htaken.scan_mem_calls_iff.mp hcall) h), Course.failedCall?]
    | upload hfound hcall h =>
      rw [hcalls] at hcall
      rw [hunique (.uploadFailed (hmade hfound hcall) h), Course.failedCall?]
    | extraction hfound hcall h =>
      rw [hcalls] at hcall
      obtain ⟨scan, documents, hfound', hcall', hupload, hcode, -⟩ :=
        (htaken.extractCodeExamples_mem_calls_iff _).mp hcall
      obtain rfl := Except.ok.inj (hfound.symm.trans hfound')
      rw [hunique (.extractionFailed (hmade hfound hcall') hupload hcode h), Course.failedCall?]
  · intro h
    cases htaken with
    | unreachable | unconfigured | nothingFound | previewed | uploaded | extracted => cases h
    | validatorFailed hvalid =>
      obtain ⟨rfl, rfl⟩ := Prod.mk.inj (Option.some.inj h)
      exact .validation hvalid
    | scanFailed hready hfound =>
      obtain ⟨rfl, rfl⟩ := Prod.mk.inj (Option.some.inj h)
      exact .scan (by simp [hcalls]) hfound
    | uploadFailed hdue hupload =>
      obtain ⟨rfl, rfl⟩ := Prod.mk.inj (Option.some.inj h)
      exact .upload hdue.found (by simp [hcalls]) hupload
    | extractionFailed hdue hupload hcode hextract =>
      obtain ⟨rfl, rfl⟩ := Prod.mk.inj (Option.some.inj h)
      exact .extraction hdue.found (by simp [hcalls]) hextract

/-- The findings of a course are those of the scan that it calls. -/
theorem scan?_eq_some_iff (htaken : course.Taken config team world) (scan : ScanResult) :
    course.scan? = some scan ↔ Call.scan ∈ course.calls ∧ team.findings world = .ok scan := by
  cases htaken with
  | validatorFailed | unreachable | unconfigured => simp
  | scanFailed _ h => simp [h]
  | nothingFound hscan | previewed hscan => simp [hscan.found]
  | uploadFailed hdue | uploaded hdue | extractionFailed hdue | extracted hdue => simp [hdue.found]

/-- The course ends with the news that there is nothing to import iff its scan found no documents. -/
theorem lastEvent_eq_nothingToImport_iff (htaken : course.Taken config team world) :
    course.lastEvent config = .nothingToImport ↔
      ∃ scan, course.scan? = some scan ∧ scan.documentationCount = 0 := by
  cases htaken with
  | validatorFailed | unreachable | unconfigured | scanFailed => simp
  | nothingFound _ hcount => simp [hcount]
  | previewed _ hcount => simp [hcount]
  | uploadFailed hdue | uploaded hdue | extractionFailed hdue | extracted hdue =>
    simp [hdue.documents]

/-- In every run the events agree with the calls, their answers and the record. -/
theorem events_agree (config : ImportConfig) (team : Collaborators σ) (world : σ) :
    config.EventsAgree team world (config.runImport team world) := by
  obtain ⟨course, htaken, hactions, hrecord⟩ := config.runImport_takes team world
  have hcalls := ImportRun.calls_eq_of_actions hactions
  have hstep : InStep (config.runImport team world).actions :=
    hactions ▸ course.inStep_actions config
  have hevents (e : ProgressEvent) :
      e ∈ (config.runImport team world).events ↔ .event e ∈ course.actions config := by
    rw [ImportRun.mem_events_iff, hactions]
  have hlast : (config.runImport team world).events.getLast? = some (course.lastEvent config) := by
    obtain ⟨before, hbefore⟩ := List.getLast?_eq_some_iff.mp (course.getLast?_actions config)
    simp [ImportRun.events, hactions, hbefore]
  have hscan (readmes documents : Nat) (code? : Option Nat) (megabytes : Binary64) :
      .scanCompleted readmes documents code? megabytes ∈ (config.runImport team world).events ↔
        ∃ scan, course.scan? = some scan ∧ readmes = scan.readmeFiles.length ∧
          documents = scan.documentation.length ∧ code? = config.codeFileCount scan ∧
          megabytes = scan.megabytes := by
    rw [hevents, course.scanCompleted_mem_actions_iff]
  exact {
    announcements_prefix := by
      rw [hstep.filterMap_announces?, hcalls]
      exact course.map_kind_calls_prefix
    announcements_calls := hstep.filter_announcements
    call_behind := fun he h => hstep.head?_of_announcement he h
    announcement_before := fun h => hstep.getLast?_of_call h
    failed := by
      intro c message h
      have hfailed := (callFails_iff htaken hcalls c message).mp h
      obtain ⟨before, hbefore, hnone⟩ := Course.actions_of_failedCall? hfailed config
      refine ⟨⟨before, hactions.trans hbefore, hnone⟩, ?_, ?_⟩
      · simp [ImportRun.events, hactions, hbefore]
      · rw [hrecord]
        exact Course.getLast?_errors_of_failedCall? hfailed config
    failed_only := by
      intro message h
      rw [hevents, course.failed_mem_actions_iff] at h
      obtain ⟨c, hc⟩ := h
      exact ⟨c, (callFails_iff htaken hcalls c message).mpr hc⟩
    uploadCompleted_iff := by
      intro taken lost
      simp only [hevents, course.uploadCompleted_mem_actions_iff, uploads_iff htaken hcalls]
    uploadCompleted_record := by
      intro taken lost h
      rw [hevents, course.uploadCompleted_mem_actions_iff] at h
      obtain ⟨o, ho, rfl, rfl⟩ := h
      rw [hrecord, Course.record, ho]
      exact ⟨rfl, rfl⟩
    extractionCompleted_iff := by
      intro taken lost
      simp only [hevents, course.extractionCompleted_mem_actions_iff, extracts_iff htaken hcalls]
    extractionCompleted_record := by
      intro taken lost h
      rw [hevents, course.extractionCompleted_mem_actions_iff] at h
      obtain ⟨o, ho, rfl, rfl⟩ := h
      rw [hrecord, Course.record, ho]
      exact ⟨rfl, rfl⟩
    scanCompleted_iff := by
      intro readmes documents code? megabytes
      simp only [hscan, hcalls, scan?_eq_some_iff htaken, and_assoc, exists_and_left]
      rfl
    documents_eq := by
      intro n h
      simp only [hevents] at h
      obtain ⟨scan, hfound, hn⟩ := Course.count_of_mem_actions h
      exact ⟨_, _, _, _, (hscan ..).mpr ⟨scan, hfound, rfl, rfl, rfl, rfl⟩, hn⟩
    nothingToImport_iff := by
      rw [hlast, Option.some.injEq, lastEvent_eq_nothingToImport_iff htaken]
      constructor
      · rintro ⟨scan, hfound, hcount⟩
        exact ⟨_, _, _, _, (hscan ..).mpr ⟨scan, hfound, rfl, rfl, rfl, rfl⟩, hcount⟩
      · rintro ⟨readmes, documents, code?, megabytes, h, hcount⟩
        obtain ⟨scan, hfound, rfl, rfl, -, -⟩ := (hscan ..).mp h
        exact ⟨scan, hfound, hcount⟩
    dryRunPlan_iff := by
      rw [hlast, hrecord]
      cases course <;> simp }

end ImportConfig

end KnowledgeImport
